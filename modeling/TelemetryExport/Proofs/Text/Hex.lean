import TelemetryExport.Text.Hex
import TelemetryExport.Proofs.Text.Ascii

/-! # Hexadecimal digits

Two digits show a byte. From the text that is written the reader gets the bytes back, and
likewise where letters of it are in upper case, but from no other text.
-/

namespace TelemetryExport.Text

/-- The text that shows bytes: of each byte the digit of the high half and that of the low. -/
def lowerHex (bytes : List UInt8) : String :=
  String.ofList (bytes.flatMap fun byte =>
    [Nat.digitChar (byte.toNat / 16), Nat.digitChar (byte.toNat % 16)])

theorem toNat_div_lt (byte : UInt8) : byte.toNat / 16 < 16 :=
  Nat.div_lt_of_lt_mul byte.toNat_lt

theorem toNat_mod_lt (byte : UInt8) : byte.toNat % 16 < 16 := Nat.mod_lt _ (by decide)

theorem hexByte_eq (byte : UInt8) :
    hexByte byte = [Nat.digitChar (byte.toNat / 16), Nat.digitChar (byte.toNat % 16)] := by
  have hdigit : ∀ n < 16, hexDigit n = Nat.digitChar n := by decide
  rw [hexByte, hdigit _ (toNat_div_lt byte), hdigit _ (toNat_mod_lt byte)]

/-- What is written is that text. -/
theorem hex_eq_lowerHex (bytes : List UInt8) : hex bytes = lowerHex bytes := by
  rw [hex, lowerHex, funext hexByte_eq]

/-! ## Reading digits -/

theorem isAlphanum_of_hexValue? {c : Char} {n : Nat} (hvalue : hexValue? c = some n) :
    c.isAlphanum = true := by
  have hrange : '0' ≤ c ∧ c ≤ '9' ∨ 'a' ≤ c ∧ c ≤ 'f' ∨ 'A' ≤ c ∧ c ≤ 'F' := by
    unfold hexValue? at hvalue
    split at hvalue
    next hdigit => exact .inl hdigit
    next =>
      split at hvalue
      next hlower => exact .inr (.inl hlower)
      next =>
        split at hvalue
        next hupper => exact .inr (.inr hupper)
        next => cases hvalue
  delta Char.isAlphanum Char.isAlpha Char.isUpper Char.isLower Char.isDigit
  simp only [Bool.or_eq_true, Bool.and_eq_true, decide_eq_true_eq, Char.le_def,
    UInt32.le_iff_toNat_le, ge_iff_le] at hrange ⊢
  have hz : 'z'.val.toNat = 122 := rfl
  have hf : 'f'.val.toNat = 102 := rfl
  have hZ : 'Z'.val.toNat = 90 := rfl
  have hF : 'F'.val.toNat = 70 := rfl
  omega

theorem isAlphanum_of_toLower {c : Char} (hlower : c.toLower.isAlphanum = true) :
    c.isAlphanum = true := by
  unfold Char.toLower at hlower
  split at hlower
  next hupper =>
    have hisUpper : c.isUpper = true := decide_eq_true hupper
    delta Char.isAlphanum Char.isAlpha
    rw [hisUpper, Bool.true_or, Bool.true_or]
  next => exact hlower

/-- The characters that stand for a value: its digit, in either case. -/
theorem hexValue?_eq_some_iff {c : Char} {n : Nat} (hn : n < 16) :
    hexValue? c = some n ↔ c.toLower = Nat.digitChar n := by
  have hascii : ∀ code < 128, ∀ n < 16,
      (hexValue? (Char.ofNat code) = some n ↔ (Char.ofNat code).toLower = Nat.digitChar n) := by
    decide +kernel
  have hdigit : ∀ n < 16, (Nat.digitChar n).isAlphanum = true := by decide
  have hiff (hc : c.isAlphanum = true) : hexValue? c = some n ↔ c.toLower = Nat.digitChar n :=
    of_isAlphanum (P := fun c => ∀ n < 16, (hexValue? c = some n ↔ c.toLower = Nat.digitChar n))
      hascii hc n hn
  constructor
  · intro hvalue
    exact (hiff (isAlphanum_of_hexValue? hvalue)).mp hvalue
  · intro hlower
    have hc : c.isAlphanum = true := by
      apply isAlphanum_of_toLower
      rw [hlower]
      exact hdigit n hn
    exact (hiff hc).mpr hlower

theorem hexValue?_lt {c : Char} {n : Nat} (hvalue : hexValue? c = some n) : n < 16 := by
  have hascii : ∀ code < 128, ∀ value ∈ hexValue? (Char.ofNat code), value < 16 := by
    decide +kernel
  exact of_isAlphanum (P := fun c => ∀ value ∈ hexValue? c, value < 16) hascii
    (isAlphanum_of_hexValue? hvalue) n hvalue

theorem toList_lowerHex_cons (byte : UInt8) (rest : List UInt8) :
    (lowerHex (byte :: rest)).toList = Nat.digitChar (byte.toNat / 16) ::
      Nat.digitChar (byte.toNat % 16) :: (lowerHex rest).toList := by
  simp only [lowerHex, String.toList_ofList, List.flatMap_cons, List.cons_append, List.nil_append]

/-- A text stands for the bytes that it shows, whatever the case of its letters. -/
theorem ofHex?_of_toLower {text : List Char} {bytes : List UInt8}
    (hlower : text.map Char.toLower = (lowerHex bytes).toList) : ofHex? text = some bytes := by
  induction bytes generalizing text with
  | nil =>
      obtain rfl := List.map_eq_nil_iff.mp hlower
      rfl
  | cons byte rest ih =>
      rw [toList_lowerHex_cons] at hlower
      obtain ⟨high, text, rfl, hhigh, hlower⟩ := List.map_eq_cons_iff.mp hlower
      obtain ⟨low, text, rfl, hlow, hrest⟩ := List.map_eq_cons_iff.mp hlower
      have hbyte : UInt8.ofNat (16 * (byte.toNat / 16) + byte.toNat % 16) = byte := by
        rw [Nat.div_add_mod, UInt8.ofNat_toNat]
      simp only [ofHex?, (hexValue?_eq_some_iff (toNat_div_lt byte)).mpr hhigh,
        (hexValue?_eq_some_iff (toNat_mod_lt byte)).mpr hlow, ih hrest, hbyte, Option.pure_def,
        Option.bind_eq_bind, Option.bind_some]

/-- And it stands for no other bytes. -/
theorem ofHex?_eq_some_iff {text : List Char} {bytes : List UInt8} :
    ofHex? text = some bytes ↔ text.map Char.toLower = (lowerHex bytes).toList := by
  refine ⟨fun hread => ?_, ofHex?_of_toLower⟩
  -- The reader takes two digits at a time.
  induction text using ofHex?.induct generalizing bytes with
  | case1 =>
      cases hread
      rfl
  | case2 => cases hread
  | case3 high low rest ih =>
      simp only [ofHex?, Option.pure_def, Option.bind_eq_bind, Option.bind_eq_some_iff] at hread
      obtain ⟨first, hhigh, second, hlow, tail, htail, hbytes⟩ := hread
      cases hbytes
      have hfirst := hexValue?_lt hhigh
      have hsecond := hexValue?_lt hlow
      have hbyte : (UInt8.ofNat (16 * first + second)).toNat = 16 * first + second := by
        rw [UInt8.toNat_ofNat']
        exact Nat.mod_eq_of_lt (by omega)
      rw [List.map_cons, List.map_cons, ih htail, toList_lowerHex_cons, hbyte,
        (hexValue?_eq_some_iff hfirst).mp hhigh, (hexValue?_eq_some_iff hsecond).mp hlow,
        show (16 * first + second) / 16 = first by omega,
        show (16 * first + second) % 16 = second by omega]

/-- The reader gets back what was written. -/
theorem ofHex?_hex (bytes : List UInt8) : ofHex? (hex bytes).toList = some bytes := by
  have hdigit : ∀ n < 16, (Nat.digitChar n).toLower = Nat.digitChar n := by decide
  apply ofHex?_of_toLower
  rw [hex_eq_lowerHex]
  induction bytes with
  | nil => rfl
  | cons byte rest ih =>
      rw [toList_lowerHex_cons, List.map_cons, List.map_cons, ih, hdigit _ (toNat_div_lt byte),
        hdigit _ (toNat_mod_lt byte)]

end TelemetryExport.Text
