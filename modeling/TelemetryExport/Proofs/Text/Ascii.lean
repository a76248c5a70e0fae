import Mathlib.Algebra.Group.Nat.Defs

/-! # Letters and digits

Every letter and every digit takes one byte. The decimal digits of a number are the one text
of digits that denotes it and is no longer than it has to be.
-/

namespace TelemetryExport.Text

/-- A letter or a digit is one of the first 128 characters. -/
theorem of_isAlphanum {P : Char → Prop} (hascii : ∀ code < 128, P (Char.ofNat code))
    {c : Char} (hc : c.isAlphanum = true) : P c := by
  have hcode : c.toNat < 128 := by
    delta Char.isAlphanum Char.isAlpha Char.isUpper Char.isLower Char.isDigit at hc
    simp only [Bool.or_eq_true, Bool.and_eq_true, decide_eq_true_eq, UInt32.le_iff_toNat_le,
      ge_iff_le] at hc
    have hnat : c.toNat = c.val.toNat := rfl
    have hupper : 'Z'.val.toNat = 90 := rfl
    have hlower : 'z'.val.toNat = 122 := rfl
    have hdigit : '9'.val.toNat = 57 := rfl
    omega
  have hholds := hascii c.toNat hcode
  rw [Char.ofNat_toNat] at hholds
  exact hholds

/-- Letters and digits take a byte each. -/
theorem utf8ByteSize_ofList {chars : List Char} (hchars : ∀ c ∈ chars, c.isAlphanum = true) :
    (String.ofList chars).utf8ByteSize = chars.length := by
  have hascii : ∀ code < 128, (Char.ofNat code).utf8Size = 1 := by decide
  induction chars with
  | nil => rfl
  | cons c rest ih =>
      obtain ⟨hc, hrest⟩ := List.forall_mem_cons.mp hchars
      have hsize : c.utf8Size = 1 := of_isAlphanum (P := fun c => c.utf8Size = 1) hascii hc
      rw [String.ofList_cons, String.utf8ByteSize_append, String.utf8ByteSize_singleton, ih hrest,
        hsize, List.length_cons, Nat.add_comm]

theorem utf8ByteSize_eq_length {text : String}
    (hchars : ∀ c ∈ text.toList, c.isAlphanum = true) : text.utf8ByteSize = text.length := by
  have hsize := utf8ByteSize_ofList hchars
  rw [String.ofList_toList] at hsize
  exact hsize

/-- The text is the number in decimal digits, without a zero in front that could be left out. -/
structure IsDecimal (text : String) (n : Nat) : Prop where
  isDigit : ∀ c ∈ text.toList, c.isDigit = true
  value_eq : Nat.ofDigitChars 10 text.toList 0 = n
  length_pos : 0 < text.length
  length_le : ∀ count, 0 < count → n < 10 ^ count → text.length ≤ count

theorem toList_toString (n : Nat) : (toString n).toList = Nat.toDigits 10 n := by
  rw [Nat.toString_eq_ofList_toDigits, String.toList_ofList]

theorem isDecimal_toString (n : Nat) : IsDecimal (toString n) n where
  isDigit := by
    intro c hmem
    rw [toList_toString] at hmem
    exact Nat.isDigit_of_mem_toDigits (by decide) (Nat.le_refl 10) hmem
  value_eq := by
    rw [toList_toString]
    exact Nat.ofDigitChars_ten_toDigits
  length_pos := by
    rw [← String.length_toList, toList_toString]
    exact Nat.length_toDigits_pos
  length_le := by
    intro count hcount hn
    rw [← String.length_toList, toList_toString]
    exact (Nat.length_toDigits_le_iff (by decide) hcount).mpr hn

theorem IsDecimal.utf8ByteSize_eq {text : String} {n : Nat} (hdecimal : IsDecimal text n) :
    text.utf8ByteSize = text.length := by
  apply utf8ByteSize_eq_length
  intro c hmem
  rw [Char.isAlphanum, hdecimal.isDigit c hmem, Bool.or_true]

end TelemetryExport.Text
