import TelemetryExport.Record.TableName
import TelemetryExport.Proofs.Text.Ascii

/-! # Names made of categories

The table name that a category stands for is told here by the letters and digits themselves:
which characters of the category are kept, how many of them, and what becomes of the first.
Every such name is one that a table may have.
-/

namespace TelemetryExport.TableName

def capitals : List Char := "ABCDEFGHIJKLMNOPQRSTUVWXYZ".toList

def smalls : List Char := "abcdefghijklmnopqrstuvwxyz".toList

def digits : List Char := "0123456789".toList

/-- The capital of a small letter, and any other character itself. -/
def raised (c : Char) : Char := ((smalls.zip capitals).lookup c).getD c

/-- The first fifty letters and digits of a category. -/
def remains (category : String) : List Char :=
  (category.toList.filter (capitals ++ smalls ++ digits).contains).take 50

/-- What remains of a category with its first letter raised, provided that it is a letter. -/
def derived? (category : String) : Option String :=
  match remains category with
  | [] => none
  | first :: rest =>
      if (capitals ++ smalls).contains first then some (String.ofList (raised first :: rest))
      else none

/-- A test that holds of the listed characters, and of no other letter or digit, says which
characters are listed. -/
theorem contains_eq_of_ascii {listed : List Char} {test : Char → Bool}
    (hsound : listed.all test = true)
    (hascii : ∀ code < 128, test (Char.ofNat code) = true →
      listed.contains (Char.ofNat code) = true)
    (htest : ∀ c, test c = true → c.isAlphanum = true) (c : Char) :
    test c = listed.contains c := by
  rw [Bool.eq_iff_iff]
  constructor
  · intro hc
    exact Text.of_isAlphanum (P := fun c => test c = true → listed.contains c = true) hascii
      (htest c hc) hc
  · intro hlisted
    exact List.all_eq_true.mp hsound c (List.contains_iff_mem.mp hlisted)

theorem isAlphanum_eq (c : Char) : c.isAlphanum = (capitals ++ smalls ++ digits).contains c :=
  contains_eq_of_ascii (by decide) (by decide) (fun _ => id) c

theorem isAlpha_eq (c : Char) : c.isAlpha = (capitals ++ smalls).contains c :=
  contains_eq_of_ascii (by decide) (by decide)
    (fun c hc => by rw [Char.isAlphanum, hc, Bool.true_or]) c

theorem toUpper_eq {c : Char} (hc : c.isAlphanum = true) : c.toUpper = raised c :=
  Text.of_isAlphanum (P := fun c => c.toUpper = raised c) (by decide +kernel) hc

/-- The name that a category stands for is the one derived from what remains of it. -/
theorem ofCategory?_eq (category : String) : ofCategory? category = derived? category := by
  have hremains : (category.toList.filter Char.isAlphanum).take maxLength = remains category := by
    rw [remains, ← funext isAlphanum_eq]
    rfl
  have hfirst : ∀ c ∈ remains category, c.isAlphanum = true := by
    intro c hmem
    rw [← hremains] at hmem
    exact (List.mem_filter.mp (List.mem_of_mem_take hmem)).2
  rw [ofCategory?, hremains, derived?]
  cases hkept : remains category with
  | nil => rfl
  | cons first rest =>
      rw [hkept] at hfirst
      simp only [isAlpha_eq, toUpper_eq (hfirst first List.mem_cons_self)]

example : derived? "2nd Level" = none ∧ derived? "my-app.Level 2" = some "MyappLevel2" := by
  decide

/-! ## Checks -/

theorem check_eq_ok_iff {name : String} :
    check name = .ok () ↔ hasValidLength name = true ∧ hasValidForm name = true := by
  rw [check]
  cases hasValidLength name with
  | false => exact ⟨fun hcheck => (nomatch hcheck), fun hvalid => (nomatch hvalid.1)⟩
  | true =>
      cases hasValidForm name with
      | false => exact ⟨fun hcheck => (nomatch hcheck), fun hvalid => (nomatch hvalid.2)⟩
      | true => exact ⟨fun _ => ⟨rfl, rfl⟩, fun _ => rfl⟩

theorem isAlpha_raised {c : Char} (hc : (capitals ++ smalls).contains c = true) :
    (raised c).isAlpha = true := by
  have hletters : (capitals ++ smalls).all (fun c => (raised c).isAlpha) = true := by decide
  exact List.all_eq_true.mp hletters c (List.contains_iff_mem.mp hc)

/-- A name that is made of a category is a table name. -/
theorem check_of_derived? {category name : String} (hname : derived? category = some name) :
    check name = .ok () := by
  have hchars : ∀ c ∈ remains category, c.isAlphanum = true := by
    intro c hmem
    rw [isAlphanum_eq]
    exact (List.mem_filter.mp (List.mem_of_mem_take hmem)).2
  have hlength : (remains category).length ≤ maxLength := by
    rw [remains, List.length_take]
    exact Nat.min_le_left _ _
  rw [derived?] at hname
  generalize remains category = chars at hname hchars hlength
  cases chars with
  | nil => cases hname
  | cons first rest =>
      obtain ⟨-, hrest⟩ := List.forall_mem_cons.mp hchars
      by_cases hfirst : (capitals ++ smalls).contains first = true
      · simp only [if_pos hfirst] at hname
        cases hname
        have hraised := isAlpha_raised hfirst
        have hall : ∀ c ∈ raised first :: rest, c.isAlphanum = true :=
          List.forall_mem_cons.mpr ⟨by rw [Char.isAlphanum, hraised, Bool.true_or], hrest⟩
        rw [check_eq_ok_iff]
        constructor
        · rw [hasValidLength, Text.utf8ByteSize_ofList hall]
          simpa using hlength
        · rw [hasValidForm, String.toList_ofList]
          simpa [hraised] using hrest
      · simp only [if_neg hfirst] at hname
        cases hname

end TelemetryExport.TableName
