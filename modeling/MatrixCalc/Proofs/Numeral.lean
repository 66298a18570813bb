import MatrixCalc.Token.Scan
import MatrixCalc.Numeral
import Mathlib.Algebra.Group.Nat.Defs
import Mathlib.Data.List.Induction
import Mathlib.Data.List.TakeWhile

/-!
# Runs of digits as numbers

A run of ASCII digits within the limit is read as the number it denotes, whatever zeros stand in
front (`read_of_isNumeral`). The number that a run of digits within the limit denotes, in any
script, keeps to the limit as well (`fits_of_length_le`). The other way round, a natural number
is written with ASCII digits, which denote it (`ofDigits_repr`) and keep to the limit if it does
(`length_repr_le`).
-/

namespace MatrixCalc

open Token (isNumeral isUpper isLower isLetter)

/-! ## Characters by code point -/

/-- The ASCII digits are the characters from 48 to 57. -/
theorem Token.isNumeral_iff {char : Char} :
    isNumeral char = true ↔ 48 ≤ char.toNat ∧ char.toNat ≤ 57 := by
  simp only [isNumeral, Bool.and_eq_true, decide_eq_true_eq]
  rfl

/-- The upper case letters are the characters from 65 to 90. -/
theorem Token.isUpper_iff {char : Char} :
    isUpper char = true ↔ 65 ≤ char.toNat ∧ char.toNat ≤ 90 := by
  simp only [isUpper, Bool.and_eq_true, decide_eq_true_eq]
  rfl

/-- The lower case letters are the characters from 97 to 122. -/
theorem Token.isLower_iff {char : Char} :
    isLower char = true ↔ 97 ≤ char.toNat ∧ char.toNat ≤ 122 := by
  simp only [isLower, Bool.and_eq_true, decide_eq_true_eq]
  rfl

/-- No visible character of ASCII is blank. -/
theorem Text.isBlank_eq_false {char : Char} (hlow : 0x21 ≤ char.toNat)
    (hhigh : char.toNat < 0x7F) : Text.isBlank char = false := by
  simp only [Text.isBlank, Text.CharSet.has, Text.blanks, List.any_eq_false, Bool.and_eq_true,
    decide_eq_true_eq, List.mem_cons, List.not_mem_nil, or_false, forall_eq_or_imp, forall_eq]
  omega

/-- An ASCII digit counts from the first entry of the table of digits. -/
theorem Text.digitValue?_of_isNumeral {char : Char} (h : isNumeral char = true) :
    Text.digitValue? char = some (char.toNat - 48) := by
  obtain ⟨hlow, hhigh⟩ := Token.isNumeral_iff.1 h
  have hnext : char.toNat < 58 := by omega
  simp [Text.digitValue?, Text.zeroDigits, hlow, hnext]

/-- ASCII digits are digits. -/
theorem Text.isDigit_of_isNumeral {char : Char} (h : isNumeral char = true) :
    Text.isDigit char = true := by
  simp [Text.isDigit, Text.digitValue?_of_isNumeral h]

/-- A digit is one of ten characters from a zero on. -/
theorem Text.isDigit_iff {char : Char} :
    Text.isDigit char = true ↔
      ∃ start ∈ Text.zeroDigits, start ≤ char.toNat ∧ char.toNat < start + 10 := by
  simp only [Text.isDigit, Text.digitValue?, Option.isSome_map, List.find?_isSome, Bool.and_eq_true,
    decide_eq_true_eq]

/-- The first digits are those of ASCII. -/
theorem Text.zeroDigits_ge : ∀ start ∈ Text.zeroDigits, 0x30 ≤ start := by
  decide

/-- No digit of any script comes before those of ASCII. -/
theorem Text.toNat_ge_of_isDigit {char : Char} (h : Text.isDigit char = true) :
    0x30 ≤ char.toNat := by
  obtain ⟨start, hmem, hlow, -⟩ := Text.isDigit_iff.1 h
  exact Nat.le_trans (Text.zeroDigits_ge start hmem) hlow

/-- A digit is less than ten. -/
theorem Text.digitValue?_lt {char : Char} {value : Nat} (h : Text.digitValue? char = some value) :
    value < 10 := by
  obtain ⟨start, hfind, rfl⟩ := Option.map_eq_some_iff.1 h
  have hrange := List.find?_some hfind
  simp only [Bool.and_eq_true, decide_eq_true_eq] at hrange
  omega

namespace Numeral

/-! ## The number that a run of digits denotes -/

/-- One more digit at the end is worth one, and the others ten times as much as before. -/
theorem ofDigits_append_singleton (digits : List Char) (last : Char) :
    ofDigits (digits ++ [last]) = 10 * ofDigits digits + (Text.digitValue? last).getD 0 := by
  simp [ofDigits]

/-- A run of ASCII digits denotes what the standard library reads it as. -/
theorem ofDigits_eq_ofDigitChars {digits : List Char}
    (h : ∀ char ∈ digits, isNumeral char = true) :
    ofDigits digits = Nat.ofDigitChars 10 digits 0 := by
  have go : ∀ start, digits.foldl
      (fun value char => 10 * value + (Text.digitValue? char).getD 0) start =
        Nat.ofDigitChars 10 digits start := by
    induction digits with
    | nil => intro start; rfl
    | cons first rest ih =>
      intro start
      simp only [List.foldl_cons, Nat.ofDigitChars_cons,
        Text.digitValue?_of_isNumeral (h first List.mem_cons_self), Option.getD_some]
      exact ih (fun char hchar => h char (List.mem_cons_of_mem _ hchar)) _
  exact go 0

/-- A run of digits denotes a number below the power of ten given by its length. -/
theorem ofDigits_lt_pow (digits : List Char) : ofDigits digits < 10 ^ digits.length := by
  induction digits using List.reverseRecOn with
  | nil => decide
  | append_singleton digits last ih =>
    have hlast : (Text.digitValue? last).getD 0 < 10 := by
      cases hvalue : Text.digitValue? last with
      | none => decide
      | some value => exact Text.digitValue?_lt hvalue
    rw [ofDigits_append_singleton, List.length_append, List.length_singleton, Nat.pow_succ]
    omega

/-- A natural number keeps to the limit exactly if it is below the power of ten. -/
theorem fits_iff {value : Nat} : fits value = true ↔ value < 10 ^ digitLimit := by
  simp only [fits, decide_eq_true_eq, Int.natAbs_natCast, Nat.pow_eq]

/-- A number that is written with a run of digits within the limit keeps to the limit. -/
theorem fits_of_length_le {digits : List Char} (hlength : digits.length ≤ digitLimit) :
    fits (ofDigits digits) = true := by
  have hpow : 10 ^ digits.length ≤ 10 ^ digitLimit := Nat.pow_le_pow_right (by decide) hlength
  exact fits_iff.2 (Nat.lt_of_lt_of_le (ofDigits_lt_pow digits) hpow)

/-! ## Reading a run of digits -/

/-- A digit is not padding. -/
theorem not_isPadding_of_isNumeral {char : Char} (h : isNumeral char = true) :
    isPadding char = false := by
  obtain ⟨hlow, hhigh⟩ := Token.isNumeral_iff.1 h
  have hblank : Text.isBlank char = false := Text.isBlank_eq_false (by omega) (by omega)
  simp [isPadding, hblank]

/-- Before a digit there is no sign to take off. -/
theorem readSign_of_isDigit {first : Char} (rest : List Char) (h : Text.isDigit first = true) :
    readSign (first :: rest) = (false, first :: rest) := by
  have hlow := Text.toNat_ge_of_isDigit h
  unfold readSign
  split
  · simp_all
  · simp_all
  · rfl

/-- A digit is not an underscore. -/
theorem ne_underscore_of_isNumeral {char : Char} (h : isNumeral char = true) : char ≠ '_' := by
  intro hchar
  rw [hchar] at h
  exact absurd h (by decide)

/-- Where there are digits only, no underscore is out of place. -/
theorem separatorsPlaced_of_isNumeral {digits : List Char}
    (h : ∀ char ∈ digits, isNumeral char = true) : separatorsPlaced digits = true := by
  have hne : ∀ char ∈ digits, char ≠ '_' := fun char hchar =>
    ne_underscore_of_isNumeral (h char hchar)
  fun_induction separatorsPlaced digits <;> simp_all

/-- A run of ASCII digits is read as the number it denotes, if it keeps to the limit. -/
theorem read_of_isNumeral {text : String} (hne : text ≠ "")
    (h : ∀ char ∈ text.toList, isNumeral char = true) :
    read text = (readDigits text.toList).map fun value : Nat => (value : Int) := by
  have hdigit : ∀ char ∈ text.toList, (Text.isDigit char || char = '_') = true := by
    intro char hchar
    rw [Text.isDigit_of_isNumeral (h char hchar), Bool.true_or]
  -- no padding, sign or separator is found, so all characters are read as digits
  obtain ⟨first, rest, hcons⟩ := List.exists_cons_of_ne_nil (l := text.toList) (by simpa using hne)
  have hfirst : isNumeral first = true := h first (by simp [hcons])
  have hpadding : text.toList.dropWhile isPadding = text.toList := by
    rw [hcons, List.dropWhile_cons_of_neg (by simp [not_isPadding_of_isNumeral hfirst])]
  have hsign : readSign text.toList = (false, text.toList) := by
    rw [hcons]
    exact readSign_of_isDigit rest (Text.isDigit_of_isNumeral hfirst)
  have hempty : text.toList.isEmpty = false := by simp [hcons]
  have hfilter : text.toList.filter (fun char => char ≠ '_') = text.toList :=
    List.filter_eq_self.2 fun char hchar => by
      simpa using ne_underscore_of_isNumeral (h char hchar)
  simp only [read, hpadding, hsign, List.takeWhile_eq_self_iff.2 hdigit,
    List.dropWhile_eq_nil_iff.2 hdigit, hempty, separatorsPlaced_of_isNumeral h, hfilter]
  cases readDigits text.toList <;> rfl

/-! ## Writing a natural number -/

/-- A natural number is written without a sign. -/
@[simp] theorem toText_natCast (value : Nat) : toText value = value.repr := by
  simp [toText]

/-- A natural number is written with ASCII digits. -/
theorem isNumeral_of_mem_repr {value : Nat} {char : Char} (h : char ∈ value.repr.toList) :
    isNumeral char = true := by
  rw [Nat.toList_repr] at h
  have hdigit := Nat.isDigit_of_mem_toDigits (by decide) (by decide) h
  simp only [Char.isDigit, Bool.and_eq_true, decide_eq_true_eq] at hdigit
  exact Token.isNumeral_iff.2 hdigit

/-- A natural number has a digit. -/
theorem repr_ne_empty (value : Nat) : value.repr ≠ "" := by
  intro h
  have hempty : value.repr.toList = [] := by rw [h]; rfl
  rw [Nat.toList_repr] at hempty
  exact Nat.toDigits_ne_nil hempty

/-- The digits of a number denote that number. -/
@[simp] theorem ofDigits_repr (value : Nat) : ofDigits value.repr.toList = value := by
  rw [ofDigits_eq_ofDigitChars fun _ => isNumeral_of_mem_repr, Nat.toList_repr]
  exact Nat.ofDigitChars_ten_toDigits

/-- A number within the limit has no more digits than the limit. -/
theorem length_repr_le {value : Nat} (h : fits value = true) :
    value.repr.toList.length ≤ digitLimit := by
  rw [Nat.toList_repr]
  exact (Nat.length_toDigits_le_iff (by decide) (by decide)).2 (fits_iff.1 h)

end Numeral

end MatrixCalc
