import MatrixCalc.Fraction.Text
import MatrixCalc.Proofs.Failure
import MatrixCalc.Proofs.Fraction.Value
import MatrixCalc.Proofs.Numeral
import MatrixCalc.Proofs.Token.Lexeme
import Mathlib.Data.Nat.Digits.Defs

/-!
# The format of fractions

A part of a fraction is `blank* sign? digit+ blank*`, and a fraction is one part, or two with a
slash between them (`HasFormat`). Splitting a text finds the parts of this format and nothing else
(`splitParts_eq_some_iff`), since blanks, signs, digits and the slash have no character in common.
`parse_cases` says what comes of each text: no format, a run of digits beyond the limit, a zero
denominator, or a fraction in the terms that were written.
-/

namespace MatrixCalc

namespace Text

/-! ## Blanks, digits, signs and slashes -/

/-- The digits of each script lie outside the ranges of blanks. -/
theorem zeroDigits_apart_blanks :
    ∀ start ∈ zeroDigits, ∀ range ∈ blanks, range.2 < start ∨ start + 10 ≤ range.1 := by
  decide

/-- A digit is not blank. -/
theorem isBlank_eq_false_of_isDigit {char : Char} (h : isDigit char = true) :
    isBlank char = false := by
  obtain ⟨start, hmem, hlow, hhigh⟩ := isDigit_iff.1 h
  simp only [isBlank, CharSet.has, List.any_eq_false, Bool.and_eq_true, decide_eq_true_eq]
  rintro range hrange ⟨hfrom, hto⟩
  have := zeroDigits_apart_blanks start hmem range hrange
  omega

/-- A blank is no digit. -/
theorem isDigit_eq_false_of_isBlank {char : Char} (h : isBlank char = true) :
    isDigit char = false :=
  Bool.eq_false_iff.2 fun hdigit => by simp [isBlank_eq_false_of_isDigit hdigit] at h

/-- Blanks in front are skipped, up to something that is not blank. -/
theorem skipBlanks_append {blanks rest : List Char} (hblanks : ∀ char ∈ blanks, isBlank char = true)
    (hrest : ∀ char ∈ rest.head?, isBlank char = false) : skipBlanks (blanks ++ rest) = rest :=
  Token.dropWhile_append_of_stop hblanks hrest

end Text

namespace Numeral

/-! ## Signs and digits -/

/-- How a sign is written in front of a number, and whether it is a minus sign. -/
inductive IsSign : List Char → Bool → Prop where
  | absent : IsSign [] false
  | plus : IsSign ['+'] false
  | minus : IsSign ['-'] true

/-- A sign is read off the front of digits. -/
theorem IsSign.readSign_append {sign rest : List Char} {negative : Bool} (h : IsSign sign negative)
    (hrest : ∃ char ∈ rest.head?, Text.isDigit char = true) :
    readSign (sign ++ rest) = (negative, rest) := by
  cases h with
  | absent =>
    obtain ⟨char, hhead, hdigit⟩ := hrest
    obtain ⟨more, rfl⟩ := List.head?_eq_some_iff.1 hhead
    exact readSign_of_isDigit more hdigit
  | plus => rfl
  | minus => rfl

/-- Whatever is read as a sign is one. -/
theorem exists_isSign (chars : List Char) :
    ∃ sign, chars = sign ++ (readSign chars).2 ∧ IsSign sign (readSign chars).1 := by
  unfold readSign
  split
  · exact ⟨['+'], rfl, .plus⟩
  · exact ⟨['-'], rfl, .minus⟩
  · exact ⟨[], rfl, .absent⟩

/-- A run of digits of any script denotes a number in the decimal system, with its last digit for
the units. -/
theorem ofDigits_eq_ofDigits_ten {digits : List Char}
    (h : ∀ char ∈ digits, Text.isDigit char = true) :
    ofDigits digits = Nat.ofDigits 10 (digits.reverse.filterMap Text.digitValue?) := by
  induction digits using List.reverseRecOn with
  | nil => rfl
  | append_singleton digits last ih =>
    obtain ⟨value, hvalue⟩ := Option.isSome_iff_exists.1 (h last (by simp))
    rw [ofDigits_append_singleton, List.reverse_append, List.reverse_singleton,
      List.singleton_append, List.filterMap_cons_some hvalue, Nat.ofDigits_cons, hvalue,
      Option.getD_some, ih fun char hchar => h char (List.mem_append_left _ hchar), Nat.add_comm]

end Numeral

namespace Fraction

open Numeral (IsSign digitLimit)

/-! ## The format -/

/-- A part of a fraction: blanks, a sign or none, at least one digit, blanks. -/
inductive IsPart : List Char → SignedDigits → Prop where
  | intro {lead sign digits trail : List Char} {negative : Bool}
      (hlead : ∀ char ∈ lead, Text.isBlank char = true) (hsign : IsSign sign negative)
      (hdigits : ∀ char ∈ digits, Text.isDigit char = true) (hne : digits ≠ [])
      (htrail : ∀ char ∈ trail, Text.isBlank char = true) :
      IsPart (lead ++ (sign ++ (digits ++ trail))) ⟨negative, digits⟩

/-- A fraction as it may be written: its numerator, and its denominator if there is a slash. -/
inductive HasFormat : List Char → SignedDigits → Option SignedDigits → Prop where
  | whole {chars : List Char} {num : SignedDigits} (hnum : IsPart chars num) :
      HasFormat chars num none
  | ratio {left right : List Char} {num den : SignedDigits} (hnum : IsPart left num)
      (hden : IsPart right den) : HasFormat (left ++ '/' :: right) num (some den)

namespace SignedDigits

/-- The integer that a sign and decimal digits denote. -/
def denoted (numeral : SignedDigits) : Int :=
  (if numeral.negative then -1 else 1) *
    (Nat.ofDigits 10 (numeral.digits.reverse.filterMap Text.digitValue?) : Nat)

/-- The digits keep to the digit limit. -/
def IsShort (numeral : SignedDigits) : Prop :=
  numeral.digits.length ≤ digitLimit

instance (numeral : SignedDigits) : Decidable numeral.IsShort :=
  inferInstanceAs (Decidable (_ ≤ _))

end SignedDigits

/-- The integer below the slash, which is one if there is no slash. -/
def below (den : Option SignedDigits) : Int :=
  den.elim 1 SignedDigits.denoted

/-- A text is of the format, keeps to the digit limit, and has these integers above and below the
slash. -/
inductive IsWritten (text : String) : Int → Int → Prop where
  | intro {num : SignedDigits} {den : Option SignedDigits} (hformat : HasFormat text.toList num den)
      (hshort : ∀ numeral ∈ num :: den.toList, numeral.IsShort) :
      IsWritten text num.denoted (below den)

variable {chars rest lead trail : List Char} {text : String}
  {numeral num : SignedDigits} {den : Option SignedDigits}

/-- Blanks in front of a part and behind it belong to it. -/
theorem IsPart.pad (h : IsPart chars numeral) (hlead : ∀ char ∈ lead, Text.isBlank char = true)
    (htrail : ∀ char ∈ trail, Text.isBlank char = true) :
    IsPart (lead ++ (chars ++ trail)) numeral := by
  obtain @⟨before, sign, digits, behind, negative, hbefore, hsign, hdigits, hne, hbehind⟩ := h
  have hpart := IsPart.intro (List.forall_mem_append.2 ⟨hlead, hbefore⟩) hsign hdigits hne
    (List.forall_mem_append.2 ⟨hbehind, htrail⟩)
  simpa only [List.append_assoc] using hpart

/-- Blanks at both ends change nothing. -/
theorem HasFormat.pad (h : HasFormat chars num den)
    (hlead : ∀ char ∈ lead, Text.isBlank char = true)
    (htrail : ∀ char ∈ trail, Text.isBlank char = true) :
    HasFormat (lead ++ (chars ++ trail)) num den := by
  have hempty : ∀ char ∈ ([] : List Char), Text.isBlank char = true := nofun
  cases h with
  | whole hnum => exact .whole (hnum.pad hlead htrail)
  | ratio hnum hden =>
    have hpadded := HasFormat.ratio (hnum.pad hlead hempty) (hden.pad hempty htrail)
    simpa only [List.append_nil, List.nil_append, List.append_assoc, List.cons_append] using hpadded

/-! ## Splitting a text -/

/-- What ends a part: something that starts neither with a digit nor with a blank. -/
def EndsPart (rest : List Char) : Prop :=
  ∀ char ∈ rest.head?, Text.isDigit char = false ∧ Text.isBlank char = false

/-- The end of the text ends a part. -/
theorem endsPart_nil : EndsPart [] := nofun

/-- A slash ends a part. -/
theorem endsPart_slash (rest : List Char) : EndsPart ('/' :: rest) := by
  rintro _ ⟨⟩
  decide

/-- A part is split off whole in front of what ends it. -/
theorem IsPart.splitPart_append (h : IsPart chars numeral) (hrest : EndsPart rest) :
    splitPart (chars ++ rest) = some (numeral, rest) := by
  obtain @⟨lead, sign, digits, trail, negative, hlead, hsign, hdigits, hne, htrail⟩ := h
  obtain ⟨first, more, hcons⟩ := List.exists_cons_of_ne_nil hne
  have hfirst : Text.isDigit first = true := hdigits first (hcons ▸ List.mem_cons_self)
  have hhead : first ∈ (digits ++ (trail ++ rest)).head? := by simp [hcons]
  -- the sign or the first digit ends the blanks in front, and the digits end at a blank or at what
  -- ends the part
  have hskip : Text.skipBlanks (lead ++ (sign ++ (digits ++ (trail ++ rest)))) =
      sign ++ (digits ++ (trail ++ rest)) := by
    refine Text.skipBlanks_append hlead fun char hchar => ?_
    cases hsign with
    | absent =>
      obtain rfl := Option.mem_unique hhead hchar
      exact Text.isBlank_eq_false_of_isDigit hfirst
    | plus | minus =>
      cases hchar
      decide
  have hstop : ∀ char ∈ (trail ++ rest).head?, Text.isDigit char = false := by
    cases trail with
    | nil => exact fun char hchar => (hrest char hchar).1
    | cons blank blanks =>
      rintro _ ⟨⟩
      exact Text.isDigit_eq_false_of_isBlank (htrail blank List.mem_cons_self)
  have htail : Text.skipBlanks (trail ++ rest) = rest :=
    Text.skipBlanks_append htrail fun char hchar => (hrest char hchar).2
  simp only [splitPart, List.append_assoc, hskip, hsign.readSign_append ⟨first, hhead, hfirst⟩,
    Token.takeWhile_append_of_stop hdigits hstop, Token.dropWhile_append_of_stop hdigits hstop,
    htail, List.isEmpty_iff, hne, if_false]

/-- Whatever is split off is a part. -/
theorem exists_isPart_of_splitPart (h : splitPart chars = some (numeral, rest)) :
    ∃ part, chars = part ++ rest ∧ IsPart part numeral := by
  obtain ⟨sign, hsplit, hsign⟩ := Numeral.exists_isSign (Text.skipBlanks chars)
  simp only [splitPart] at h
  generalize (Numeral.readSign (Text.skipBlanks chars)).1 = negative at h hsign
  generalize (Numeral.readSign (Text.skipBlanks chars)).2 = unsigned at h hsplit
  split at h
  · cases h
  · rename_i hne
    cases h
    have hpart : IsPart (chars.takeWhile Text.isBlank ++ (sign ++
        (unsigned.takeWhile Text.isDigit ++
          (unsigned.dropWhile Text.isDigit).takeWhile Text.isBlank)))
        ⟨negative, unsigned.takeWhile Text.isDigit⟩ :=
      .intro (fun _ hchar => List.mem_takeWhile_imp hchar) hsign
        (fun _ hchar => List.mem_takeWhile_imp hchar) (by simpa using hne)
        (fun _ hchar => List.mem_takeWhile_imp hchar)
    refine ⟨_, ?_, hpart⟩
    calc chars
      _ = chars.takeWhile Text.isBlank ++ Text.skipBlanks chars :=
        List.takeWhile_append_dropWhile.symm
      _ = chars.takeWhile Text.isBlank ++ (sign ++ unsigned) := by rw [← hsplit]
      _ = _ := by simp only [List.append_assoc, Text.skipBlanks, List.takeWhile_append_dropWhile]

/-- A text is split into the parts of the format, and is not split if it is not of the format. -/
theorem splitParts_eq_some_iff : splitParts chars = some (num, den) ↔ HasFormat chars num den := by
  constructor
  · intro h
    unfold splitParts at h
    split at h
    · rename_i hpart
      cases h
      obtain ⟨part, rfl, hnum⟩ := exists_isPart_of_splitPart hpart
      rw [List.append_nil]
      exact .whole hnum
    · rename_i hpart
      split at h
      · rename_i hpart'
        cases h
        obtain ⟨left, rfl, hnum⟩ := exists_isPart_of_splitPart hpart
        obtain ⟨right, rfl, hden⟩ := exists_isPart_of_splitPart hpart'
        rw [List.append_nil]
        exact .ratio hnum hden
      · cases h
    · cases h
  · intro h
    cases h with
    | whole hnum =>
      have hsplit := hnum.splitPart_append endsPart_nil
      rw [List.append_nil] at hsplit
      simp only [splitParts, hsplit]
    | ratio hnum hden =>
      have hsplit := hden.splitPart_append endsPart_nil
      rw [List.append_nil] at hsplit
      simp only [splitParts, hnum.splitPart_append (endsPart_slash _), hsplit]

/-! ## The integers that are read -/

/-- The digits of a part are digits. -/
theorem IsPart.isDigit_of_mem (h : IsPart chars numeral) :
    ∀ char ∈ numeral.digits, Text.isDigit char = true := by
  cases h with
  | intro _ _ hdigits => exact hdigits

/-- The digits of both parts are decimal digits. -/
theorem HasFormat.isDigit_of_mem (h : HasFormat chars num den) :
    ∀ numeral ∈ num :: den.toList, ∀ char ∈ numeral.digits, Text.isDigit char = true := by
  cases h with
  | whole hnum => simpa using hnum.isDigit_of_mem
  | ratio hnum hden => simpa using ⟨hnum.isDigit_of_mem, hden.isDigit_of_mem⟩

namespace SignedDigits

/-- A sign and digits denote the number of the digits with the sign. -/
theorem denoted_eq (h : ∀ char ∈ numeral.digits, Text.isDigit char = true) :
    numeral.denoted = Numeral.applySign numeral.negative (Numeral.ofDigits numeral.digits) := by
  rw [denoted, Numeral.ofDigits_eq_ofDigits_ten h, Numeral.applySign]
  cases numeral.negative <;> simp

/-- A part within the limit is read as what it denotes. -/
theorem value_of_isShort (h : ∀ char ∈ numeral.digits, Text.isDigit char = true)
    (hshort : numeral.IsShort) : numeral.value = .ok numeral.denoted := by
  rw [value, Numeral.readDigits, denoted_eq h]
  simp only [show numeral.digits.length ≤ digitLimit from hshort, if_true]
  rfl

/-- A part beyond the limit is refused with the number of its digits. -/
theorem value_of_not_isShort (hlong : ¬ numeral.IsShort) :
    numeral.value = .error (.fault (.tooLongToRead numeral.digits.length)) := by
  simp only [value, Numeral.readDigits, show ¬ numeral.digits.length ≤ digitLimit from hlong,
    if_false]
  rfl

/-- Digits within the limit denote a number within the limit. -/
theorem fits_denoted (h : ∀ char ∈ numeral.digits, Text.isDigit char = true)
    (hshort : numeral.IsShort) : Numeral.fits numeral.denoted = true := by
  have habs : numeral.denoted.natAbs = Numeral.ofDigits numeral.digits := by
    rw [denoted_eq h, Numeral.applySign]
    cases numeral.negative <;> simp
  have hfits : Numeral.fits (Numeral.ofDigits numeral.digits) = true :=
    Numeral.fits_of_length_le hshort
  rw [Numeral.fits, Int.natAbs_natCast] at hfits
  rw [Numeral.fits, habs]
  exact hfits

end SignedDigits

/-! ## What comes of a text -/

/-- A text that is not of the format is refused. -/
theorem parse_of_no_format (h : ∀ num den, ¬ HasFormat text.toList num den) :
    parse text = .error (.fault (.notFraction text)) := by
  have hnone : splitParts text.toList = none := by
    refine Option.eq_none_iff_forall_ne_some.2 fun ⟨num, den⟩ hsplit => ?_
    exact h num den (splitParts_eq_some_iff.1 hsplit)
  rw [parse, hnone]

/-- Of two runs of digits beyond the limit, the one in the numerator is refused. -/
theorem parse_of_long (h : HasFormat text.toList num den) {long : SignedDigits}
    (hlong : (num :: den.toList).find? (fun numeral => ¬ numeral.IsShort) = some long) :
    parse text = .error (.fault (.tooLongToRead long.digits.length)) := by
  rw [parse, splitParts_eq_some_iff.2 h]
  by_cases hnum : num.IsShort
  · rw [List.find?_cons_of_neg (by simpa using hnum)] at hlong
    cases den with
    | none => cases hlong
    | some den =>
      have hvalue := SignedDigits.value_of_isShort (h.isDigit_of_mem num List.mem_cons_self) hnum
      obtain ⟨hden, rfl⟩ : ¬ den.IsShort ∧ den = long := by simpa using hlong
      simp only [hvalue, SignedDigits.value_of_not_isShort hden]
      rfl
  · rw [List.find?_cons_of_pos (by simpa using hnum)] at hlong
    cases hlong
    cases den with
    | none =>
      simp only [SignedDigits.value_of_not_isShort hnum]
      rfl
    | some den =>
      simp only [SignedDigits.value_of_not_isShort hnum]
      rfl

/-- A text of the format within the limit is read as its numerator over its denominator. -/
theorem parse_of_isShort (h : HasFormat text.toList num den)
    (hshort : ∀ numeral ∈ num :: den.toList, numeral.IsShort) :
    parse text = make num.denoted (below den) := by
  have hvalue : ∀ numeral ∈ num :: den.toList, numeral.value = .ok numeral.denoted :=
    fun numeral hmem => SignedDigits.value_of_isShort (h.isDigit_of_mem numeral hmem)
      (hshort numeral hmem)
  have hnum := hvalue num List.mem_cons_self
  rw [parse, splitParts_eq_some_iff.2 h]
  cases den with
  | none =>
    simp only [hnum]
    simp [below, make, ofInt, Except.map]
  | some den =>
    have hden := hvalue den (by simp)
    simp only [hnum, hden]
    rfl

/-- Two integers of which the one below is zero are reported. -/
theorem make_below_zero (h : HasFormat text.toList num den)
    (hshort : ∀ numeral ∈ num :: den.toList, numeral.IsShort) (hzero : below den = 0) :
    make num.denoted (below den) = .error (.report ⟨.zeroDenominator num.denoted, none⟩) := by
  have hfits := SignedDigits.fits_denoted (h.isDigit_of_mem num List.mem_cons_self)
    (hshort num List.mem_cons_self)
  rw [make, dif_pos hzero, Failure.because_of_fits (by simp [Cause.numbers, hfits])]

/-- What comes of a text: it is not of the format, or it has a run of digits beyond the limit, or
it is written within the limit, over zero or over some other denominator. -/
inductive ParsesTo (text : String) : Except Failure Fraction → Prop where
  | malformed (hformat : ∀ num den, ¬ HasFormat text.toList num den) :
      ParsesTo text (.error (.fault (.notFraction text)))
  | long {num : SignedDigits} {den : Option SignedDigits} {long : SignedDigits}
      (hformat : HasFormat text.toList num den)
      (hlong : (num :: den.toList).find? (fun numeral => ¬ numeral.IsShort) = some long) :
      ParsesTo text (.error (.fault (.tooLongToRead long.digits.length)))
  | overZero {num : Int} (hwritten : IsWritten text num 0) :
      ParsesTo text (.error (.report ⟨.zeroDenominator num, none⟩))
  | fraction {num den : Int} {a : Fraction} (hwritten : IsWritten text num den) (hne : den ≠ 0)
      (hnum : a.num = den.sign * num) (hden : a.den = den.natAbs) : ParsesTo text (.ok a)

/-- A text is parsed as its parts say. -/
theorem parse_cases (text : String) : ParsesTo text (parse text) := by
  by_cases hformat : ∃ num den, HasFormat text.toList num den
  swap
  · have hnone : ∀ num den, ¬ HasFormat text.toList num den := fun num den h =>
      hformat ⟨num, den, h⟩
    rw [parse_of_no_format hnone]
    exact .malformed hnone
  obtain ⟨num, den, h⟩ := hformat
  cases hlong : (num :: den.toList).find? (fun numeral => ¬ numeral.IsShort) with
  | some long =>
    rw [parse_of_long h hlong]
    exact .long h hlong
  | none =>
    have hshort : ∀ numeral ∈ num :: den.toList, numeral.IsShort := by
      simpa using List.find?_eq_none.1 hlong
    have hwritten : IsWritten text num.denoted (below den) := .intro h hshort
    rw [parse_of_isShort h hshort]
    by_cases hzero : below den = 0
    · rw [make_below_zero h hshort hzero]
      rw [hzero] at hwritten
      exact .overZero hwritten
    · cases hmake : make num.denoted (below den) with
      | error failure => simp [make, hzero] at hmake
      | ok a =>
        obtain ⟨hne, hnum, hden⟩ := make_eq_ok_iff.1 hmake
        exact .fraction hwritten hne hnum hden

/-! ## The three endings -/

/-- A text written within the limit is read as its terms. -/
theorem IsWritten.parse_eq {top bottom : Int} (h : IsWritten text top bottom) :
    parse text = make top bottom := by
  cases h with
  | intro hformat hshort => exact parse_of_isShort hformat hshort

/-- A text with a denominator that is zero is refused for that. -/
theorem IsWritten.parse_over_zero {top : Int} (h : IsWritten text top 0) :
    parse text = .error (.report ⟨.zeroDenominator top, none⟩) := by
  generalize hbottom : (0 : Int) = bottom at h
  cases h with
  | intro hformat hshort =>
    rw [parse_of_isShort hformat hshort, make_below_zero hformat hshort hbottom.symm]

/-- A text is read as a fraction if and only if it is written within the limit over something other
than zero. The terms are those of the text, with the sign above. -/
theorem parse_eq_ok_iff {a : Fraction} :
    parse text = .ok a ↔
      ∃ top bottom, IsWritten text top bottom ∧ bottom ≠ 0 ∧
        a.num = bottom.sign * top ∧ a.den = bottom.natAbs := by
  constructor
  · intro h
    have hcases := parse_cases text
    rw [h] at hcases
    cases hcases with
    | fraction hwritten hne hnum hden => exact ⟨_, _, hwritten, hne, hnum, hden⟩
  · rintro ⟨top, bottom, hwritten, hterms⟩
    rw [hwritten.parse_eq]
    exact make_eq_ok_iff.2 hterms

/-- A zero denominator is reported if and only if the text is written within the limit over
zero. -/
theorem parse_zeroDivision_iff :
    (∃ failure, parse text = .error failure ∧ failure.ReportOf [.zeroDivision]) ↔
      ∃ top, IsWritten text top 0 := by
  constructor
  · rintro ⟨failure, h, hclass⟩
    have hcases := parse_cases text
    rw [h] at hcases
    cases hcases with
    | malformed | long => cases hclass
    | overZero hwritten => exact ⟨_, hwritten⟩
  · rintro ⟨top, hwritten⟩
    exact ⟨_, hwritten.parse_over_zero, List.mem_singleton.2 rfl⟩

/-- All other texts end in one of two faults: they are not of the format, or they have a run of
digits beyond the limit. -/
theorem parse_fault_iff :
    parse text = .error (.fault (.notFraction text)) ∨
        (∃ digits, digitLimit < digits ∧ parse text = .error (.fault (.tooLongToRead digits))) ↔
      ∀ top bottom, ¬ IsWritten text top bottom := by
  constructor
  · intro h top bottom hwritten
    by_cases hzero : bottom = 0
    · subst hzero
      simp [hwritten.parse_over_zero] at h
    · simp [hwritten.parse_eq, make, hzero] at h
  · intro hnone
    generalize hparse : parse text = result
    have hcases := hparse ▸ parse_cases text
    cases hcases with
    | malformed => exact .inl rfl
    | @long num den long hformat hlong =>
      exact .inr ⟨_, by simpa [SignedDigits.IsShort] using List.find?_some hlong, rfl⟩
    | overZero hwritten => exact absurd hwritten (hnone _ _)
    | fraction hwritten => exact absurd hwritten (hnone _ _)

end Fraction

end MatrixCalc
