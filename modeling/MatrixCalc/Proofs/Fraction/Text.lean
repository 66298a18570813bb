import MatrixCalc.Proofs.Fraction.Format

/-!
# Reading a fraction back from its text

A fraction whose numbers keep to the digit limit is read back from its text in the terms in which
it is stored (`parse_text`), which is one half of what reading does with any text (`parse_exact`).
The text is one word of digits, a minus sign and a slash (`isTextChar_of_mem_text`), so that no
blank cuts it.
-/

namespace MatrixCalc

open Token (isNumeral)

namespace Numeral

/-- The text of an integer is an optional minus sign and the digits of its absolute value. -/
theorem toList_toText (value : Int) :
    (toText value).toList =
      (if value < 0 then ['-'] else []) ++ value.natAbs.repr.toList := by
  unfold toText
  split
  · rw [String.toList_append]
    rfl
  · rfl

/-- An integer is not written as nothing. -/
theorem toText_ne_empty (value : Int) : toText value ≠ "" := by
  intro h
  have hempty : (toText value).toList = [] := by simp [h]
  rw [toList_toText] at hempty
  exact repr_ne_empty value.natAbs (by simpa using (List.append_eq_nil_iff.1 hempty).2)

/-- An integer is its absolute value with its sign. -/
theorem applySign_natAbs (value : Int) : applySign (decide (value < 0)) value.natAbs = value := by
  by_cases h : value < 0
  · simp only [applySign, h, decide_true, if_true]
    omega
  · simp only [applySign, h, decide_false]
    show (value.natAbs : Int) = value
    omega

end Numeral

namespace Fraction

/-! ## The characters of the text -/

/-- A digit, a minus sign or a slash. -/
def IsTextChar (char : Char) : Prop :=
  isNumeral char = true ∨ char = '-' ∨ char = '/'

instance (char : Char) : Decidable (IsTextChar char) :=
  inferInstanceAs (Decidable (_ ∨ _))

/-- The characters of fractions are visible ones of ASCII. -/
theorem IsTextChar.toNat_bounds {char : Char} (h : IsTextChar char) :
    0x21 ≤ char.toNat ∧ char.toNat < 0x7F := by
  rcases h with h | rfl | rfl
  · have := Token.isNumeral_iff.1 h
    omega
  · decide
  · decide

/-- The characters of fractions are not blank. -/
theorem IsTextChar.isBlank_eq_false {char : Char} (h : IsTextChar char) :
    Text.isBlank char = false :=
  Text.isBlank_eq_false h.toNat_bounds.1 h.toNat_bounds.2

/-- An integer is written with the characters of fractions. -/
theorem isTextChar_of_mem_toText {value : Int} {char : Char}
    (h : char ∈ (Numeral.toText value).toList) : IsTextChar char := by
  rw [Numeral.toList_toText, List.mem_append] at h
  rcases h with hsign | hdigit
  · split at hsign
    · exact .inr (.inl (List.mem_singleton.1 hsign))
    · cases hsign
  · exact .inl (Numeral.isNumeral_of_mem_repr hdigit)

/-- A fraction is written with the characters of fractions. -/
theorem isTextChar_of_mem_text {a : Fraction} {char : Char} (h : char ∈ a.text.toList) :
    IsTextChar char := by
  unfold text at h
  split at h
  · exact isTextChar_of_mem_toText h
  · simp only [String.toList_append, List.mem_append] at h
    rcases h with (hnum | hslash) | hden
    · exact isTextChar_of_mem_toText hnum
    · exact .inr (.inr (List.mem_singleton.1 hslash))
    · exact isTextChar_of_mem_toText hden

/-- A fraction is not written as nothing. -/
theorem text_ne_empty (a : Fraction) : a.text ≠ "" := by
  unfold text
  split
  · exact Numeral.toText_ne_empty a.num
  · simp

/-! ## Reading the text -/

/-- The sign and the digits of an integer. -/
def SignedDigits.ofInt (value : Int) : SignedDigits :=
  ⟨decide (value < 0), value.natAbs.repr.toList⟩

/-- An integer is written as one part. -/
theorem isPart_toText (value : Int) :
    IsPart (Numeral.toText value).toList (SignedDigits.ofInt value) := by
  have hsign : Numeral.IsSign (if value < 0 then ['-'] else []) (decide (value < 0)) := by
    by_cases h : value < 0
    · simpa only [h, if_true, decide_true] using Numeral.IsSign.minus
    · simpa only [h, if_false, decide_false] using Numeral.IsSign.absent
  have hdigits : ∀ char ∈ value.natAbs.repr.toList, Text.isDigit char = true :=
    fun char hchar => Text.isDigit_of_isNumeral (Numeral.isNumeral_of_mem_repr hchar)
  have hempty : ∀ char ∈ ([] : List Char), Text.isBlank char = true := nofun
  have hpart := IsPart.intro hempty hsign hdigits (by simp) hempty
  rwa [List.nil_append, List.append_nil, ← Numeral.toList_toText] at hpart

/-- The sign and the digits of an integer denote it. -/
theorem SignedDigits.denoted_ofInt (value : Int) : (SignedDigits.ofInt value).denoted = value := by
  have hvalue : Numeral.applySign (decide (value < 0))
      (Numeral.ofDigits value.natAbs.repr.toList) = value := by
    rw [Numeral.ofDigits_repr, Numeral.applySign_natAbs]
  exact (denoted_eq (isPart_toText value).isDigit_of_mem).trans hvalue

/-- An integer within the limit has no more digits than the limit. -/
theorem SignedDigits.isShort_ofInt {value : Int} (h : Numeral.fits value = true) :
    (SignedDigits.ofInt value).IsShort := by
  have hfits : Numeral.fits value.natAbs = true := by
    rw [Numeral.fits, Int.natAbs_natCast]
    exact h
  exact Numeral.length_repr_le hfits

/-- The parts of the text of a fraction are its numerator and, unless it is one, its
denominator. -/
theorem hasFormat_text (a : Fraction) :
    HasFormat a.text.toList (.ofInt a.num) (if a.den = 1 then none else some (.ofInt a.den)) := by
  by_cases hone : a.den = 1
  · rw [text, if_pos hone, if_pos hone]
    exact .whole (isPart_toText a.num)
  · rw [text, if_neg hone, if_neg hone, String.toList_append, String.toList_append,
      List.append_assoc]
    exact .ratio (isPart_toText a.num) (isPart_toText a.den)

/-- A fraction within the digit limit is written in the terms in which it is stored, whatever
blanks stand around it. -/
theorem isWritten_text {a : Fraction} (h : a.fits = true) {lead trail : String}
    (hlead : ∀ char ∈ lead.toList, Text.isBlank char = true)
    (htrail : ∀ char ∈ trail.toList, Text.isBlank char = true) :
    IsWritten (lead ++ a.text ++ trail) a.num a.den := by
  obtain ⟨hnum, hden⟩ := Bool.and_eq_true_iff.1 h
  have hformat : HasFormat (lead ++ a.text ++ trail).toList (.ofInt a.num)
      (if a.den = 1 then none else some (.ofInt a.den)) := by
    rw [String.toList_append, String.toList_append, List.append_assoc]
    exact a.hasFormat_text.pad hlead htrail
  have hshort : ∀ numeral ∈ SignedDigits.ofInt a.num ::
      (if a.den = 1 then none else some (SignedDigits.ofInt a.den)).toList, numeral.IsShort := by
    refine List.forall_mem_cons.2 ⟨SignedDigits.isShort_ofInt hnum, ?_⟩
    split
    · exact nofun
    · simpa using SignedDigits.isShort_ofInt hden
  have hbelow : below (if a.den = 1 then none else some (SignedDigits.ofInt a.den)) = a.den := by
    by_cases hone : a.den = 1
    · simp [hone, below]
    · simp [hone, below, SignedDigits.denoted_ofInt]
  have hwritten := IsWritten.intro hformat hshort
  rwa [SignedDigits.denoted_ofInt, hbelow] at hwritten

/-- The text of a fraction within the limit is read back as it is stored, also between blanks. -/
theorem parse_padded_text {a : Fraction} (h : a.fits = true) {lead trail : String}
    (hlead : ∀ char ∈ lead.toList, Text.isBlank char = true)
    (htrail : ∀ char ∈ trail.toList, Text.isBlank char = true) :
    parse (lead ++ a.text ++ trail) = .ok a := by
  rw [(isWritten_text h hlead htrail).parse_eq, make_terms]

/-- A fraction within the digit limit is read back from its text as it is stored. -/
theorem parse_text {a : Fraction} (h : a.fits = true) : parse a.text = .ok a := by
  have hempty : ∀ char ∈ "".toList, Text.isBlank char = true := nofun
  simpa using parse_padded_text h hempty hempty

/-- Reading a text gives a fraction if and only if the text is of the format, within the digit
limit, and not over zero, and the fraction has the terms that are written, with the sign above. A
zero denominator is reported, and every other text ends in a fault. A fraction within the limit is
read back from its text as it is stored, also with blanks at both ends. -/
theorem parse_exact (text : String) :
    (∀ a, parse text = .ok a ↔
      ∃ top bottom, IsWritten text top bottom ∧ bottom ≠ 0 ∧
        a.num = bottom.sign * top ∧ a.den = bottom.natAbs) ∧
    ((∃ failure, parse text = .error failure ∧ failure.ReportOf [.zeroDivision]) ↔
      ∃ top, IsWritten text top 0) ∧
    (parse text = .error (.fault (.notFraction text)) ∨
        (∃ digits, Numeral.digitLimit < digits ∧
          parse text = .error (.fault (.tooLongToRead digits))) ↔
      ∀ top bottom, ¬ IsWritten text top bottom) ∧
    ∀ (a : Fraction) (lead trail : String), a.fits = true →
      (∀ char ∈ lead.toList, Text.isBlank char = true) →
      (∀ char ∈ trail.toList, Text.isBlank char = true) →
      a.write = .ok a.text ∧ parse (lead ++ a.text ++ trail) = .ok a :=
  ⟨fun _ => parse_eq_ok_iff, parse_zeroDivision_iff, parse_fault_iff,
    fun _ _ _ hfits hlead htrail => ⟨if_pos hfits, parse_padded_text hfits hlead htrail⟩⟩

/-- Signs on both sides and a zero in front, a zero denominator, a missing denominator, and the
text of the fraction between blanks. -/
theorem parse_exact_signs :
    let a : Fraction := ⟨-6, 4, by decide⟩
    IsWritten " +06/-4" 6 (-4) ∧ parse " +06/-4" = .ok a ∧
      IsWritten "5 / 00" 5 0 ∧
      (∃ failure, parse "5 / 00" = .error failure ∧ failure.ReportOf [.zeroDivision]) ∧
      (∀ top bottom, ¬ IsWritten "6/" top bottom) ∧
      a.fits = true ∧ parse ("\t" ++ a.text ++ " ") = .ok a := by
  intro a
  have hformat : HasFormat " +06/-4".toList ⟨false, ['0', '6']⟩ (some ⟨true, ['4']⟩) :=
    splitParts_eq_some_iff.1 (by decide)
  have hwritten : IsWritten " +06/-4" 6 (-4) := .intro hformat (by decide)
  have hformat' : HasFormat "5 / 00".toList ⟨false, ['5']⟩ (some ⟨false, ['0', '0']⟩) :=
    splitParts_eq_some_iff.1 (by decide)
  have hzero : IsWritten "5 / 00" 5 0 := .intro hformat' (by decide)
  have hfits : a.fits = true := by decide +kernel
  have htab : ∀ char ∈ "\t".toList, Text.isBlank char = true := List.all_eq_true.1 rfl
  have hspace : ∀ char ∈ " ".toList, Text.isBlank char = true := List.all_eq_true.1 rfl
  obtain ⟨hok, -, -, hround⟩ := parse_exact " +06/-4"
  obtain ⟨-, hreport, -, -⟩ := parse_exact "5 / 00"
  obtain ⟨-, -, hfault, -⟩ := parse_exact "6/"
  exact ⟨hwritten, (hok a).2 ⟨6, -4, hwritten, by decide, rfl, rfl⟩, hzero, hreport.2 ⟨5, hzero⟩,
    hfault.1 (.inl rfl), hfits, (hround a "\t" " " hfits htab hspace).2⟩

end Fraction

end MatrixCalc
