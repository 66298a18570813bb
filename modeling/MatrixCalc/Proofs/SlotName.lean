import MatrixCalc.Proofs.Syntax.References
import MatrixCalc.Slots

/-!
# The names of the variables

Each of the 52 variables has a name of its own, and is found by that name alone
(`Slot.find_eq_ok_iff`). A well-formed reference with a name names one of them
(`VarRef.WellFormed.exists_slot`), and without a dollar sign it is `Slot.ref`, the reference to
this variable (`VarRef.WellFormed.exists_ref`).
-/

namespace MatrixCalc

namespace Slot

/-- A slot is found by its letter. -/
theorem ofChar?_char (slot : Slot) : ofChar? slot.char = some slot := by
  cases slot with
  | matrix letter => revert letter; decide
  | scalar letter => revert letter; decide

/-- A letter finds the slot that has it, and no other character finds one. -/
theorem ofChar?_eq_some_iff {char : Char} {slot : Slot} :
    ofChar? char = some slot ↔ slot.char = char := by
  constructor
  · intro h
    unfold ofChar? at h
    split at h
    · next hrange =>
      cases h
      show Char.ofNat ('A'.toNat + (char.toNat - 'A'.toNat)) = char
      rw [Nat.add_sub_cancel' hrange.1, Char.ofNat_toNat]
    · split at h
      · next hrange =>
        cases h
        show Char.ofNat ('a'.toNat + (char.toNat - 'a'.toNat)) = char
        rw [Nat.add_sub_cancel' hrange.1, Char.ofNat_toNat]
      · cases h
  · rintro rfl
    exact ofChar?_char slot

/-- A name finds the slot that has it. -/
theorem ofName?_eq_some_iff {name : String} {slot : Slot} :
    ofName? name = some slot ↔ slot.name = name := by
  constructor
  · intro h
    unfold ofName? at h
    split at h
    · next char hchar =>
      rw [ofChar?_eq_some_iff] at h
      rw [← String.toList_inj, hchar, Slot.name, h, String.toList_singleton]
    · cases h
  · rintro rfl
    rw [ofName?, Slot.name, String.toList_singleton]
    exact ofChar?_char slot

/-- Different slots have different names. -/
theorem name_injective {slot slot' : Slot} (h : slot.name = slot'.name) : slot = slot' :=
  Option.some.inj ((ofName?_eq_some_iff.2 h).symm.trans (ofName?_eq_some_iff.2 rfl))

/-- A lookup by name finds the slot that has it. -/
theorem find_eq_ok_iff {name : String} {slot : Slot} :
    find name = .ok slot ↔ slot.name = name := by
  rw [find, ← ofName?_eq_some_iff]
  cases ofName? name <;> simp

/-- A matrix slot is found by its name. -/
@[simp] theorem findMatrix_name (letter : Letter) :
    findMatrix (Slot.matrix letter).name = .ok letter := by
  rw [findMatrix, find_eq_ok_iff.2 rfl]

/-- A scalar slot is found by its name. -/
@[simp] theorem findScalar_name (letter : Letter) :
    findScalar (Slot.scalar letter).name = .ok letter := by
  rw [findScalar, find_eq_ok_iff.2 rfl]

/-- Upper case letters name matrices. -/
theorem exists_matrix_of_isUpper {char : Char} (h : Token.isUpper char = true) :
    ∃ letter, (Slot.matrix letter).name = String.singleton char := by
  obtain ⟨hlow, hhigh⟩ := Token.isUpper_iff.1 h
  refine ⟨⟨char.toNat - 65, by omega⟩, congrArg String.singleton ?_⟩
  show Char.ofNat (65 + (char.toNat - 65)) = char
  rw [Nat.add_sub_cancel' hlow, Char.ofNat_toNat]

/-- Lower case letters name scalars. -/
theorem exists_scalar_of_isLower {char : Char} (h : Token.isLower char = true) :
    ∃ letter, (Slot.scalar letter).name = String.singleton char := by
  obtain ⟨hlow, hhigh⟩ := Token.isLower_iff.1 h
  refine ⟨⟨char.toNat - 97, by omega⟩, congrArg String.singleton ?_⟩
  show Char.ofNat (97 + (char.toNat - 97)) = char
  rw [Nat.add_sub_cancel' hlow, Char.ofNat_toNat]

/-- A lookup of a matrix finds the matrix slot that has the name. -/
theorem findMatrix_eq_ok_iff {name : String} {letter : Letter} :
    findMatrix name = .ok letter ↔ (Slot.matrix letter).name = name := by
  constructor
  · intro h
    unfold findMatrix at h
    split at h
    · next found hfind =>
      cases h
      exact find_eq_ok_iff.1 hfind
    · cases h
    · cases h
  · rintro rfl
    exact findMatrix_name letter

/-- A lookup of a scalar finds the scalar slot that has the name. -/
theorem findScalar_eq_ok_iff {name : String} {letter : Letter} :
    findScalar name = .ok letter ↔ (Slot.scalar letter).name = name := by
  constructor
  · intro h
    unfold findScalar at h
    split at h
    · next found hfind =>
      cases h
      exact find_eq_ok_iff.1 hfind
    · cases h
    · cases h
  · rintro rfl
    exact findScalar_name letter

/-- The matrix variables are named `A` to `Z`. -/
theorem exists_matrix_name_iff {name : String} :
    (∃ letter, (Slot.matrix letter).name = name) ↔
      ∃ char : Char, 'A' ≤ char ∧ char ≤ 'Z' ∧ name = String.singleton char := by
  constructor
  · rintro ⟨letter, rfl⟩
    have hrange : ∀ letter, 'A' ≤ (Slot.matrix letter).char ∧ (Slot.matrix letter).char ≤ 'Z' := by
      decide
    exact ⟨_, (hrange letter).1, (hrange letter).2, rfl⟩
  · rintro ⟨char, hlow, hhigh, rfl⟩
    exact exists_matrix_of_isUpper (Token.isUpper_iff.2 ⟨hlow, hhigh⟩)

/-- The scalar variables are named `a` to `z`. -/
theorem exists_scalar_name_iff {name : String} :
    (∃ letter, (Slot.scalar letter).name = name) ↔
      ∃ char : Char, 'a' ≤ char ∧ char ≤ 'z' ∧ name = String.singleton char := by
  constructor
  · rintro ⟨letter, rfl⟩
    have hrange : ∀ letter, 'a' ≤ (Slot.scalar letter).char ∧ (Slot.scalar letter).char ≤ 'z' := by
      decide
    exact ⟨_, (hrange letter).1, (hrange letter).2, rfl⟩
  · rintro ⟨char, hlow, hhigh, rfl⟩
    exact exists_scalar_of_isLower (Token.isLower_iff.2 ⟨hlow, hhigh⟩)

/-- The reference to a variable, without a dollar sign. -/
def ref (slot : Slot) : VarRef :=
  ⟨match slot with
    | .matrix _ => .matrix
    | .scalar _ => .scalar, some slot.name⟩

/-- The reference to a slot has its name. -/
@[simp] theorem ref_name (slot : Slot) : slot.ref.name = some slot.name :=
  rfl

/-- The reference to a slot does not define it. -/
@[simp] theorem ref_defines (slot : Slot) : slot.ref.defines = false := by
  cases slot <;> rfl

/-- The reference to a slot is of its kind. -/
theorem ref_valueKind (slot : Slot) : slot.ref.kind.valueKind = slot.kind := by
  cases slot <;> rfl

/-- Different slots have different references. -/
theorem ref_injective {slot slot' : Slot} (h : slot.ref = slot'.ref) : slot = slot' :=
  name_injective (Option.some.inj (congrArg VarRef.name h))

end Slot

/-- A well-formed reference names a variable of its kind, unless it is anonymous. -/
theorem VarRef.WellFormed.exists_slot {ref : VarRef} (hwf : ref.WellFormed)
    (hnamed : ref.kind ≠ .defineAnonymous) :
    ∃ slot : Slot, ref.name = some slot.name ∧ slot.kind = ref.kind.valueKind := by
  obtain ⟨kind, name⟩ := ref
  cases kind with
  | matrix | defineMatrix =>
    obtain ⟨char, rfl, hclass⟩ := hwf
    obtain ⟨letter, hname⟩ := Slot.exists_matrix_of_isUpper hclass
    exact ⟨.matrix letter, congrArg some hname.symm, rfl⟩
  | scalar | defineScalar =>
    obtain ⟨char, rfl, hclass⟩ := hwf
    obtain ⟨letter, hname⟩ := Slot.exists_scalar_of_isLower hclass
    exact ⟨.scalar letter, congrArg some hname.symm, rfl⟩
  | defineAnonymous => exact absurd rfl hnamed

/-- A well-formed reference that asks for nothing is the one to a variable. -/
theorem VarRef.WellFormed.exists_ref {ref : VarRef} (hwf : ref.WellFormed)
    (hreads : ref.defines = false) : ∃ slot : Slot, ref = slot.ref := by
  obtain ⟨kind, name⟩ := ref
  cases kind with
  | matrix =>
    obtain ⟨char, rfl, hclass⟩ := hwf
    obtain ⟨letter, hname⟩ := Slot.exists_matrix_of_isUpper hclass
    exact ⟨.matrix letter, by rw [Slot.ref, hname]⟩
  | scalar =>
    obtain ⟨char, rfl, hclass⟩ := hwf
    obtain ⟨letter, hname⟩ := Slot.exists_scalar_of_isLower hclass
    exact ⟨.scalar letter, by rw [Slot.ref, hname]⟩
  | defineMatrix | defineScalar | defineAnonymous => cases hreads

end MatrixCalc
