import MatrixCalc.Proofs.Evaluation.Requests

/-!
# What a source line writes

A line that is not parsed writes nothing. Otherwise the line overwrites the slots of the requests
that stand in it and are answered, and if it succeeds also its target and the slot of the last
result (`Expr.evaluateLine_writes`).
-/

namespace MatrixCalc

variable {σ : Type}

/-- Some text stands in a line as one of its tokens. -/
def Token.Occurs (text source : String) : Prop :=
  ∃ tokens, Token.ofSource source = .ok tokens ∧ ∃ token ∈ tokens, token.text = text

instance (text source : String) : Decidable (Token.Occurs text source) :=
  match h : Token.ofSource source with
  | .ok tokens =>
      decidable_of_iff (∃ token ∈ tokens, token.text = text) (by simp [Token.Occurs, h])
  | .error _ => .isFalse (by simp [Token.Occurs, h])

/-! ## Words of the line -/

/-- The words of a parsed line stand in it, apart from the way in which numbers are written. -/
theorem Expr.occurs_of_mem_words {source : String} {expr : Expr} {word : Word}
    (hparse : Expr.parse source = .ok expr) (hword : word ∈ expr.words)
    (hkind : word.kind ≠ .number) : Token.Occurs word.text source := by
  cases hscan : Token.scan 0 source.toList with
  | error failure =>
    rw [Expr.parse, Token.ofSource, hscan] at hparse
    cases hparse
  | ok tokens =>
    obtain ⟨body, rfl, hbody⟩ := Token.scan_ok hscan
    have hline := (Expr.parse_eq_ok_iff hscan (fun token htoken => (hbody token htoken).2)
      rfl).1 hparse
    have hreading := (line_reads (fun token htoken => (hbody token htoken).1) hline).2
    rw [← hreading] at hword
    obtain ⟨token, htoken, rfl⟩ := List.mem_map.1 hword
    rw [Token.reading_kind] at hkind
    refine ⟨_, by rw [Token.ofSource, hscan], token, List.mem_append_left _ htoken, ?_⟩
    rw [Token.reading_of_ne_number hkind]
    rfl

open Evaluation (Exchanged final)

/-- The requests among some words are some of them. -/
theorem Word.requests_subset (words : List Word) : requests words ⊆ words :=
  List.filter_subset_self words

/-- The word of an exchange is a request. -/
theorem Exchange.kind_word_ne (exchange : Exchange) : exchange.word.kind ≠ .number := by
  cases exchange <;> nofun

/-- A line asks for nothing that does not stand in it. -/
theorem Expr.occurs_of_asked {definer : Definer σ} {source : String} {expr : Expr}
    {before : Progress σ} {asked : List Exchange} (hparse : Expr.parse source = .ok expr)
    (hasked : Exchanged before (final (expr.evaluate definer before)) asked)
    {exchange : Exchange} (hmem : exchange ∈ asked) :
    Token.Occurs exchange.word.text source := by
  have hfollows := (wellFormed_of_parse hparse).evaluate_follows definer before
  have hwords : asked.map Exchange.word ⊆ expr.words := by
    cases hresult : expr.evaluate definer before with
    | ok outcome after =>
      rw [hresult] at hfollows hasked
      obtain ⟨made, hmade, -, hrequests, -⟩ := hfollows
      rw [List.append_cancel_left (hasked.symm.trans hmade), hrequests]
      exact Word.requests_subset expr.words
    | error failure after =>
      rw [hresult] at hfollows hasked
      obtain ⟨made, hmade, hearlier, -⟩ := hfollows
      rw [List.append_cancel_left (hasked.symm.trans hmade)]
      exact fun word hword =>
        List.takeWhile_subset _ (Word.requests_subset _ (hearlier.subset hword))
  exact occurs_of_mem_words hparse (hwords (List.mem_map_of_mem hmem)) exchange.kind_word_ne

/-! ## Slots after a line -/

namespace Slots.Overwritten

variable {before after : Slots} {writes : List (Slot × Value)}

/-- A slot that is not among the writes keeps its value. -/
theorem overwrite_of_ne (contents : Slot → Value) {slot : Slot}
    (hne : ∀ write ∈ writes, write.1 ≠ slot) : overwrite contents writes slot = contents slot := by
  refine List.foldlRecOn (motive := fun changed : Slot → Value => changed slot = contents slot)
    writes _ rfl fun changed hchanged write hwrite => ?_
  rw [Function.update_of_ne (hne write hwrite).symm, hchanged]

/-- A slot that is not written keeps its value. -/
theorem get_of_ne (h : Overwritten before writes after) {slot : Slot}
    (hne : ∀ write ∈ writes, write.1 ≠ slot) : after.get slot = before.get slot := by
  rw [h.contents, overwrite_of_ne before.get hne]

/-- A slot has the value that was written to it last. -/
theorem get_of_last {later : List (Slot × Value)} {slot : Slot} {value : Value}
    (h : Overwritten before (writes ++ (slot, value) :: later) after)
    (hne : ∀ write ∈ later, write.1 ≠ slot) : after.get slot = value.stored := by
  rw [h.contents, overwrite, List.foldl_append, List.foldl_cons]
  exact (overwrite_of_ne _ hne).trans (Function.update_self ..)

end Slots.Overwritten

/-- A slot holds a value of its kind. -/
theorem Slots.kind_get (slots : Slots) (slot : Slot) : (slots.get slot).kind = slot.kind := by
  cases slot <;> rfl

/-- A value is stored as one of its kind. -/
@[simp] theorem Value.kind_stored (value : Value) : value.stored.kind = value.kind := by
  cases value <;> rfl

/-- The slot of the last result of a kind is of this kind. -/
@[simp] theorem Slot.kind_last (kind : Kind) : (Slot.last kind).kind = kind := by
  cases kind <;> rfl

/-- The values that were given for named requests of a line, as they are written. -/
structure DefinedIn (source : String) (asked : List Exchange) (writes : List (Slot × Value)) :
    Prop where
  defined : DefinedBy asked writes
  occurs : ∀ write ∈ writes, Token.Occurs ("$" ++ write.1.name) source

/-- Without exchanges and writes there is nothing to define. -/
theorem DefinedIn.nil (source : String) : DefinedIn source [] [] :=
  ⟨rfl, nofun⟩

/-- What is defined by exchanges whose words stand in a line is defined in the line. -/
theorem DefinedBy.definedIn {source : String} {asked : List Exchange}
    {writes : List (Slot × Value)} (h : DefinedBy asked writes)
    (hasked : ∀ exchange ∈ asked, Token.Occurs exchange.word.text source) :
    DefinedIn source asked writes := by
  refine ⟨h, fun write hwrite => ?_⟩
  have hmem : (write.1.name, write.2) ∈ asked.filterMap Exchange.definition? := by
    rw [h]
    exact List.mem_map_of_mem hwrite
  obtain ⟨exchange, hexchange, hdefinition⟩ := List.mem_filterMap.1 hmem
  have hword : exchange.word.text = "$" ++ write.1.name := by
    cases exchange with
    | matrix name answer | scalar name answer =>
      cases answer with
      | none => cases hdefinition
      | some value =>
        rw [← (Prod.mk.inj (Option.some.inj hdefinition)).1]
        rfl
    | anonymous answer => cases hdefinition
  rw [← hword]
  exact hasked exchange hexchange

namespace Expr

/-- A line that fails has overwritten slots by the answers to its named requests and by nothing
else. A line that succeeds has then overwritten its target, if it has one, and the slot of the
last result. -/
theorem evaluateLine_writes (definer : Definer σ) (source : String) (before : Progress σ) :
    match evaluateLine definer source before with
    | .ok outcome after => ∃ asked writes, ∃ named : Option Slot, Exchanged before after asked ∧
        DefinedIn source asked writes ∧
        Slots.Overwritten before.slots
          (writes ++ (named.toList.map fun slot => (slot, outcome.value)) ++
            [(Slot.last outcome.value.kind, outcome.value)]) after.slots
    | .error _ after => ∃ asked writes, Exchanged before after asked ∧
        DefinedIn source asked writes ∧ Slots.Overwritten before.slots writes after.slots := by
  rw [evaluateLine_eq]
  cases hparse : parse source with
  | error failure => exact ⟨[], [], .refl before, .nil source, .nil before.slots⟩
  | ok expr =>
    dsimp only
    have hoccurs : ∀ asked, Exchanged before (final (expr.evaluate definer before)) asked →
        ∀ exchange ∈ asked, Token.Occurs exchange.word.text source :=
      fun _ hasked _ => occurs_of_asked hparse hasked
    have hstore := (wellFormed_of_parse hparse).evaluate_store definer before
    cases hresult : expr.evaluate definer before with
    | ok outcome after =>
      rw [hresult] at hoccurs hstore
      obtain ⟨asked, writes, named, hasked, hwrites, -, -, hslots⟩ := hstore
      exact ⟨asked, writes, named, hasked, hwrites.definedIn (hoccurs asked hasked), hslots⟩
    | error failure after =>
      rw [hresult] at hoccurs hstore
      obtain ⟨asked, writes, hasked, hwrites, hslots⟩ := hstore
      exact ⟨asked, writes, hasked, hwrites.definedIn (hoccurs asked hasked), hslots⟩

/-- The default size of matrices is never changed. -/
theorem evaluateLine_keeps_size (definer : Definer σ) (source : String) (before : Progress σ) :
    (final (evaluateLine definer source before)).slots.defaultRows = before.slots.defaultRows ∧
      (final (evaluateLine definer source before)).slots.defaultCols =
        before.slots.defaultCols := by
  have hwrites := evaluateLine_writes definer source before
  cases hresult : evaluateLine definer source before with
  | ok outcome after =>
    rw [hresult] at hwrites
    obtain ⟨asked, writes, named, -, -, hslots⟩ := hwrites
    exact ⟨hslots.rows, hslots.cols⟩
  | error failure after =>
    rw [hresult] at hwrites
    obtain ⟨asked, writes, -, -, hslots⟩ := hwrites
    exact ⟨hslots.rows, hslots.cols⟩

/-- The last result of a kind changes only by a line that has a value of this kind, or in which
its variable is defined. -/
theorem evaluateLine_last (definer : Definer σ) {source : String} {kind : Kind}
    (hsource : ¬ Token.Occurs ("$" ++ (Slot.last kind).name) source) (before : Progress σ) :
    match evaluateLine definer source before with
    | .ok outcome after => after.slots.get (Slot.last kind) =
        if outcome.value.kind = kind then outcome.value.stored
        else before.slots.get (Slot.last kind)
    | .error _ after => after.slots.get (Slot.last kind) = before.slots.get (Slot.last kind) := by
  have hwrites := evaluateLine_writes definer source before
  have hne : ∀ {asked writes}, DefinedIn source asked writes →
      ∀ write ∈ writes, write.1 ≠ Slot.last kind := by
    intro asked writes hdefined write hwrite hslot
    exact hsource (hslot ▸ hdefined.occurs write hwrite)
  cases hresult : evaluateLine definer source before with
  | error failure after =>
    rw [hresult] at hwrites
    obtain ⟨asked, writes, -, hdefined, hslots⟩ := hwrites
    exact hslots.get_of_ne (hne hdefined)
  | ok outcome after =>
    rw [hresult] at hwrites
    obtain ⟨asked, writes, named, -, hdefined, hslots⟩ := hwrites
    dsimp only
    split
    · next hkind =>
      subst hkind
      exact hslots.get_of_last nofun
    · next hkind =>
      have hlast : Slot.last outcome.value.kind ≠ Slot.last kind := by
        intro hsame
        rw [← Slot.kind_last outcome.value.kind, hsame, Slot.kind_last] at hkind
        exact hkind rfl
      cases named with
      | none =>
        rw [Option.toList_none, List.map_nil, List.append_nil] at hslots
        exact hslots.get_of_ne (List.forall_mem_append.2
          ⟨hne hdefined, List.forall_mem_singleton.2 hlast⟩)
      | some target =>
        rw [List.append_assoc] at hslots
        have htarget : target ≠ Slot.last kind := by
          rintro rfl
          -- the target has taken the value, so that it is of its kind
          have hget := hslots.get_of_last (List.forall_mem_singleton.2 hlast)
          have hslot := after.slots.kind_get (Slot.last kind)
          rw [hget, Value.kind_stored, Slot.kind_last] at hslot
          exact hkind hslot
        exact hslots.get_of_ne (List.forall_mem_append.2 ⟨hne hdefined,
          List.forall_mem_cons.2 ⟨htarget, List.forall_mem_singleton.2 hlast⟩⟩)

end Expr

end MatrixCalc
