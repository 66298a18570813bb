import MatrixCalc.Entry

/-!
# Entering accepted lines

A prompt takes one line from what is typed. Lines that are accepted one after the other are all
taken, and nothing is printed but the prompts (`collect_of_accepts`).
-/

namespace MatrixCalc

/-- The terminal after prompts at each of which one line was taken. -/
def Terminal.prompted (terminal : Terminal) (prompt : String) (count : Nat)
    (rest : List Typed) : Terminal :=
  { terminal with
    typed := rest
    printed := terminal.printed ++ String.join (List.replicate count (Text.layout prompt)) }

/-- Before the first prompt nothing is printed. -/
theorem Terminal.prompted_zero (terminal : Terminal) (prompt : String) :
    terminal.prompted prompt 0 terminal.typed = terminal := by
  simp [prompted]

/-- Prompts after prompts. -/
theorem Terminal.prompted_prompted (terminal : Terminal) (prompt : String) (count more : Nat)
    (rest rest' : List Typed) :
    (terminal.prompted prompt count rest).prompted prompt more rest' =
      terminal.prompted prompt (count + more) rest' := by
  have hjoin : String.join (List.replicate (count + more) (Text.layout prompt)) =
      String.join (List.replicate count (Text.layout prompt)) ++
        String.join (List.replicate more (Text.layout prompt)) := by
    rw [← List.replicate_append_replicate, String.join_append]
  simp only [prompted, hjoin, String.append_assoc]

/-- A line is taken at a prompt. -/
theorem Terminal.ask_line {terminal : Terminal} {line : String} {rest : List Typed}
    (h : terminal.typed = .line line :: rest) (prompt : String) :
    terminal.ask prompt = (some line, terminal.prompted prompt 1 rest) := by
  simp [ask, Terminal.prompt, put, h, prompted]

/-- An interrupt is used up at a prompt, and the end of the input stays. -/
theorem Terminal.ask_without_line {terminal : Terminal}
    (h : ∀ line rest, terminal.typed ≠ .line line :: rest) (prompt : String) :
    ∃ next, terminal.ask prompt = (none, next) ∧ next.typed = terminal.typed.tail := by
  cases htyped : terminal.typed with
  | nil =>
    simp only [ask, Terminal.prompt, put, htyped]
    exact ⟨_, rfl, rfl⟩
  | cons first rest =>
    cases first with
    | line line => exact absurd htyped (h line rest)
    | interrupt =>
      simp only [ask, Terminal.prompt, put, htyped]
      exact ⟨_, rfl, rfl⟩

namespace Entry

variable {σ α : Type} {judge : σ → String → Verdict σ α}

/-- What becomes of an entry at a line. -/
theorem collect_line {terminal : Terminal} {line : String} {rest : List Typed}
    (h : terminal.typed = .line line :: rest) (prompt : String)
    (judge : σ → String → Verdict σ α) (state : σ) :
    collect prompt judge state terminal =
      match judge state line with
      | .finished answer => (answer, terminal.prompted prompt 1 rest)
      | .accepted state => collect prompt judge state (terminal.prompted prompt 1 rest)
      | .refused message =>
          collect prompt judge state
            (Display.problem (terminal.prompted prompt 1 rest) none message) := by
  rw [collect]
  split
  · next hask =>
    rw [Terminal.ask_line h] at hask
    cases hask
  · next hask =>
    rw [Terminal.ask_line h] at hask
    cases hask
    rfl

/-- Without a line the entry is cancelled. -/
theorem collect_without_line {terminal : Terminal}
    (h : ∀ line rest, terminal.typed ≠ .line line :: rest) (prompt : String)
    (judge : σ → String → Verdict σ α) (state : σ) :
    ∃ next, collect prompt judge state terminal = (none, next) ∧
      next.typed = terminal.typed.tail := by
  obtain ⟨next, hask, htyped⟩ := Terminal.ask_without_line h prompt
  refine ⟨next, ?_, htyped⟩
  rw [collect]
  split
  · next hnone =>
    rw [hask] at hnone
    cases hnone
    rfl
  · next hsome =>
    rw [hask] at hsome
    cases hsome

/-- `Accepts judge state lines after` says that these lines are accepted, one after the other. -/
inductive Accepts (judge : σ → String → Verdict σ α) : σ → List String → σ → Prop
  | nil (state : σ) : Accepts judge state [] state
  | cons {state middle after : σ} {line : String} {lines : List String}
      (hline : judge state line = .accepted middle) (hlines : Accepts judge middle lines after) :
      Accepts judge state (line :: lines) after

/-- Accepted lines are taken without a problem. -/
theorem collect_of_accepts {prompt : String} {state after : σ} {lines : List String}
    (h : Accepts judge state lines after) {terminal : Terminal} {rest : List Typed}
    (htyped : terminal.typed = lines.map .line ++ rest) :
    collect prompt judge state terminal =
      collect prompt judge after (terminal.prompted prompt lines.length rest) := by
  induction h generalizing terminal with
  | nil state =>
    cases htyped
    exact congrArg _ (terminal.prompted_zero prompt).symm
  | @cons state middle after line lines hline hlines ih =>
    rw [collect_line htyped, hline]
    dsimp only
    rw [ih rfl, Terminal.prompted_prompted, List.length_cons, Nat.add_comm]

/-- Lines that are accepted, and one that ends the entry. -/
theorem collect_of_accepts_finished {prompt : String} {state after : σ} {lines : List String}
    {last : String} {answer : Option α} (h : Accepts judge state lines after)
    (hlast : judge after last = .finished answer) {terminal : Terminal} {rest : List Typed}
    (htyped : terminal.typed = lines.map .line ++ .line last :: rest) :
    collect prompt judge state terminal =
      (answer, terminal.prompted prompt (lines.length + 1) rest) := by
  rw [collect_of_accepts h htyped, collect_line rfl, hlast]
  dsimp only
  rw [Terminal.prompted_prompted]

end Entry

end MatrixCalc
