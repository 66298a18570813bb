import MatrixCalc.Proofs.History
import MatrixCalc.Proofs.Session.Line
import MatrixCalc.Settings

/-!
# The history of a session

`Session.follows_history`: after any lines, also such as fail, the last value of a session is that
of the most recent expression that had one, looking back no further than to the last `clear`, and
this is what a blank line prints. Commands do not touch the variables, apart from `clear`, which
sets them all back, and an expression that fails has overwritten only what was defined in it.

What is printed is meant as on any `Terminal`, which wraps no line.

`Follows` relates a session to what its lines came to. Every line keeps it (`Follows.handle`), and
from it follows what the next line does (`Follows.answers`).
-/

namespace MatrixCalc.Session

open Evaluation (Exchanged)
open Event (latest)

/-- A line that is entered, and what the user types if it asks for values. -/
structure Entered where
  line : String
  typed : List Typed

/-- A session that has just begun, with the variables at their defaults. -/
def fresh (settings : Settings) (terminal : Terminal) : Session :=
  start (.fresh settings.defaultRows settings.defaultCols) settings.maxLength terminal

/-- A session whose user is about to type something. -/
def facing (session : Session) (typed : List Typed) : Session :=
  { session with terminal := { session.terminal with typed } }

/-- A session in which one more text has been printed. -/
def printing (session : Session) (text : String) : Session :=
  { session with
    terminal := { session.terminal with printed := session.terminal.printed ++ text } }

/-- The session that is left behind, whether or not something failed. -/
def left {α : Type} : EStateM.Result Failure Session α → Session
  | .ok _ after => after
  | .error _ after => after

/-- What a line comes to. -/
def event (session : Session) (line : String) : Event :=
  match lineKind session.maxLength (Text.strip line) with
  | .leave | .blank | .help | .vars | .tooLong => .other
  | .clear => .reset
  | .expression =>
      match Expr.evaluateLine Entry.definer (Text.strip line) session.progress with
      | .ok outcome _ => .computed outcome.value
      | .error .. => .other

/-- Answers an entered line, and tells what it came to. -/
def answer (session : Session) (entered : Entered) : Session × Event :=
  let session := session.facing entered.typed
  (left (handle entered.line session), session.event entered.line)

/-- Neither the last value nor the variables have changed. -/
def Same (before after : Session) : Prop :=
  after.last = before.last ∧ after.slots = before.slots

/-- A line makes a session print a value between blank lines and go on, unless the value has a
number that is too long. -/
def Displays (shown : Value) (session : Session) (line : String) : Prop :=
  if shown.fits then
    ∃ text, shown.render = .ok text ∧
      handle line session = .ok true (session.printing ("\n" ++ text ++ "\n\n"))
  else ∃ after, handle line session = .error (.fault .tooLongToWrite) after

/-- How a session answers a line, after lines that came to certain events. -/
def Answers (settings : Settings) (events : List Event) (session : Session) (line : String) :
    Prop :=
  let after := left (handle line session)
  match lineKind settings.maxLength (Text.strip line) with
  | .leave | .help | .vars | .tooLong => session.Same after
  | .blank =>
      session.Same after ∧
        Displays ((latest some events).getD (session.slots.get .lastMatrix)) session line
  | .clear => after.last = none ∧ after.slots = .fresh settings.defaultRows settings.defaultCols
  | .expression =>
      match Expr.evaluateLine Entry.definer (Text.strip line) session.progress with
      | .ok outcome progress => after.last = some outcome.value ∧ after.slots = progress.slots
      | .error _ progress => after.last = session.last ∧
          ∃ asked writes, Exchanged session.progress progress asked ∧
            DefinedIn (Text.strip line) asked writes ∧
              Slots.Overwritten session.slots writes after.slots

/-! ## Single lines -/

/-- Printing leaves all of a session as it is but the terminal. -/
theorem shows_apply (printing : Display Unit) (session : Session) :
    shows printing session =
      match printing session.terminal with
      | .ok _ terminal => .ok true { session with terminal }
      | .error failure terminal => .error failure { session with terminal } := by
  show EStateM.bind (display printing) _ session = _
  unfold EStateM.bind display
  cases printing session.terminal <;> rfl

/-- Showing something changes the terminal only. -/
theorem left_shows (printing : Display Unit) (session : Session) :
    ∃ terminal, left (shows printing session) = { session with terminal } := by
  rw [shows_apply]
  cases printing session.terminal with
  | ok value terminal => exact ⟨terminal, rfl⟩
  | error failure terminal => exact ⟨terminal, rfl⟩

/-- The session that an expression leaves behind has the slots in which its evaluation ended, and
its value as the last one, if it has one. -/
theorem left_evaluates (session : Session) (text : String) :
    let result := Expr.evaluateLine Entry.definer text session.progress
    let after := left (session.evaluates text)
    after.slots = (Evaluation.final result).slots ∧ after.maxLength = session.maxLength ∧
      after.last = match result with
        | .ok outcome _ => some outcome.value
        | .error .. => session.last := by
  dsimp only
  unfold evaluates
  cases Expr.evaluateLine Entry.definer text session.progress with
  | ok outcome progress =>
    obtain ⟨terminal, hleft⟩ := left_shows (Display.result outcome)
      { session.resumed progress with last := some outcome.value }
    dsimp only
    rw [hleft]
    exact ⟨rfl, rfl, rfl⟩
  | error failure progress => cases failure <;> exact ⟨rfl, rfl, rfl⟩

/-- A blank line shows a value. -/
theorem displays_of_blank {session : Session} {line : String}
    (hline : lineKind session.maxLength (Text.strip line) = .blank) :
    Displays session.shownValue session line := by
  have hhandle := handle_eq line session
  rw [hline] at hhandle
  dsimp only at hhandle
  rw [shows_apply] at hhandle
  unfold Displays
  split
  · next hfits =>
    refine ⟨session.shownValue.text, by rw [Value.render_eq, if_pos hfits], ?_⟩
    rw [hhandle, Display.value_of_fits hfits]
    rfl
  · next hfits =>
    have hstops := (Display.value_stopsUnless session.shownValue).ends session.terminal
    cases hresult : Display.value session.shownValue session.terminal with
    | ok value terminal =>
      rw [hresult] at hstops
      exact absurd hstops hfits
    | error failure terminal =>
      rw [hresult] at hhandle hstops
      exact ⟨_, by rw [hhandle, hstops.1]⟩

/-! ## Histories -/

/-- A session after lines that came to certain events. -/
structure Follows (settings : Settings) (session : Session) (events : List Event) : Prop where
  last : session.last = latest some events
  defaultRows : session.slots.defaultRows = settings.defaultRows
  defaultCols : session.slots.defaultCols = settings.defaultCols
  maxLength : session.maxLength = settings.maxLength

namespace Follows

variable {settings : Settings} {session : Session} {events : List Event}

/-- A fresh session follows from nothing. -/
theorem start (settings : Settings) (terminal : Terminal) :
    Follows settings (fresh settings terminal) [] :=
  ⟨rfl, rfl, rfl, rfl⟩

/-- What is typed next changes nothing that was stored. -/
theorem facing (h : Follows settings session events) (typed : List Typed) :
    Follows settings (session.facing typed) events :=
  ⟨h.last, h.defaultRows, h.defaultCols, h.maxLength⟩

/-- Every line is followed by what it comes to. -/
theorem handle (h : Follows settings session events) (line : String) :
    Follows settings (left (handle line session)) (events ++ [session.event line]) := by
  have hother : ∀ terminal, Follows settings { session with terminal } (events ++ [.other]) :=
    fun terminal => ⟨by rw [Event.latest_append_other]; exact h.last, h.defaultRows,
      h.defaultCols, h.maxLength⟩
  rw [handle_eq, event]
  cases hline : lineKind session.maxLength (Text.strip line) with
  | leave => exact hother session.terminal
  | tooLong => exact hother _
  | blank =>
    obtain ⟨terminal, hleft⟩ := left_shows (Display.value session.shownValue) session
    exact hleft ▸ hother terminal
  | help =>
    obtain ⟨terminal, hleft⟩ := left_shows
      (do Display.say Display.languageHelp; Display.say Display.functionTable) session
    exact hleft ▸ hother terminal
  | vars =>
    obtain ⟨terminal, hleft⟩ := left_shows (Display.changedSlots session.slots) session
    exact hleft ▸ hother terminal
  | clear =>
    exact ⟨(Event.latest_append_reset some events).symm, h.defaultRows, h.defaultCols, h.maxLength⟩
  | expression =>
    have hsize := Expr.evaluateLine_keeps_size Entry.definer (Text.strip line) session.progress
    obtain ⟨hslots, hmaxLength, hlast⟩ := session.left_evaluates (Text.strip line)
    refine ⟨?_, (congrArg Slots.defaultRows hslots).trans (hsize.1.trans h.defaultRows),
      (congrArg Slots.defaultCols hslots).trans (hsize.2.trans h.defaultCols),
      hmaxLength.trans h.maxLength⟩
    refine hlast.trans ?_
    cases Expr.evaluateLine Entry.definer (Text.strip line) session.progress with
    | ok outcome progress => exact (Event.latest_append_computed some events outcome.value).symm
    | error failure progress => exact h.last.trans (Event.latest_append_other some events).symm

/-- A session follows one more entered line. -/
theorem answer (h : Follows settings session events) (entered : Entered) :
    Follows settings (session.answer entered).1 (events ++ [(session.answer entered).2]) := by
  unfold Session.answer
  dsimp only
  exact (h.facing entered.typed).handle entered.line

/-- How a session with a history answers a line. -/
theorem answers (h : Follows settings session events) (line : String) :
    Answers settings events session line := by
  have hshows : ∀ printing, session.Same (left (shows printing session)) := by
    intro printing
    obtain ⟨terminal, hleft⟩ := left_shows printing session
    rw [hleft]
    exact ⟨rfl, rfl⟩
  unfold Answers
  rw [handle_eq, ← h.maxLength]
  cases hline : lineKind session.maxLength (Text.strip line) <;> dsimp only
  case leave => exact ⟨rfl, rfl⟩
  case tooLong => exact ⟨rfl, rfl⟩
  case blank =>
    refine ⟨hshows _, ?_⟩
    rw [← h.last]
    exact displays_of_blank hline
  case help => exact hshows _
  case vars => exact hshows _
  case clear =>
    refine ⟨rfl, ?_⟩
    rw [← h.defaultRows, ← h.defaultCols]
    rfl
  case expression =>
    have hwrites := Expr.evaluateLine_writes Entry.definer (Text.strip line) session.progress
    obtain ⟨hslots, -, hlast⟩ := session.left_evaluates (Text.strip line)
    cases hresult : Expr.evaluateLine Entry.definer (Text.strip line) session.progress with
    | ok outcome progress =>
      rw [hresult] at hslots hlast
      exact ⟨hlast, hslots⟩
    | error failure progress =>
      rw [hresult] at hslots hlast hwrites
      obtain ⟨asked, writes, hasked, hdefined, hoverwritten⟩ := hwrites
      exact ⟨hlast, asked, writes, hasked, hdefined, hslots ▸ hoverwritten⟩

end Follows

/-- After any lines, the last value of a session is that of the most recent expression that had
one since the start or the last `clear`, and the session answers the next line accordingly. -/
theorem follows_history (settings : Settings) (terminal : Terminal) (history : List Entered) :
    let done := Event.record answer (fresh settings terminal) history
    done.1.last = latest some done.2 ∧
      ∀ entered : Entered,
        Answers settings done.2 (done.1.facing entered.typed) entered.line := by
  intro done
  have hfollows : Follows settings done.1 done.2 :=
    Event.record_induction (P := Follows settings) (.start settings terminal) history
      fun _ _ entered _ h => h.answer entered
  exact ⟨hfollows.last, fun entered => (hfollows.facing entered.typed).answers entered.line⟩

/-- Lines that have a value, lines that fail, and commands. -/
example :
    (Event.record answer (fresh ⟨.warning, 2, 2, 1000⟩ (.start [])) [⟨"1/2", []⟩, ⟨"1/0", []⟩,
      ⟨"vars", []⟩, ⟨"clear", []⟩, ⟨" 3 -> a ", []⟩, ⟨"$b", [.interrupt]⟩]).2 =
      [.computed (.scalar ⟨1, 2, by decide⟩), .other, .other, .reset,
        .computed (.scalar (.ofInt 3)), .other] := by
  decide +kernel

end MatrixCalc.Session
