import PolyglotTicketing.Orders.Safety
import PolyglotTicketing.Transaction.Serial

/-!
# Serial runs of Orders

A run is a list of attempts at transactions, one after the other, each of which may fail at any
statement or at its commit. `attempt_cases` says what one attempt does, and `eachState_db` is the
induction rule for properties of the rows.
-/

namespace Orders

open Platform Contracts Relational Transaction Transition

/-- An attempt at an operation of the repository. -/
abbrev Try := Attempt Int Fresh Call

/-- The state after an attempt. -/
def step (w : State) (a : Try) : State := attempt engine program w a

/-- The migrated database of a server that was started at the time `clock`. -/
def State.init (clock : Int) : State := ⟨Db.init, clock, 1⟩

/-- Time does not go back. -/
def InOrder (w : State) (a : Try) : Prop := w.clock ≤ a.now

/-- The transaction commits. -/
abbrev Commits (w : State) (a : Try) : Prop := Transaction.Commits engine program w a

instance (w : State) (a : Try) : Decidable (InOrder w a) := inferInstanceAs (Decidable (_ ≤ _))

/-- An attempt that commits, whose statements draw the identifiers from `id` on. -/
def Try.healthy (call : Call) (now : Int) (id : ℕ) : Try where
  call := call
  now := now
  fates n := some ⟨.ofNat 128 (id + n), now, 0⟩
  commits := true

@[simp]
theorem clock_step (w : State) (a : Try) : (step w a).clock = a.now :=
  attempt_clock engine program w a

/-- The invariant of the discipline does not depend on the time. -/
theorem inv_step {w : State} (hinv : discipline.Inv w) (a : Try) : discipline.Inv (step w a) :=
  Discipline.inv_attempt allSafe (w := w) (a := a) hinv

theorem inv_init (clock : Int) : discipline.Inv (State.init clock) := by
  simp [discipline, State.init, Db.init]

theorem inv_run {w : State} (hinv : discipline.Inv w) (attempts : List Try) :
    discipline.Inv (run step w attempts) :=
  run_invariant (P := discipline.Inv) (fun _ a h => inv_step h a) hinv attempts

/-- A committed attempt is a `Change`. -/
theorem change_of_committed {w : State} {a : Try} {r : Reply} (hinv : discipline.Inv w)
    (hout : outcome engine program w a = .committed r) :
    ∃ held n, Change a.call { w with clock := a.now } held ⟨w.db, a.now, n⟩ r (step w a).db := by
  obtain ⟨held, hguar⟩ := Discipline.guar_of_attempt allSafe (w := w) (a := a) hinv hout
  exact ⟨held, _, hguar.2⟩

/-- What an attempt does to the rows: nothing, or a `Change`. -/
theorem attempt_cases {w : State} (hinv : discipline.Inv w) (a : Try) :
    (¬Commits w a ∧ (step w a).db = w.db) ∨
      ∃ r held n, Change a.call { w with clock := a.now } held ⟨w.db, a.now, n⟩ r
        (step w a).db := by
  refine (Discipline.attempt_cases allSafe (w := w) (a := a) hinv).imp_right ?_
  rintro ⟨r, held, n, hguar⟩
  exact ⟨r, held, n, hguar.2⟩

/-- What holds of the rows at the beginning and is kept by every `Change` holds in every state of
every run. -/
theorem eachState_db {P : Db → Prop} {w : State} (hw : P w.db) (hinv : discipline.Inv w)
    (hP : ∀ {call opened held w r db'}, P w.db → Change call opened held w r db' → P db')
    (attempts : List Try) :
    EachState step (fun s => discipline.Inv s ∧ P s.db) w attempts := by
  refine eachState_of_eachStep (C := fun _ _ => True) ?_ ⟨hinv, hw⟩ (eachStep_true _ _)
  rintro w a ⟨hinv, hw⟩ -
  refine ⟨inv_step hinv a, ?_⟩
  rcases attempt_cases hinv a with ⟨-, hdb⟩ | ⟨r, held, n, hchange⟩
  · rwa [hdb]
  · exact hP (w := ⟨w.db, a.now, n⟩) hw hchange

end Orders
