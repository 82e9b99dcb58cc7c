import PolyglotTicketing.Payments.Safety
import PolyglotTicketing.Transaction.Serial

/-!
# Serial runs of Payments

Attempts at transactions of Payments, one after the other, in the way of `Orders.Serial`.
-/

namespace Payments

open Platform Contracts Relational Transaction Transition

/-- An attempt at an operation of the repository. -/
abbrev Try := Attempt Int Fresh Call

/-- The state after an attempt. -/
def step (w : State) (a : Try) : State := attempt engine program w a

/-- The migrated database of a server that was started at the time `clock`. -/
def State.init (clock : Int) : State := ⟨Db.init, clock, 1⟩

/-- The transaction commits. -/
abbrev Commits (w : State) (a : Try) : Prop := Transaction.Commits engine program w a

/-- An attempt that commits, whose statements draw the identifiers from `id` on. -/
def Try.healthy (call : Call) (now : Int) (id : ℕ) : Try where
  call := call
  now := now
  fates n := some ⟨.ofNat 128 (id + n), now, 0⟩
  commits := true

theorem healthy_healthy (call : Call) (now : Int) (id : ℕ) :
    (Try.healthy call now id).Healthy := ⟨fun _ => ⟨_, rfl⟩, rfl⟩

theorem inv_step {w : State} (hinv : discipline.Inv w) (a : Try) : discipline.Inv (step w a) :=
  Discipline.inv_attempt allSafe (w := w) (a := a) hinv

theorem inv_init (clock : Int) : discipline.Inv (State.init clock) := by
  simp [discipline, State.init, Db.init, OnePayment]

theorem inv_run {w : State} (hinv : discipline.Inv w) (attempts : List Try) :
    discipline.Inv (run step w attempts) :=
  run_invariant (P := discipline.Inv) (fun _ a h => inv_step h a) hinv attempts

/-- A committed attempt is a `Change`. -/
theorem change_of_commits {w : State} {a : Try} (hinv : discipline.Inv w) (hcommit : Commits w a) :
    ∃ r held n, Change a.call held ⟨w.db, a.now, n⟩ r (step w a).db := by
  obtain ⟨r, hout⟩ := hcommit
  obtain ⟨held, hguar⟩ := Discipline.guar_of_attempt allSafe (w := w) (a := a) hinv hout
  exact ⟨r, held, _, hguar⟩

/-- What an attempt does to the rows: nothing, or a `Change`. -/
theorem attempt_cases {w : State} (hinv : discipline.Inv w) (a : Try) :
    (¬Commits w a ∧ (step w a).db = w.db) ∨
      ∃ r held n, Change a.call held ⟨w.db, a.now, n⟩ r (step w a).db :=
  Discipline.attempt_cases allSafe (w := w) (a := a) hinv

end Payments
