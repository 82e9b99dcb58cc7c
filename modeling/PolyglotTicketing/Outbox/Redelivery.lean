import PolyglotTicketing.Outbox.Layout
import PolyglotTicketing.Transition.Redelivery

/-!
# Redelivery to a service

The three services handle events in the same way: the transaction that handles an event records its
identifier, and does nothing if it is recorded already. `Layout.Harmless` is what redelivery means
for a run of attempts at transactions and statements of the publisher, one after the other.
`Layout.Deduplicates.harmless` proves it from what a service has to show of its statements and of
its transactions.
-/

namespace Outbox

open Platform Relational Transaction Transition

/-- Something that happens to the database of a service. -/
inductive Step (Call : Type) where
  /-- An attempt at an operation of the repository. -/
  | attempt (a : Attempt Int Fresh Call)
  /-- A statement of the publisher. -/
  | publish (op : Operation)

variable {Db Write Key Stmt : Type} {Res : Stmt → Type} {ε α Call π : Type}

namespace Layout

variable (L : Layout Db Call π) (E : Engine Int Db Write Key Fresh Stmt Res)
  (program : Call → Program Stmt Res ε α)

/-- One step. -/
def operate (w : World Int Db) : Step Call → World Int Db
  | .attempt a => Transaction.attempt E program w a
  | .publish op => { w with db := L.withOutbox w.db (op.apply (L.outbox w.db)) }

/-- The event that is delivered with a step. -/
def event : Step Call → Option Uuid
  | .attempt a => L.eventID? a.call
  | .publish _ => none

/-- A delivery returns without an error: its transaction has committed. -/
def Succeeds (w : World Int Db) : Step Call → Prop
  | .attempt a => Transaction.Commits E program w a
  | .publish _ => True

instance (w : World Int Db) : (s : Step Call) → Decidable (Succeeds E program w s)
  | .attempt a => inferInstanceAs (Decidable (Transaction.Commits E program w a))
  | .publish _ => inferInstanceAs (Decidable True)

/-- The steps of a run, without the deliveries that fail and those of events that have been
delivered successfully before. -/
def essential (w : World Int Db) (steps : List (Step Call)) : List (Step Call) :=
  Transition.essential (L.operate E program) L.event (Succeeds E program) w [] steps

/-- Redelivery is harmless in a run. -/
structure Harmless (w : World Int Db) (steps : List (Step Call)) : Prop where
  /-- The processed events are those that were delivered successfully. -/
  processed : ∀ e, e ∈ L.processedEvents (run (L.operate E program) w steps).db ↔
    Delivered (L.operate E program) L.event (Succeeds E program) w steps e
  /-- A delivery that fails leaves the database as it is. -/
  failed : ∀ front a back, steps = front ++ .attempt a :: back →
    ¬Transaction.Commits E program (run (L.operate E program) w front) a →
      (run (L.operate E program) w (front ++ [.attempt a])).db =
        (run (L.operate E program) w front).db
  /-- The last state is that of the run without failed and repeated deliveries, but for the values
  of the identity column. -/
  essential : L.erase (run (L.operate E program) w (L.essential E program w steps)).db =
    L.erase (run (L.operate E program) w steps).db

/-- What a service shows of its statements and of its transactions. -/
structure Deduplicates (Valid : World Int Db → Prop) : Prop where
  separates : ∀ s, L.Separates E s
  valid_attempt : ∀ {w a}, Valid w → Valid (attempt E program w a)
  valid_publish : ∀ {w op}, Valid w → Valid (L.operate E program w (.publish op))
  /-- An event that is recorded is not handled again. -/
  duplicate : ∀ {w} {a : Attempt Int Fresh Call} {e}, Valid w → L.eventID? a.call = some e →
    e ∈ L.processedEvents w.db → (attempt E program w a).db = w.db
  /-- A transaction that handles an event records it, and no other one. -/
  recorded : ∀ {w a e}, Valid w → Transaction.Commits E program w a →
    (e ∈ L.processedEvents (attempt E program w a).db ↔
      e ∈ L.processedEvents w.db ∨ L.eventID? a.call = some e)

variable {L E program} {Valid : World Int Db → Prop}

namespace Deduplicates

variable (h : L.Deduplicates E program Valid)
include h

/-- Single steps follow the rules of redelivery. -/
theorem rules : Rules (L.operate E program) L.event (Succeeds E program)
    (fun w => L.erase w.db) (fun w e => e ∈ L.processedEvents w.db)
    (fun w => Valid w ∧ Increasing (L.outbox w.db) w.sequence) where
  inv := by
    rintro w (a | op) ⟨hvalid, hincreasing⟩
    · refine ⟨h.valid_attempt hvalid, ?_⟩
      exact attempt_invariant (I := fun w => Increasing (L.outbox w.db) w.sequence)
        (fun hw hexec => increasing (h.separates _) hw hexec) (fun hw hle => hw.mono hle)
        hincreasing a
    · refine ⟨h.valid_publish hvalid, ?_⟩
      rw [operate, L.outbox_withOutbox]
      exact hincreasing.apply op
  failed := by
    rintro w (a | op) e hevent hfails
    · have hdb : (attempt E program w a).db = w.db :=
        attempt_db_of_not_committed fun r hr => hfails ⟨r, hr⟩
      exact congrArg L.erase hdb
    · exact absurd trivial hfails
  duplicate := by
    rintro w (a | op) e ⟨hvalid, -⟩ hevent hmem
    · exact congrArg L.erase (h.duplicate hvalid hevent hmem)
    · simp [event] at hevent
  congr := by
    rintro w w' (a | op) ⟨-, hincreasing⟩ ⟨-, hincreasing'⟩ hview
    · exact (transact_congr (blind h.separates) hview).2
    · -- The two databases agree in the outbox without its values, and in everything else.
      have houtbox : forget (L.outbox w.db) = forget (L.outbox w'.db) := by
        have heq := congrArg L.outbox hview
        rwa [erase, erase, L.outbox_withOutbox, L.outbox_withOutbox] at heq
      have hrest : ∀ t, L.withOutbox w.db t = L.withOutbox w'.db t := by
        intro t
        have heq := congrArg (L.withOutbox · t) hview
        simpa only [erase, L.withOutbox_withOutbox] using heq
      simp only [operate, erase, L.outbox_withOutbox, L.withOutbox_withOutbox]
      rw [forget_apply hincreasing, forget_apply hincreasing', houtbox, hrest]
  processed := by
    rintro w (a | op) e ⟨hvalid, -⟩
    · -- An attempt that does not commit records nothing.
      by_cases hcommits : Transaction.Commits E program w a
      · exact (h.recorded hvalid hcommits).trans (or_congr_right (and_iff_left hcommits).symm)
      · have hdb : (attempt E program w a).db = w.db :=
          attempt_db_of_not_committed fun r hr => hcommits ⟨r, hr⟩
        rw [operate, hdb]
        exact (or_iff_left fun hsucceeds => hcommits hsucceeds.2).symm
    · simp [operate, event, L.processedEvents_withOutbox]

/-- Redelivery is harmless in every run from a database without processed events. -/
theorem harmless {w : World Int Db} (hvalid : Valid w)
    (hincreasing : Increasing (L.outbox w.db) w.sequence)
    (hnone : L.processedEvents w.db = []) (steps : List (Step Call)) :
    L.Harmless E program w steps where
  processed := by
    intro e
    rw [h.rules.processed_run ⟨hvalid, hincreasing⟩, hnone]
    simp
  failed := by
    rintro front a back - hfails
    rw [run_concat]
    exact attempt_db_of_not_committed fun r hr => hfails ⟨r, hr⟩
  essential := by
    refine h.rules.view_essential ⟨hvalid, hincreasing⟩ ⟨hvalid, hincreasing⟩ rfl ?_ steps
    simp [hnone]

end Deduplicates

end Layout

end Outbox
