import PolyglotTicketing.Orders.Serial
import PolyglotTicketing.Outbox.Redelivery

/-!
# Redelivery to Orders

Orders deduplicates the events that it handles, in the sense of `Outbox.Layout.Deduplicates`.
-/

namespace Orders

open Platform Contracts Relational Transaction Outbox

/-- The common tables of the database. -/
def layout : Layout Db Call OrderEvent where
  outbox := Db.outboxEvents
  withOutbox := fun db outboxEvents => { db with outboxEvents := outboxEvents }
  processedEvents := Db.processedEvents
  eventID? := Call.eventID?
  outbox_withOutbox := fun _ _ => rfl
  withOutbox_outbox := fun _ => rfl
  withOutbox_withOutbox := fun _ _ _ => rfl
  processedEvents_withOutbox := fun _ _ => rfl

/-- Only `INSERT INTO outbox_events` has to do with the outbox. -/
theorem separates (s : Stmt) : layout.Separates engine s := by
  cases s with
  | insertOutboxEvent subject payload =>
    exact Or.inr ⟨(), subject, payload, .insertOutboxEvent, rfl, fun _ _ => rfl, fun _ _ => rfl⟩
  | _ =>
    refine Or.inl ⟨fun _ _ _ _ => rfl, ?_⟩
    -- What the other statements write goes to other tables, in every branch.
    intro context db r ws hexec x hx
    simp only [engine, exec] at hexec
    repeat' split at hexec
    all_goals cases hexec
    all_goals simp at hx
    all_goals subst hx; exact fun _ _ => rfl

/-- Orders deduplicates events. -/
theorem deduplicates : layout.Deduplicates engine program discipline.Inv where
  separates := separates
  valid_attempt := fun hinv => inv_step hinv _
  valid_publish := fun hinv => Operation.sequence_lt hinv _
  duplicate := by
    intro w a e hinv hevent hmem
    rcases attempt_cases hinv a with ⟨-, hdb⟩ | ⟨r, held, n, hchange⟩
    · -- An attempt that does not commit changes nothing either.
      exact hdb
    · exact hchange.eq_of_processed hevent hmem
  recorded := by
    rintro w a e hinv ⟨r, hout⟩
    obtain ⟨held, n, hchange⟩ := change_of_committed hinv hout
    exact hchange.mem_processedEvents

/-- Redelivery is harmless in every run of attempts at transactions of Orders. -/
theorem harmless (clock : Int) (steps : List (Outbox.Step Call)) :
    layout.Harmless engine program (State.init clock) steps :=
  deduplicates.harmless (inv_init clock) .empty rfl steps

end Orders
