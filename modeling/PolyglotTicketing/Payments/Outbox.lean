import PolyglotTicketing.Payments.Handlers
import PolyglotTicketing.Payments.Ledger
import PolyglotTicketing.Transaction.Writes

/-!
# What Payments announces

The outbox of Payments when every operation begins with a request, an event that the service
accepts, or an outcome of the processor, in the way of `Tickets.Outbox`. Every row is about a
payment.
-/

namespace Payments

open Platform Contracts Relational Transaction Transition
open Wire (Protobuf Datable received)

/-- What comes in. -/
inductive Request where
  | createPayment (orderID userID : String)
  | resolveNextPending (outcome : ProcessorOutcome)
  | orderEvent (subject : String) (payload : List UInt8)

/-- The operation that begins with a request or an event, unless it is rejected. -/
def Request.call? (protobuf : Protobuf) : Request → Option Call
  | .createPayment orderID userID => received (Service.createPayment orderID userID)
  | .resolveNextPending outcome => some (.resolveNextPending outcome)
  | .orderEvent subject payload => received (OrderHandler.handle protobuf subject payload)

/-- The database `db` is reached when the service does what it is asked for. -/
def Reachable (protobuf : Protobuf) (db : Db) : Prop :=
  ∃ (clock : Int) (labels : List (Label Int Fresh Call Request)),
    db = (serve clock (labels.flatMap
      (Label.events (Request.call? protobuf) fun fresh => Datable fresh.occurredAt))).world.db

/-- A row of the outbox that announces a payment. -/
def Announced (e : OutboxEvent PaymentEvent) : Prop :=
  ∃ (p : Payment) (n : ℕ) (fresh : Fresh), e = paymentCreatedEvent p n fresh ∨
    e = paymentSucceededEvent p n fresh ∨ e = paymentFailedEvent p n fresh

/-- A commit keeps all rows of the outbox announcements. -/
theorem Change.announced {call : Call} {held : List Key} {w : State} {r : Reply} {db' : Db}
    (h : Change call held w r db') (houtbox : ∀ e ∈ w.db.outboxEvents.rows, Announced e) :
    ∀ e ∈ db'.outboxEvents.rows, Announced e := by
  rcases h.outbox_cases with hsame | ⟨p, e, happends, hevent, hinsert⟩
  · rwa [hsame]
  · rw [hinsert]
    intro x hx
    rcases (Table.mem_insert happends.new).mp hx with hx | rfl
    · exact houtbox x hx
    · rcases hevent with ⟨n, fresh, heq⟩ | ⟨n, fresh, ⟨-, heq⟩ | ⟨-, heq⟩⟩
      · exact ⟨p, n, fresh, Or.inl heq⟩
      · exact ⟨p, n, fresh, Or.inr (Or.inl heq)⟩
      · exact ⟨p, n, fresh, Or.inr (Or.inr heq)⟩

/-- Rows are written at the time that their environment shows. -/
theorem writes_datable : engine.Writes (fun fresh => Datable fresh.occurredAt) fun x =>
    ∀ e, x = .insertOutboxEvent e → Datable e.createdAt := by
  rintro q context db r ws hfresh hexec x hx e rfl
  -- Only one of the statements writes to the outbox.
  cases q with
  | insertOutboxEvent subject payload =>
    obtain ⟨-, rfl, -⟩ := exec_insertOutboxEvent hexec
    obtain rfl := Write.insertOutboxEvent.inj (List.mem_singleton.mp hx)
    exact hfresh
  | _ =>
    simp only [engine, exec] at hexec
    repeat' split at hexec
    all_goals cases hexec
    all_goals simp at hx

section Reachable

variable {protobuf : Protobuf} {db : Db}

/-- In every reachable state, the rows of the outbox announce payments. -/
theorem announced_of_reachable (h : Reachable protobuf db) :
    ∀ e ∈ db.outboxEvents.rows, Announced e := by
  obtain ⟨clock, labels, rfl⟩ := h
  refine (Discipline.world_run allSafe (inv_init clock)
    (P := fun w => ∀ e ∈ w.db.outboxEvents.rows, Announced e) (fun hdb _ _ => hdb)
    (fun _ hdb hguar => hguar.announced hdb) ?_ _).1
  simp [State.init, Db.init]

/-- In every reachable state, the announcements show a time in the years 1 to 9999. -/
theorem datable_of_reachable (h : Reachable protobuf db) :
    ∀ e ∈ db.outboxEvents.rows, Datable e.createdAt := by
  obtain ⟨clock, labels, rfl⟩ := h
  refine written_run (P := fun db : Db => ∀ e ∈ db.outboxEvents.rows, Datable e.createdAt)
    writes_datable ?_ ?_ fun i fresh hfresh => fresh_of_mem hfresh
  · intro db x hdb hx
    cases x with
    | insertOutboxEvent e =>
      intro y hy
      rcases Table.mem_of_mem_insert hy with hy | rfl
      · exact hdb y hy
      · exact hx y rfl
    | _ => exact hdb
  · simp [State.init, Db.init]

end Reachable

end Payments
