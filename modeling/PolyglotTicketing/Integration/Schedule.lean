import PolyglotTicketing.Integration.Services

/-!
# Runs in parts

In a part of a run in which only one of the services moves, it moves as its server does on its own,
if its handlers begin with messages that the others have sent before (`run_tickets`, `run_orders`,
`run_payments`, `run_expiration`). A run can thus be put together from runs of the servers.

`sale` is such a run: a ticket is ordered and paid for, the order expires, and in the end everything
has reached everybody.
-/

namespace Integration

open Platform Contracts Messaging Relational Transaction Transition Wire

namespace Services

section Parts

/-- Events on one server. -/
abbrev Events (Call : Type) := List (Transaction.Event Int Fresh Call)

/-- The `i`-th transaction of a service runs on its own, with `n` statements whose identifiers count
from `id`. -/
def transaction {Call : Type} (i : ℕ) (call : Call) (n id : ℕ) : Events Call :=
  .start call :: ((List.range n).map fun k => .statement i ⟨.ofNat 128 (id + k), 0, 0⟩) ++
    [.finish i]

theorem forall_transaction {Call : Type} {i : ℕ} {call : Call} {n id : ℕ}
    {P : Transaction.Event Int Fresh Call → Prop} (hstart : P (.start call))
    (hrest : ∀ e, (∀ call, e ≠ .start call) → P e) : ∀ e ∈ transaction i call n id, P e := by
  intro e he
  by_cases hcall : e = .start call
  · rwa [hcall]
  · refine hrest e ?_
    rintro call' rfl
    simp [transaction] at he
    exact hcall (he ▸ rfl)

/-- The services after these events on each of them. -/
def after (tickets : Events Tickets.Call) (orders : Events Orders.Call)
    (payments : Events Payments.Call) (expiration : Expiration.Service) : Services where
  tickets := Tickets.serve 0 tickets
  orders := Orders.serve 0 orders
  payments := Payments.serve 0 payments
  expiration := expiration

variable {protobuf : Protobuf} {t : Events Tickets.Call} {o : Events Orders.Call}
  {p : Events Payments.Call} {x : Expiration.Service}

/-- Events of Tickets, which are allowed whatever the state of Tickets is. -/
theorem run_tickets {events : Events Tickets.Call}
    (h : ∀ e ∈ events, ∀ y, Allowed protobuf ⟨y, Orders.serve 0 o, Payments.serve 0 p, x⟩
      (.tickets e)) :
    run (step protobuf) (after t o p x) (events.map .tickets) = after (t ++ events) o p x := by
  rw [after, after, Tickets.serve, Tickets.serve, run_append]
  refine run_map (g := fun y => (⟨y, Orders.serve 0 o, Payments.serve 0 p, x⟩ : Services)) ?_ h _
  exact fun y e he => if_pos (he y)

/-- Events of Orders, which are allowed whatever the state of Orders is. -/
theorem run_orders {events : Events Orders.Call}
    (h : ∀ e ∈ events, ∀ y, Allowed protobuf ⟨Tickets.serve 0 t, y, Payments.serve 0 p, x⟩
      (.orders e)) :
    run (step protobuf) (after t o p x) (events.map .orders) = after t (o ++ events) p x := by
  rw [after, after, Orders.serve, Orders.serve, run_append]
  refine run_map (g := fun y => (⟨Tickets.serve 0 t, y, Payments.serve 0 p, x⟩ : Services)) ?_ h _
  exact fun y e he => if_pos (he y)

/-- Events of Payments, which are allowed whatever the state of Payments is. -/
theorem run_payments {events : Events Payments.Call}
    (h : ∀ e ∈ events, ∀ y, Allowed protobuf ⟨Tickets.serve 0 t, Orders.serve 0 o, y, x⟩
      (.payments e)) :
    run (step protobuf) (after t o p x) (events.map .payments) = after t o (p ++ events) x := by
  rw [after, after, Payments.serve, Payments.serve, run_append]
  refine run_map (g := fun y => (⟨Tickets.serve 0 t, Orders.serve 0 o, y, x⟩ : Services)) ?_ h _
  exact fun y e he => if_pos (he y)

/-- Events of Expiration, which are allowed whatever the state of Expiration is. -/
theorem run_expiration {events : List Expiration.Event}
    (h : ∀ e ∈ events, ∀ y, Allowed protobuf
      ⟨Tickets.serve 0 t, Orders.serve 0 o, Payments.serve 0 p, y⟩ (.expiration e)) :
    run (step protobuf) (after t o p x) (events.map .expiration) =
      after t o p (run (Expiration.step protobuf) x events) := by
  refine run_map (g := fun y =>
    (⟨Tickets.serve 0 t, Orders.serve 0 o, Payments.serve 0 p, y⟩ : Services)) ?_ h _
  exact fun y e he => if_pos (he y)

/-- A transaction of Tickets that begins with what it may handle. -/
theorem allowed_tickets {i : ℕ} {call : Tickets.Call} {n id : ℕ}
    (h : call.eventID? ≠ none → (after [] o p x).TicketsHandles protobuf call) :
    ∀ e ∈ transaction i call n id, ∀ y,
      Allowed protobuf ⟨y, Orders.serve 0 o, Payments.serve 0 p, x⟩ (.tickets e) := by
  refine forall_transaction (fun _ => h) fun e he y => ?_
  cases e with
  | start call => exact absurd rfl (he call)
  | _ => trivial

theorem allowed_orders {i : ℕ} {call : Orders.Call} {n id : ℕ}
    (h : call.eventID? ≠ none → (after t [] p x).OrdersHandles protobuf call) :
    ∀ e ∈ transaction i call n id, ∀ y,
      Allowed protobuf ⟨Tickets.serve 0 t, y, Payments.serve 0 p, x⟩ (.orders e) := by
  refine forall_transaction (fun _ => h) fun e he y => ?_
  cases e with
  | start call => exact absurd rfl (he call)
  | _ => trivial

theorem allowed_payments {i : ℕ} {call : Payments.Call} {n id : ℕ}
    (h : call.eventID? ≠ none → (after t o [] x).PaymentsHandles protobuf call) :
    ∀ e ∈ transaction i call n id, ∀ y,
      Allowed protobuf ⟨Tickets.serve 0 t, Orders.serve 0 o, y, x⟩ (.payments e) := by
  refine forall_transaction (fun _ => h) fun e he y => ?_
  cases e with
  | start call => exact absurd rfl (he call)
  | _ => trivial

/-- Orders applies what it is told if it has processed the event with the end of a transaction. -/
theorem applies_of_processed {s : Services} {call : Orders.Call} {id : Uuid} {i : ℕ}
    (hid : call.eventID? = some id)
    (hcall : s.orders.sessions[i]?.map Session.call = some call)
    (hold : id ∉ s.orders.world.db.processedEvents)
    (hnew : id ∈
      (s.orders.step Orders.engine Orders.program (.finish i)).world.db.processedEvents) :
    Applies call s (.orders (.finish i)) := by
  rcases Server.step_world_cases s.orders (.finish i) with hdb | ⟨j, t, r, heq, ht, hphase, -⟩
  · rw [hdb] at hnew
    exact absurd hnew hold
  · obtain rfl := Transaction.Event.finish.inj heq
    rw [ht] at hcall
    refine ⟨i, t, r, rfl, ht, hphase, Option.some.inj hcall, fun x hx => ?_⟩
    rw [hid] at hx
    exact Option.some.inj hx ▸ hold

end Parts

section Sale

variable {protobuf : Protobuf}

/-- A ticket is offered: its first version has the event 2. -/
def offering : Events Tickets.Call :=
  transaction 0 (.create ⟨"seat", 100, "bob"⟩) 2 1

/-- Orders hears of the ticket, and it is ordered: the order 22 has the event 23. -/
def ordering : Events Orders.Call :=
  transaction 0 (.upsertTicketFromEvent 2 ⟨0, 1, "seat", 100⟩) 3 10 ++
  transaction 1 (.reserveTicket ⟨minutes 15, 1, "alice"⟩) 4 20

/-- Tickets locks the ticket, which makes the event 43. -/
def locking : Events Tickets.Call :=
  transaction 1 (.reserveTicketFromOrder 23 22 1) 4 40

/-- The order is paid for: the payment has the events 53 and 62. -/
def paying : Events Payments.Call :=
  transaction 0 (.upsertOrderFromEvent 23 ⟨0, 22, 100, .created, "alice"⟩) 3 30 ++
  transaction 1 (.create ⟨22, "alice"⟩) 4 50 ++
  transaction 2 (.resolveNextPending .success) 3 60

/-- What Orders has announced of the order. -/
def placed : OrderEvent :=
  .created ⟨23, 0, 22, .created, "alice", minutes 15, 0, ⟨1, 100⟩⟩

/-- Expiration sets a timer for the order, which goes off. -/
def timing (protobuf : Protobuf) : List Expiration.Event :=
  [.deliver (marshalOrder protobuf placed) 0 true, .tick (minutes 15),
    .work (uuidText 22) (.acknowledged false)]

/-- Orders hears of the new version of the ticket, of the payment, and of the timer. -/
def closing : Events Orders.Call :=
  transaction 2 (.upsertTicketFromEvent 43 ⟨1, 1, "seat", 100⟩) 3 30 ++
  transaction 3 (.applyPaymentCreated 53 22) 2 70 ++
  transaction 4 (.applyPaymentSucceeded 62 22) 2 80 ++
  transaction 5 (.applyExpirationComplete 22 22) 2 90

/-- A ticket is ordered and paid for, and the order expires. -/
def sold (protobuf : Protobuf) : List Event :=
  offering.map .tickets ++ ordering.map .orders ++ locking.map .tickets ++ paying.map .payments ++
    (timing protobuf).map .expiration

/-- Orders hears of all of it in the end. -/
def sale (protobuf : Protobuf) : List Event := sold protobuf ++ closing.map .orders

/-- The timer of the order, when it is due. -/
def timer : Expiration.QueuedJob :=
  Expiration.ExpirationScheduler.schedule 0 0 ⟨uuidText 22, 900000⟩

theorem stream_timing : (run (Expiration.step protobuf) (.init 0) (timing protobuf)).stream =
    [timer.message protobuf (minutes 15)] := by
  have hhandle : Expiration.OrderCreatedHandler.handle protobuf (marshalOrder protobuf placed) =
      .ok ⟨uuidText 22, 900000⟩ := by
    show Expiration.OrderCreatedHandler.handle protobuf (protobuf.orderCreated.marshal _) = _
    rw [Expiration.OrderCreatedHandler.handle, Codec.unmarshal_marshal]
    exact if_neg (by decide +kernel)
  simp only [timing, run_cons, run_nil, Expiration.step, hhandle]
  rfl

/-- What Orders announces reaches Tickets. -/
theorem received_placed_tickets : received (Tickets.OrderHandler.handle protobuf orderCreatedSubject
    (marshalOrder protobuf placed)) = some (.reserveTicketFromOrder 23 22 1) := by
  show received (Tickets.OrderHandler.handle protobuf orderCreatedSubject
    (protobuf.orderCreated.marshal _)) = _
  rw [Tickets.OrderHandler.handle, if_pos rfl, Tickets.OrderHandler.handleCreated,
    Codec.unmarshal_marshal]
  decide +kernel

theorem received_placed_payments : received (Payments.OrderHandler.handle protobuf
    orderCreatedSubject (marshalOrder protobuf placed)) =
      some (.upsertOrderFromEvent 23 ⟨0, 22, 100, .created, "alice"⟩) := by
  show received (Payments.OrderHandler.handle protobuf orderCreatedSubject
    (protobuf.orderCreated.marshal _)) = _
  rw [Payments.OrderHandler.handle, if_pos rfl, Payments.OrderHandler.handleCreated,
    Codec.unmarshal_marshal]
  decide +kernel

theorem received_timer : received (Orders.ExpirationCompleteHandler.handle protobuf
    (timer.message protobuf (minutes 15)).payload) = some (.applyExpirationComplete 22 22) := by
  show received (Orders.ExpirationCompleteHandler.handle protobuf
    (protobuf.expirationComplete.marshal _)) = _
  rw [Orders.ExpirationCompleteHandler.handle, Codec.unmarshal_marshal]
  decide +kernel

/-- What Tickets announces of the ticket. -/
def offered : Contracts.TicketEvent := .created ⟨2, 0, ⟨1, "seat", 100, "bob"⟩, 0⟩

def locked : Contracts.TicketEvent := .updated ⟨43, 0, ⟨1, "seat", 100, "bob"⟩, 1⟩

theorem received_offered : received (Orders.TicketHandler.handle protobuf ticketCreatedSubject
    (marshalTicket protobuf offered)) =
      some (.upsertTicketFromEvent 2 ⟨0, 1, "seat", 100⟩) := by
  show received (Orders.TicketHandler.handle protobuf ticketCreatedSubject
    (protobuf.ticketCreated.marshal _)) = _
  rw [Orders.TicketHandler.handle, if_pos rfl, Codec.unmarshal_marshal]
  decide +kernel

theorem received_locked : received (Orders.TicketHandler.handle protobuf ticketUpdatedSubject
    (marshalTicket protobuf locked)) =
      some (.upsertTicketFromEvent 43 ⟨1, 1, "seat", 100⟩) := by
  show received (Orders.TicketHandler.handle protobuf ticketUpdatedSubject
    (protobuf.ticketUpdated.marshal _)) = _
  rw [Orders.TicketHandler.handle, if_neg (by decide), if_pos rfl, Codec.unmarshal_marshal]
  decide +kernel

/-- What Payments announces of the payment. -/
def begun : Contracts.PaymentEvent := .created ⟨53, 0, 52, 22⟩

def succeeded : Contracts.PaymentEvent := .succeeded ⟨62, 0, 52, 22⟩

theorem received_begun : receivePayment protobuf paymentCreatedSubject
    (marshalPayment protobuf begun) = some (.applyPaymentCreated 53 22) := by
  show receivePayment protobuf paymentCreatedSubject (protobuf.paymentCreated.marshal _) = _
  rw [receivePayment, if_pos rfl, Orders.PaymentCreatedHandler.handle, Orders.handlePayment,
    Codec.unmarshal_marshal]
  decide +kernel

theorem received_succeeded : receivePayment protobuf paymentSucceededSubject
    (marshalPayment protobuf succeeded) = some (.applyPaymentSucceeded 62 22) := by
  show receivePayment protobuf paymentSucceededSubject (protobuf.paymentSucceeded.marshal _) = _
  rw [receivePayment, if_neg (by decide), Orders.PaymentResultHandler.handle, if_pos rfl,
    Orders.handlePayment, Codec.unmarshal_marshal]
  decide +kernel

variable (protobuf)

/-- All that Orders hears of at the end is announced. -/
theorem allowed_closing : ∀ e ∈ closing, ∀ y, Allowed protobuf
    ⟨Tickets.serve 0 (offering ++ locking), y, Payments.serve 0 paying,
      run (Expiration.step protobuf) (.init 0) (timing protobuf)⟩ (.orders e) := by
  have hlocked : ∃ e ∈ (Tickets.serve 0 (offering ++ locking)).world.db.outboxEvents.rows,
      e.subject = ticketUpdatedSubject ∧ e.payload = locked := by decide +kernel
  have hbegun : ∃ e ∈ (Payments.serve 0 paying).world.db.outboxEvents.rows,
      e.subject = paymentCreatedSubject ∧ e.payload = begun := by decide +kernel
  have hsucceeded : ∃ e ∈ (Payments.serve 0 paying).world.db.outboxEvents.rows,
      e.subject = paymentSucceededSubject ∧ e.payload = succeeded := by decide +kernel
  refine List.forall_mem_append.mpr ⟨List.forall_mem_append.mpr
    ⟨List.forall_mem_append.mpr ⟨?_, ?_⟩, ?_⟩, ?_⟩
  · obtain ⟨row, hrow, hsubject, hpayload⟩ := hlocked
    refine allowed_orders fun _ => Or.inl ⟨row, hrow, ?_⟩
    rw [hsubject, hpayload]
    exact received_locked
  · obtain ⟨row, hrow, hsubject, hpayload⟩ := hbegun
    refine allowed_orders fun _ => Or.inr (Or.inl ⟨row, hrow, ?_⟩)
    rw [hsubject, hpayload]
    exact received_begun
  · obtain ⟨row, hrow, hsubject, hpayload⟩ := hsucceeded
    refine allowed_orders fun _ => Or.inr (Or.inl ⟨row, hrow, ?_⟩)
    rw [hsubject, hpayload]
    exact received_succeeded
  · refine allowed_orders fun _ => Or.inr (Or.inr ⟨_, ?_, received_timer⟩)
    show _ ∈ (run (Expiration.step protobuf) (.init 0) (timing protobuf)).stream
    rw [stream_timing]
    exact List.mem_singleton_self _

/-- The services before Orders hears of the rest. -/
theorem run_sold (events : Events Orders.Call) (hevents : ∀ e ∈ events, e ∈ closing) :
    run (step protobuf) (init 0 0 0 0) (sold protobuf ++ events.map .orders) =
      after (offering ++ locking) (ordering ++ events) paying
        (run (Expiration.step protobuf) (.init 0) (timing protobuf)) := by
  have hplaced : ∃ e ∈ (Orders.serve 0 ordering).world.db.outboxEvents.rows,
      e.subject = orderCreatedSubject ∧ e.payload = placed := by decide +kernel
  obtain ⟨row, hrow, hsubject, hpayload⟩ := hplaced
  rw [sold, run_append, run_append, run_append, run_append, run_append,
    show init 0 0 0 0 = after [] [] [] (.init 0) from rfl, run_tickets, List.nil_append,
    run_orders, List.nil_append, run_tickets, run_payments, List.nil_append, run_expiration,
    run_orders]
  · exact fun e he => allowed_closing protobuf e (hevents e he)
  · intro e he y
    rcases List.mem_cons.mp he with rfl | he
    · exact ⟨row, hrow, hsubject, by rw [hpayload]⟩
    · rcases List.mem_pair.mp he with rfl | rfl <;> trivial
  · refine List.forall_mem_append.mpr ⟨List.forall_mem_append.mpr ⟨?_, ?_⟩, ?_⟩
    · refine allowed_payments fun _ => ⟨row, hrow, ?_⟩
      rw [hsubject, hpayload]
      exact received_placed_payments
    · exact allowed_payments fun h => absurd rfl h
    · exact allowed_payments fun h => absurd rfl h
  · refine allowed_tickets fun _ => ⟨row, hrow, ?_⟩
    rw [hsubject, hpayload]
    exact received_placed_tickets
  · have hoffered : ∃ e ∈ (Tickets.serve 0 offering).world.db.outboxEvents.rows,
        e.subject = ticketCreatedSubject ∧ e.payload = offered := by decide +kernel
    obtain ⟨row, hrow, hsubject, hpayload⟩ := hoffered
    refine List.forall_mem_append.mpr ⟨?_, ?_⟩
    · refine allowed_orders fun _ => Or.inl ⟨row, hrow, ?_⟩
      rw [hsubject, hpayload]
      exact received_offered
    · exact allowed_orders fun h => absurd rfl h
  · exact allowed_tickets fun h => absurd rfl h

/-- The services after the sale. -/
theorem run_sale : run (step protobuf) (init 0 0 0 0) (sale protobuf) =
    after (offering ++ locking) (ordering ++ closing) paying
      (run (Expiration.step protobuf) (.init 0) (timing protobuf)) :=
  run_sold protobuf closing fun _ he => he

/-- Orders applies what it is told with the end of a transaction of the last part. -/
theorem applied_sale {call : Orders.Call} {id : Uuid} (k i : ℕ)
    (hk : closing = closing.take k ++ .finish i :: closing.drop (k + 1))
    (hid : call.eventID? = some id)
    (hcall : (Orders.serve 0 (ordering ++ closing.take k)).sessions[i]?.map Session.call =
      some call)
    (hold : id ∉ (Orders.serve 0 (ordering ++ closing.take k)).world.db.processedEvents)
    (hnew : id ∈ (Orders.serve 0 (ordering ++ closing.take k ++
      [.finish i])).world.db.processedEvents) :
    Applied protobuf call (init 0 0 0 0) (sale protobuf) := by
  refine ⟨sold protobuf ++ (closing.take k).map .orders, .orders (.finish i),
    (closing.drop (k + 1)).map .orders, ?_, ?_⟩
  · rw [sale, List.append_assoc, ← List.map_cons, ← List.map_append, ← hk]
  · rw [run_sold protobuf _ fun e he => List.mem_of_mem_take he]
    rw [Orders.serve, run_concat] at hnew
    exact applies_of_processed hid hcall hold hnew

end Sale

end Services

end Integration
