import PolyglotTicketing.Expiration.Timers
import PolyglotTicketing.Integration.Deliveries
import PolyglotTicketing.Integration.System
import PolyglotTicketing.Payments.Outbox

/-!
# The four services together

Tickets, Orders, Payments and Expiration, each with any number of transactions whose statements
interleave, and the messages between them. What a service has committed to its outbox can reach the
others at any later time and any number of times, and so can what Expiration has published: a
handler begins with the payload of such a message (`Services.Allowed`). The requests of the users
can be anything.

`Linked` is what holds of the services together in every reachable state: what a transaction
handles, another service has announced, and the timers of Expiration are those of the orders.
-/

namespace Integration

open Platform Contracts Messaging Relational Transaction Transition Wire

/-- The services. -/
structure Services where
  tickets : Tickets.System
  orders : Orders.System
  payments : Payments.System
  expiration : Expiration.Service

namespace Services

/-- Something happens in one of the services. -/
inductive Event where
  | tickets (e : Transaction.Event Int Fresh Tickets.Call)
  | orders (e : Transaction.Event Int Fresh Orders.Call)
  | payments (e : Transaction.Event Int Fresh Payments.Call)
  | expiration (e : Expiration.Event)

/-- All services with migrated databases. -/
def init (tickets orders payments expiration : Int) : Services where
  tickets := ⟨Tickets.State.init tickets, []⟩
  orders := ⟨Orders.State.init orders, []⟩
  payments := ⟨Payments.State.init payments, []⟩
  expiration := .init expiration

variable (protobuf : Protobuf)

/-- Tickets gets the call from a message of Orders. -/
def TicketsHandles (s : Services) (call : Tickets.Call) : Prop :=
  ∃ e ∈ s.orders.world.db.outboxEvents.rows,
    received (Tickets.OrderHandler.handle protobuf e.subject (marshalOrder protobuf e.payload)) =
      some call

/-- Orders gets the call from a message of Tickets, Payments or Expiration. -/
def OrdersHandles (s : Services) (call : Orders.Call) : Prop :=
  (∃ e ∈ s.tickets.world.db.outboxEvents.rows,
    received (Orders.TicketHandler.handle protobuf e.subject (marshalTicket protobuf e.payload)) =
      some call) ∨
  (∃ e ∈ s.payments.world.db.outboxEvents.rows,
    receivePayment protobuf e.subject (marshalPayment protobuf e.payload) = some call) ∨
  ∃ m ∈ s.expiration.stream,
    received (Orders.ExpirationCompleteHandler.handle protobuf m.payload) = some call

/-- Payments gets the call from a message of Orders. -/
def PaymentsHandles (s : Services) (call : Payments.Call) : Prop :=
  ∃ e ∈ s.orders.world.db.outboxEvents.rows,
    received (Payments.OrderHandler.handle protobuf e.subject (marshalOrder protobuf e.payload)) =
      some call

/-- Handlers begin only with a message that another service has sent. -/
def Allowed (s : Services) : Event → Prop
  | .tickets (.start call) => call.eventID? ≠ none → s.TicketsHandles protobuf call
  | .orders (.start call) => call.eventID? ≠ none → s.OrdersHandles protobuf call
  | .payments (.start call) => call.eventID? ≠ none → s.PaymentsHandles protobuf call
  | .expiration (.deliver payload _ _) => ∃ e ∈ s.orders.world.db.outboxEvents.rows,
    e.subject = orderCreatedSubject ∧ marshalOrder protobuf e.payload = payload
  | _ => True

instance (s : Services) (call : Tickets.Call) : Decidable (s.TicketsHandles protobuf call) :=
  inferInstanceAs (Decidable (∃ _ ∈ _, _))

instance (s : Services) (call : Orders.Call) : Decidable (s.OrdersHandles protobuf call) :=
  inferInstanceAs (Decidable (_ ∨ _ ∨ _))

instance (s : Services) (call : Payments.Call) : Decidable (s.PaymentsHandles protobuf call) :=
  inferInstanceAs (Decidable (∃ _ ∈ _, _))

instance (s : Services) (e : Event) : Decidable (s.Allowed protobuf e) := by
  unfold Allowed
  split <;> infer_instance

/-- One event. -/
def step (s : Services) (e : Event) : Services :=
  if s.Allowed protobuf e then
    match e with
    | .tickets e => { s with tickets := s.tickets.step Tickets.engine Tickets.program e }
    | .orders e => { s with orders := s.orders.step Orders.engine Orders.program e }
    | .payments e => { s with payments := s.payments.step Payments.engine Payments.program e }
    | .expiration e => { s with expiration := Expiration.step protobuf s.expiration e }
  else s

/-- What holds of the services together. -/
structure Linked (s : Services) : Prop where
  tickets : Tickets.discipline.Sound Tickets.engine s.tickets
  chronicled : Tickets.Chronicled s.tickets.world.db
  coherent : Coherent ⟨s.orders, s.payments⟩
  announced : ∀ e ∈ s.payments.world.db.outboxEvents.rows, Payments.Announced e
  timed : Expiration.Timed protobuf s.expiration
  /-- A timer is that of an order, and not due before the order expires. -/
  timers : ∀ j ∈ s.expiration.jobs.rows, ∃ id o, s.orders.world.db.orders.find? id = some o ∧
    j.orderId = uuidText id ∧ Expiration.timestampMs (.new o.expiresAt) ≤ j.due
  /-- What Tickets handles, Orders has announced. -/
  reserves : ∀ t ∈ s.tickets.sessions, t.call.eventID? ≠ none →
    ∃ e ∈ s.orders.world.db.outboxEvents.rows, t.call = Tickets.handle e.payload
  /-- What Orders projects, Tickets has announced. -/
  projects : ∀ t ∈ s.orders.sessions, ∀ e x, t.call = .upsertTicketFromEvent e x →
    ∃ row ∈ s.tickets.world.db.outboxEvents.rows, t.call = Orders.handleTicket row.payload
  /-- Orders withdraws an order for Expiration only after its timer. -/
  expires : ∀ t ∈ s.orders.sessions, ∀ e id, t.call = .applyExpirationComplete e id →
    t.opened.db.orders.find? id ≠ none ∧ ∃ o, s.orders.world.db.orders.find? id = some o ∧
      Expiration.timestampMs (.new o.expiresAt) ≤ Expiration.dateNow s.expiration.clock
  /-- What Payments handles, Orders has announced. -/
  follows : ∀ t ∈ s.payments.sessions, t.call.eventID? ≠ none →
    ∃ e ∈ s.orders.world.db.outboxEvents.rows, Payments.handle e.payload = .ok t.call

theorem linked_init (tickets orders payments expiration : Int) :
    Linked protobuf (init tickets orders payments expiration) where
  tickets := Discipline.sound_init (Tickets.inv_init tickets)
  chronicled := Tickets.chronicled_init tickets
  coherent := coherent_init orders payments
  announced := by simp [init, Payments.State.init, Payments.Db.init]
  timed := Expiration.timed_init protobuf expiration
  timers := by simp [init, Expiration.Service.init]
  reserves := by simp [init]
  projects := by simp [init]
  expires := by simp [init]
  follows := by simp [init]

variable {protobuf} {s : Services}

section Tickets

/-- What an event does to the tickets. -/
theorem Linked.tickets_cases (h : Linked protobuf s)
    (e : Transaction.Event Int Fresh Tickets.Call) :
    (s.tickets.step Tickets.engine Tickets.program e).world.db = s.tickets.world.db ∨
      ∃ (t : Tickets.Tran) (r : Tickets.Reply), t ∈ s.tickets.sessions ∧
        Tickets.Change t.call t.held s.tickets.world r
          (s.tickets.step Tickets.engine Tickets.program e).world.db := by
  refine (Server.step_world_cases s.tickets e).imp_right ?_
  rintro ⟨i, t, r, -, ht, hphase, hdb⟩
  rw [hdb]
  exact ⟨t, r, List.mem_of_getElem? ht, h.tickets.guar_of_commit ht hphase⟩

/-- An event of Tickets leaves the tickets and the outbox alone, or adds a version of a ticket. -/
theorem Linked.tickets_advances (h : Linked protobuf s)
    (e : Transaction.Event Int Fresh Tickets.Call) :
    Tickets.Unchanged s.tickets.world.db
        (s.tickets.step Tickets.engine Tickets.program e).world.db ∨
      ∃ t row, Tickets.Advances s.tickets.world.db
        (s.tickets.step Tickets.engine Tickets.program e).world.db t row := by
  rcases h.tickets_cases e with hdb | ⟨t, r, -, hchange⟩
  · rw [hdb]
    exact Or.inl ⟨rfl, rfl⟩
  · refine (hchange.advances fun x hx => ?_).imp_right And.right
    exact (h.chronicled.history x hx).nonneg

/-- What Tickets has announced stays announced. -/
theorem Linked.ticketRows_subset (h : Linked protobuf s)
    (e : Transaction.Event Int Fresh Tickets.Call) :
    ∀ row ∈ s.tickets.world.db.outboxEvents.rows,
      row ∈ (s.tickets.step Tickets.engine Tickets.program e).world.db.outboxEvents.rows := by
  intro row hrow
  rcases h.tickets_advances e with ⟨-, houtbox⟩ | ⟨t, x, hadvances⟩
  · rwa [houtbox]
  · rw [hadvances.outbox]
    exact List.mem_append_left _ hrow

/-- What Tickets handles is a message of Orders. -/
theorem Linked.handle_of_ticketsHandles (h : Linked protobuf s) {call : Tickets.Call}
    (hhandles : s.TicketsHandles protobuf call) :
    ∃ e ∈ s.orders.world.db.outboxEvents.rows, call = Tickets.handle e.payload := by
  obtain ⟨e, he, hreceived⟩ := hhandles
  exact ⟨e, he, handle_of_ticketsOrderHandler h.coherent.consistent he hreceived⟩

/-- An event of Tickets keeps the services linked. -/
theorem Linked.step_tickets (h : Linked protobuf s)
    {e : Transaction.Event Int Fresh Tickets.Call}
    (hallowed : s.Allowed protobuf (.tickets e)) :
    Linked protobuf { s with tickets := s.tickets.step Tickets.engine Tickets.program e } := by
  refine { h with tickets := ?_, chronicled := ?_, reserves := ?_, projects := ?_ }
  · exact Discipline.sound_step Tickets.allSafe h.tickets e
  · rcases h.tickets_cases e with hdb | ⟨t, r, -, hchange⟩
    · exact hdb ▸ h.chronicled
    · exact h.chronicled.change hchange
  · intro t ht hevent
    rcases Server.step_session_cases ht with ⟨t', ht', hcall, -⟩ | ⟨rfl, -⟩
    · rw [hcall] at hevent ⊢
      exact h.reserves t' ht' hevent
    · exact h.handle_of_ticketsHandles (hallowed hevent)
  · intro t ht e' x hcall
    obtain ⟨row, hrow, hhandle⟩ := h.projects t ht e' x hcall
    exact ⟨row, h.ticketRows_subset e row hrow, hhandle⟩

end Tickets

section Orders

/-- Orders are not deleted, and keep their user, their ticket and their time. -/
theorem Linked.order_evolves (h : Linked protobuf s)
    (e : Transaction.Event Int Fresh Orders.Call) {id : Uuid} {o : Orders.Order}
    (hfind : s.orders.world.db.orders.find? id = some o) :
    ∃ o', (s.orders.step Orders.engine Orders.program e).world.db.orders.find? id = some o' ∧
      o.Evolves o' := by
  rcases h.coherent.orders_cases e with hdb | ⟨i, t, r, -, -, -, hchange⟩
  · exact ⟨o, hdb ▸ hfind, .refl o⟩
  · exact hchange.frame.evolves id o hfind

/-- What Orders has announced stays announced. -/
theorem Linked.orderRows_subset (h : Linked protobuf s)
    (e : Transaction.Event Int Fresh Orders.Call) :
    ∀ row ∈ s.orders.world.db.outboxEvents.rows,
      row ∈ (s.orders.step Orders.engine Orders.program e).world.db.outboxEvents.rows := by
  intro row hrow
  rcases h.coherent.orders_cases e with hdb | ⟨i, t, r, -, -, -, hchange⟩
  · exact hdb ▸ hrow
  · exact hchange.outbox_subset row hrow

/-- What Orders handles is a message of one of the others. -/
theorem Linked.handle_of_ordersHandles (h : Linked protobuf s) {call : Orders.Call}
    (hhandles : s.OrdersHandles protobuf call) :
    (∃ e ∈ s.tickets.world.db.outboxEvents.rows, call = Orders.handleTicket e.payload) ∨
    (∃ e ∈ s.payments.world.db.outboxEvents.rows, call = Orders.handle e.payload) ∨
    ∃ id o, call = .applyExpirationComplete id id ∧
      s.orders.world.db.orders.find? id = some o ∧
      Expiration.timestampMs (.new o.expiresAt) ≤ Expiration.dateNow s.expiration.clock := by
  rcases hhandles with ⟨e, he, hreceived⟩ | ⟨e, he, hreceived⟩ | ⟨m, hm, hreceived⟩
  · exact Or.inl ⟨e, he, handle_of_ticketHandler h.chronicled he hreceived⟩
  · exact Or.inr (Or.inl ⟨e, he, handle_of_receivePayment (h.announced e he) hreceived⟩)
  · -- The message was published for a timer that was due.
    obtain ⟨j, hj, now, hnow, hdue, rfl⟩ := h.timed.stream m hm
    obtain ⟨id, o, hfind, hid, hexpires⟩ := h.timers j hj
    simp only [Expiration.QueuedJob.message, hid] at hreceived
    refine Or.inr (Or.inr ⟨id, o, call_of_expirationCompleteHandler hreceived, hfind, ?_⟩)
    exact (hexpires.trans hdue).trans (Int.ediv_le_ediv (by decide) hnow)

/-- The typed system of Orders and Payments allows what the services allow. -/
theorem Linked.allowed_orders (h : Linked protobuf s)
    {e : Transaction.Event Int Fresh Orders.Call} (hallowed : s.Allowed protobuf (.orders e)) :
    Integration.Allowed ⟨s.orders, s.payments⟩ (.orders e) := by
  cases e with
  | start call =>
    intro hpayment
    have hevent : call.eventID? ≠ none := by
      cases call <;> simp_all [Orders.Call.HandlesPayment, Orders.Call.eventID?, Orders.Call.move?]
    rcases h.handle_of_ordersHandles (hallowed hevent) with
      ⟨row, -, rfl⟩ | ⟨row, hrow, rfl⟩ | ⟨id, o, rfl, -⟩
    · cases hpayload : row.payload <;>
        simp [hpayload, Orders.handleTicket, Orders.Call.HandlesPayment] at hpayment
    · exact ⟨row, hrow, rfl⟩
    · simp [Orders.Call.HandlesPayment] at hpayment
  | _ => trivial

/-- An event of Orders keeps the services linked. -/
theorem Linked.step_orders (h : Linked protobuf s)
    {e : Transaction.Event Int Fresh Orders.Call} (hallowed : s.Allowed protobuf (.orders e)) :
    Linked protobuf { s with orders := s.orders.step Orders.engine Orders.program e } := by
  refine { h with
    coherent := ?_, timers := ?_, reserves := ?_, projects := ?_, expires := ?_, follows := ?_ }
  · exact h.coherent.step_orders (h.allowed_orders hallowed)
  · intro j hj
    obtain ⟨id, o, hfind, hid, hexpires⟩ := h.timers j hj
    obtain ⟨o', hfind', hevolves⟩ := h.order_evolves e hfind
    exact ⟨id, o', hfind', hid, hevolves.expiresAt ▸ hexpires⟩
  · intro t ht hevent
    obtain ⟨row, hrow, hhandle⟩ := h.reserves t ht hevent
    exact ⟨row, h.orderRows_subset e row hrow, hhandle⟩
  · -- A transaction that begins handles a message of the kind that its call tells.
    intro t ht e' x hcall
    rcases Server.step_session_cases ht with ⟨t', ht', hcall', -⟩ | ⟨rfl, -⟩
    · rw [hcall']
      exact h.projects t' ht' e' x (hcall' ▸ hcall)
    · rcases h.handle_of_ordersHandles (hallowed (by simp [hcall, Orders.Call.eventID?])) with
        hticket | ⟨row, -, hpayment⟩ | ⟨id, o, hexpired, -⟩
      · exact hticket
      · rw [hcall] at hpayment
        cases hpayload : row.payload <;> simp [hpayload, Orders.handle] at hpayment
      · simp [hcall] at hexpired
  · intro t ht e' id hcall
    rcases Server.step_session_cases ht with ⟨t', ht', hcall', hopened⟩ | ⟨rfl, hopened⟩
    · obtain ⟨hknown, o, hfind, hexpires⟩ := h.expires t' ht' e' id (hcall' ▸ hcall)
      obtain ⟨o', hfind', hevolves⟩ := h.order_evolves e hfind
      exact ⟨hopened ▸ hknown, o', hfind', hevolves.expiresAt ▸ hexpires⟩
    · rcases h.handle_of_ordersHandles
        (hallowed (by simp [hcall, Orders.Call.eventID?, Orders.Call.move?])) with
        ⟨row, -, hticket⟩ | ⟨row, -, hpayment⟩ | ⟨x, o, hexpired, hfind, hexpires⟩
      · rw [hcall] at hticket
        cases hpayload : row.payload <;> simp [hpayload, Orders.handleTicket] at hticket
      · rw [hcall] at hpayment
        cases hpayload : row.payload <;> simp [hpayload, Orders.handle] at hpayment
      · rw [hcall] at hexpired
        obtain ⟨-, rfl⟩ := Orders.Call.applyExpirationComplete.inj hexpired
        obtain ⟨o', hfind', hevolves⟩ := h.order_evolves (.start t.call) hfind
        exact ⟨by simp [hopened, hfind], o', hfind', hevolves.expiresAt ▸ hexpires⟩
  · intro t ht hevent
    obtain ⟨row, hrow, hhandle⟩ := h.follows t ht hevent
    exact ⟨row, h.orderRows_subset e row hrow, hhandle⟩

end Orders

section Payments

/-- What Payments handles is a message of Orders. -/
theorem Linked.handle_of_paymentsHandles (h : Linked protobuf s) {call : Payments.Call}
    (hhandles : s.PaymentsHandles protobuf call) :
    ∃ e ∈ s.orders.world.db.outboxEvents.rows, Payments.handle e.payload = .ok call := by
  obtain ⟨e, he, hreceived⟩ := hhandles
  exact ⟨e, he, handle_of_paymentsOrderHandler h.coherent.consistent he hreceived⟩

/-- The typed system of Orders and Payments allows what the services allow. -/
theorem Linked.allowed_payments (h : Linked protobuf s)
    {e : Transaction.Event Int Fresh Payments.Call}
    (hallowed : s.Allowed protobuf (.payments e)) :
    Integration.Allowed ⟨s.orders, s.payments⟩ (.payments e) := by
  cases e with
  | start call =>
    intro hprojects
    refine h.handle_of_paymentsHandles (hallowed ?_)
    cases call <;> simp_all [Payments.Call.ProjectsOrder, Payments.Call.eventID?]
  | _ => trivial

/-- An event of Payments keeps the services linked. -/
theorem Linked.step_payments (h : Linked protobuf s)
    {e : Transaction.Event Int Fresh Payments.Call}
    (hallowed : s.Allowed protobuf (.payments e)) :
    Linked protobuf { s with payments := s.payments.step Payments.engine Payments.program e } := by
  refine { h with coherent := ?_, announced := ?_, follows := ?_ }
  · exact h.coherent.step_payments (h.allowed_payments hallowed)
  · rcases h.coherent.payments_cases e with hdb | ⟨t, r, -, hchange⟩
    · exact hdb ▸ h.announced
    · exact hchange.announced h.announced
  · intro t ht hevent
    rcases Server.step_session_cases ht with ⟨t', ht', hcall, -⟩ | ⟨rfl, -⟩
    · rw [hcall] at hevent ⊢
      exact h.follows t' ht' hevent
    · exact h.handle_of_paymentsHandles (hallowed hevent)

end Payments

section Expiration

/-- The clock of Expiration does not go back. -/
theorem clock_le_step (x : Expiration.Service) (e : Expiration.Event) :
    x.clock ≤ (Expiration.step protobuf x e).clock := by
  have hsteps := Expiration.step_cases protobuf x e
  generalize Expiration.step protobuf x e = x' at hsteps ⊢
  cases hsteps with
  | stutter => exact le_refl _
  | tick hle => exact hle
  | added => exact le_refl _
  | worked => exact le_refl _

/-- An event of Expiration keeps the services linked. -/
theorem Linked.step_expiration (h : Linked protobuf s) {e : Expiration.Event}
    (hallowed : s.Allowed protobuf (.expiration e)) :
    Linked protobuf { s with expiration := Expiration.step protobuf s.expiration e } := by
  have hsteps := Expiration.step_cases protobuf s.expiration e
  refine { h with timed := h.timed.steps hsteps, timers := ?_, expires := ?_ }
  · intro j hj
    change j ∈ (Expiration.step protobuf s.expiration e).jobs.rows at hj
    generalize Expiration.step protobuf s.expiration e = x' at hsteps hj
    cases hsteps with
    | stutter => exact h.timers j hj
    | tick => exact h.timers j hj
    | @added payload lag job hhandle hnew =>
      rcases (Table.mem_insert hnew).mp hj with hj | rfl
      · exact h.timers j hj
      · -- The new timer is due when the order expires, or now if it is overdue.
        obtain ⟨row, hrow, hsubject, rfl⟩ := hallowed
        obtain ⟨o, ho, horder, hexpires⟩ :=
          job_of_orderCreatedHandler h.coherent.consistent hrow hsubject hhandle
        refine ⟨o.id, o, Table.find?_of_mem ho, horder, ?_⟩
        simp only [Expiration.QueuedJob.due, Expiration.ExpirationScheduler.schedule]
        omega
    | @worked _ j₀ j' stream runAt _ hfind _ _ hbecomes =>
      have hj₀ := Table.mem_of_find? hfind
      rcases Table.mem_replace (r := j') (hbecomes.jobId.symm ▸ hfind) |>.mp hj with rfl | ⟨hj, -⟩
      · obtain ⟨id, o, hfind', hid, hexpires⟩ := h.timers j₀ hj₀
        exact ⟨id, o, hfind', hbecomes.orderId.trans hid, hbecomes.due ▸ hexpires⟩
      · exact h.timers j hj
  · intro t ht e' id hcall
    obtain ⟨hknown, o, hfind, hexpires⟩ := h.expires t ht e' id hcall
    refine ⟨hknown, o, hfind, hexpires.trans ?_⟩
    exact Int.ediv_le_ediv (by decide) (clock_le_step s.expiration e)

end Expiration

/-- Every event keeps the services linked. -/
theorem Linked.step (h : Linked protobuf s) (e : Event) : Linked protobuf (s.step protobuf e) := by
  unfold Services.step
  split
  next hallowed =>
    cases e with
    | tickets e => exact h.step_tickets hallowed
    | orders e => exact h.step_orders hallowed
    | payments e => exact h.step_payments hallowed
    | expiration e => exact h.step_expiration hallowed
  next => exact h

/-- What an event does to the databases: at most one of them changes, by the commit of a
transaction. -/
inductive Moves (s s' : Services) : Prop
  | quiet (tickets : s'.tickets.world.db = s.tickets.world.db)
      (orders : s'.orders.world.db = s.orders.world.db)
      (payments : s'.payments.world.db = s.payments.world.db)
  | tickets {t : Tickets.Tran} {r : Tickets.Reply} (ht : t ∈ s.tickets.sessions)
      (hchange : Tickets.Change t.call t.held s.tickets.world r s'.tickets.world.db)
      (orders : s'.orders.world.db = s.orders.world.db)
      (payments : s'.payments.world.db = s.payments.world.db)
  | orders {t : Orders.Tran} {r : Orders.Reply} (ht : t ∈ s.orders.sessions)
      (hchange : Orders.Change t.call t.opened t.held s.orders.world r s'.orders.world.db)
      (tickets : s'.tickets.world.db = s.tickets.world.db)
      (payments : s'.payments.world.db = s.payments.world.db)
  | payments {t : Payments.Tran} {r : Payments.Reply} (ht : t ∈ s.payments.sessions)
      (hchange : Payments.Change t.call t.held s.payments.world r s'.payments.world.db)
      (tickets : s'.tickets.world.db = s.tickets.world.db)
      (orders : s'.orders.world.db = s.orders.world.db)

/-- Every event is one of these moves. -/
theorem Linked.moves (h : Linked protobuf s) (e : Event) : Moves s (s.step protobuf e) := by
  unfold Services.step
  split
  next =>
    cases e with
    | tickets e =>
      rcases h.tickets_cases e with hdb | ⟨t, r, ht, hchange⟩
      · exact .quiet hdb rfl rfl
      · exact .tickets ht hchange rfl rfl
    | orders e =>
      rcases h.coherent.orders_cases e with hdb | ⟨i, t, r, -, ht, -, hchange⟩
      · exact .quiet rfl hdb rfl
      · exact .orders (List.mem_of_getElem? ht) hchange rfl rfl
    | payments e =>
      rcases h.coherent.payments_cases e with hdb | ⟨t, r, ht, hchange⟩
      · exact .quiet rfl rfl hdb
      · exact .payments ht hchange rfl rfl
    | expiration e => exact .quiet rfl rfl rfl
  next => exact .quiet rfl rfl rfl

variable (protobuf) in
/-- The services are linked in every reachable state. -/
theorem linked_run (tickets orders payments expiration : Int) (events : List Event) :
    Linked protobuf (run (step protobuf) (init tickets orders payments expiration) events) :=
  run_invariant (P := Linked protobuf) (fun _ e h => h.step e)
    (linked_init protobuf tickets orders payments expiration) events

/-- With the event, Orders applies what it has been told: the transaction commits, and the message
has not been processed before. -/
def Applies (call : Orders.Call) (s : Services) (e : Event) : Prop :=
  ∃ i t r, e = .orders (.finish i) ∧ s.orders.sessions[i]? = some t ∧
    t.phase = .running (.done r) ∧ t.call = call ∧
    ∀ x ∈ call.eventID?, x ∉ s.orders.world.db.processedEvents

/-- The commit with which Orders applies what it has been told. -/
theorem Applies.change {call : Orders.Call} {e : Event} (h : Linked protobuf s)
    (happlies : Applies call s e) :
    ∃ t ∈ s.orders.sessions, t.call = call ∧
      (∃ r, Orders.Change call t.opened t.held s.orders.world r
        (s.step protobuf e).orders.world.db) ∧
      ∀ x ∈ call.eventID?, x ∉ s.orders.world.db.processedEvents := by
  obtain ⟨i, t, r, rfl, ht, hphase, rfl, hnew⟩ := happlies
  have hdb : (s.step protobuf (.orders (.finish i))).orders.world.db =
      Orders.engine.applyAll t.pending s.orders.world.db := by
    simp [step, Allowed, Server.step, ht, hphase]
  rw [hdb]
  exact ⟨t, List.mem_of_getElem? ht, rfl,
    ⟨r, (h.coherent.orders.guar_of_commit ht hphase).2⟩, hnew⟩

variable (protobuf) in
/-- Orders has applied what it has been told. -/
def Applied (call : Orders.Call) (s : Services) (events : List Event) : Prop :=
  ∃ front e back, events = front ++ e :: back ∧ Applies call (run (step protobuf) s front) e

/-- What Orders brings about when it applies a message holds from then on, if nothing undoes it. -/
theorem Applied.lasting {call : Orders.Call} {events : List Event} {P : Services → Prop}
    (happlied : Applied protobuf call s events) (h : Linked protobuf s)
    (hnow : ∀ s e, Linked protobuf s → Applies call s e → P (s.step protobuf e))
    (hkeep : ∀ s e, Linked protobuf s → P s → P (s.step protobuf e)) :
    P (run (step protobuf) s events) := by
  obtain ⟨front, e, back, rfl, happlies⟩ := happlied
  exact run_of_established (fun s e h => h.step e) hkeep h fun hfront => hnow _ _ hfront happlies

end Services

end Integration
