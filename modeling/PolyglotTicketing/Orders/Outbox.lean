import PolyglotTicketing.Orders.Handlers
import PolyglotTicketing.Orders.Reservations
import PolyglotTicketing.Transaction.Writes

/-!
# What Orders announces

The outbox of Orders when every operation begins with a request or an event that the service
accepts, in the way of `Tickets.Outbox`. Every row is about a new order of a user for a ticket with
a price, or about an order that was canceled.
-/

namespace Orders

open Platform Contracts Relational Transaction Transition
open Wire (Protobuf Datable received exists_of_received)

/-- What comes in. The clock of the service shows `now` when an order is created. -/
inductive Request where
  | createOrder (now : Int) (ticketID userID : String)
  | cancelOrder (orderID userID : String)
  | ticketEvent (subject : String) (payload : List UInt8)
  | expirationComplete (payload : List UInt8)
  | paymentCreated (payload : List UInt8)
  | paymentResult (subject : String) (payload : List UInt8)

/-- The operation that begins with a request or an event, unless it is rejected. -/
def Request.call? (protobuf : Protobuf) : Request → Option Call
  | .createOrder now ticketID userID =>
    if Datable (now + expirationWindow) then received (Service.reserveTicket now ticketID userID)
    else none
  | .cancelOrder orderID userID => received (Service.cancelOrder orderID userID)
  | .ticketEvent subject payload => received (TicketHandler.handle protobuf subject payload)
  | .expirationComplete payload => received (ExpirationCompleteHandler.handle protobuf payload)
  | .paymentCreated payload => received (PaymentCreatedHandler.handle protobuf payload)
  | .paymentResult subject payload =>
    received (PaymentResultHandler.handle protobuf subject payload)

/-- The database `db` is reached when the service does what it is asked for. -/
def Reachable (protobuf : Protobuf) (db : Db) : Prop :=
  ∃ (clock : Int) (labels : List (Label Int Fresh Call Request)),
    db = (serve clock (labels.flatMap
      (Label.events (Request.call? protobuf) fun fresh => Datable fresh.occurredAt))).world.db

/-- What the service has checked before it begins an operation, and what its clock has shown. -/
def Call.Valid : Call → Prop
  | .reserveTicket input => ¬Blank input.userID ∧ Datable input.expiresAt
  | _ => True

section Valid

variable {protobuf : Protobuf} {call : Call} {payload : List UInt8}

/-- A valid reservation is by a user. -/
theorem of_validateTicketReservation {ticketID userID : String}
    (h : validateTicketReservation ticketID userID = []) : ¬Blank userID := by
  intro hblank
  rw [validateTicketReservation, validateOrderUser, if_pos hblank] at h
  split at h <;> simp at h

/-- A handler of payment events does not reserve a ticket. -/
theorem valid_of_handlePayment {codec : Wire.Codec Wire.PaymentEvent}
    {handler : Uuid → Uuid → Call} (hhandler : ∀ eventID orderID, (handler eventID orderID).Valid)
    (h : received (handlePayment codec handler payload) = some call) : call.Valid := by
  obtain ⟨q, hq, rfl⟩ := exists_of_received h
  rw [handlePayment] at hq
  repeat' split at hq
  all_goals cases hq
  exact hhandler _ _

/-- The handler of ticket events does not reserve a ticket. -/
theorem valid_of_ticketEvent {subject : String}
    (h : received (TicketHandler.handle protobuf subject payload) = some call) : call.Valid := by
  obtain ⟨q, hq, rfl⟩ := exists_of_received h
  simp only [TicketHandler.handle, TicketHandler.apply] at hq
  repeat' split at hq
  all_goals cases hq
  all_goals trivial

/-- An operation begins with valid arguments. -/
theorem Request.valid {request : Request} (h : request.call? protobuf = some call) :
    call.Valid := by
  cases request with
  | createOrder now ticketID userID =>
    rw [call?] at h
    split at h
    next hdatable =>
      obtain ⟨q, hq, rfl⟩ := exists_of_received h
      rw [Service.reserveTicket] at hq
      split at hq
      next => cases hq
      next hvalid =>
        cases hq
        exact ⟨of_validateTicketReservation (not_not.mp hvalid), hdatable⟩
    next => cases h
  | cancelOrder orderID userID =>
    obtain ⟨q, hq, rfl⟩ := exists_of_received h
    rw [Service.cancelOrder, Service.orderOfUser] at hq
    repeat' split at hq
    all_goals cases hq
    trivial
  | ticketEvent subject payload => exact valid_of_ticketEvent h
  | expirationComplete payload =>
    obtain ⟨q, hq, rfl⟩ := exists_of_received h
    rw [ExpirationCompleteHandler.handle] at hq
    repeat' split at hq
    all_goals cases hq
    trivial
  | paymentCreated payload => exact valid_of_handlePayment (by simp [Call.Valid]) h
  | paymentResult subject payload =>
    rw [call?, PaymentResultHandler.handle] at h
    split at h
    next => exact valid_of_handlePayment (by simp [Call.Valid]) h
    next =>
      split at h
      next => exact valid_of_handlePayment (by simp [Call.Valid]) h
      next => cases h

end Valid

/-- A row of the outbox that announces a new order. -/
def AnnouncedCreated (e : OutboxEvent OrderEvent) : Prop :=
  ∃ (input : TicketReservationInput) (id : Uuid) (ticket : Ticket) (n : ℕ) (fresh : Fresh),
    (¬Blank input.userID ∧ Datable input.expiresAt) ∧ ticket.Checks ∧
      e = orderCreatedEvent (newOrder input id) ticket n fresh

/-- A row of the outbox that announces the cancellation of an order. -/
def AnnouncedCanceled (e : OutboxEvent OrderEvent) : Prop :=
  ∃ (o : Order) (n : ℕ) (fresh : Fresh), 0 ≤ o.aggregateVersion ∧ e = orderCanceledEvent o n fresh

/-- All tickets and orders meet their constraints, and so do the announcements. -/
structure Db.Proper (db : Db) : Prop where
  tickets : ∀ t ∈ db.tickets.rows, t.Checks
  orders : ∀ o ∈ db.orders.rows, 0 ≤ o.aggregateVersion
  outbox : ∀ e ∈ db.outboxEvents.rows, AnnouncedCreated e ∨ AnnouncedCanceled e

/-- A commit of a valid operation keeps the database proper. -/
theorem Db.Proper.change {call : Call} {opened w : State} {held : List Key} {r : Reply} {db' : Db}
    (hdb : w.db.Proper) (hvalid : call.Valid) (h : Change call opened held w r db') :
    db'.Proper := by
  obtain ⟨htickets, horders, houtbox⟩ := hdb
  -- What moves an order counts up its version.
  have hmove : ∀ {o : Order} {id : Uuid} {target : Status}, w.db.orders.find? id = some o →
      ∀ x ∈ (w.db.orders.replace (o.withStatus target)).rows, 0 ≤ x.aggregateVersion := by
    intro o id target hfind x hx
    have ho := Table.mem_of_find? hfind
    rcases (mem_move target ho).mp hx with rfl | ⟨hx, -⟩
    · have hle := horders o ho
      change 0 ≤ o.aggregateVersion + 1
      omega
    · exact horders x hx
  cases h with
  | unchanged => exact ⟨htickets, horders, houtbox⟩
  | recorded => exact ⟨htickets, horders, houtbox⟩
  -- The ticket that is stored has passed the check of its price.
  | @projected e t _ _ _ hchecks =>
    refine ⟨fun x hx => ?_, horders, houtbox⟩
    rcases Table.mem_of_mem_upsert hx with rfl | hx
    · exact hchecks
    · exact htickets x hx
  -- A new order has version 0, and its announcement repeats what the service has validated.
  | @reserved input ticket id n fresh hcall hticket _ hnew _ _ _ happends =>
    subst hcall
    refine ⟨htickets, fun o ho => ?_, fun e he => ?_⟩
    · rcases (Table.mem_insert (r := newOrder input id) hnew).mp ho with ho | rfl
      · exact horders o ho
      · exact le_rfl
    · rcases (Table.mem_insert happends.new).mp he with he | rfl
      · exact houtbox e he
      · have hchecks := htickets ticket (Table.mem_of_find? hticket)
        exact Or.inl ⟨input, id, ticket, n, fresh, hvalid, hchecks, rfl⟩
  | advanced _ hfind => exact ⟨htickets, hmove hfind, houtbox⟩
  -- The announcement of a cancellation carries the version that the order has by then.
  | @canceled m o n fresh r _ hfind _ _ _ _ _ happends =>
    refine ⟨htickets, hmove hfind, fun e he => ?_⟩
    rcases (Table.mem_insert happends.new).mp he with he | rfl
    · exact houtbox e he
    · have hle := horders o (Table.mem_of_find? hfind)
      refine Or.inr ⟨o.withStatus .canceled, n, fresh, ?_, rfl⟩
      change 0 ≤ o.aggregateVersion + 1
      omega

/-- Rows are written at the time that their environment shows. -/
theorem writes_datable : engine.Writes (fun fresh => Datable fresh.occurredAt) fun x =>
    ∀ e, x = .insertOutboxEvent e → Datable e.createdAt := by
  rintro q context db r ws hfresh hexec x hx e rfl
  -- Only one of the statements writes to the outbox.
  cases q with
  | insertOutboxEvent subject payload =>
    obtain ⟨-, rfl, -⟩ := exec_insertOutboxEvent hexec
    obtain rfl := Write.insertOutboxEvent.inj (List.mem_singleton.mp hx)
    exact hfresh
  | _ =>
    simp only [engine, exec] at hexec
    repeat' split at hexec
    all_goals cases hexec
    all_goals simp at hx

section Reachable

variable {protobuf : Protobuf} {db : Db}

/-- In every reachable state, the announcements are proper. -/
theorem proper_of_reachable (h : Reachable protobuf db) : db.Proper := by
  obtain ⟨clock, labels, rfl⟩ := h
  -- Every operation begins with what a request or an event has been accepted as.
  refine (Discipline.begun_run allSafe (inv_init clock) (A := Call.Valid)
    (P := fun w => w.db.Proper) (fun hdb _ _ => hdb)
    (fun hvalid _ hdb hguar => hdb.change hvalid hguar.2) ?_ ?_).1
  · constructor <;> simp [State.init, Db.init]
  · intro call hcall
    obtain ⟨request, hrequest⟩ := exists_request hcall
    exact request.valid hrequest

/-- In every reachable state, the announcements show a time in the years 1 to 9999. -/
theorem datable_of_reachable (h : Reachable protobuf db) :
    ∀ e ∈ db.outboxEvents.rows, Datable e.createdAt := by
  obtain ⟨clock, labels, rfl⟩ := h
  refine written_run (P := fun db : Db => ∀ e ∈ db.outboxEvents.rows, Datable e.createdAt)
    writes_datable ?_ ?_ fun i fresh hfresh => fresh_of_mem hfresh
  · intro db x hdb hx
    cases x with
    | insertOutboxEvent e =>
      intro y hy
      rcases Table.mem_of_mem_insert hy with hy | rfl
      · exact hdb y hy
      · exact hx y rfl
    | _ => exact hdb
  · simp [State.init, Db.init]

end Reachable

end Orders
