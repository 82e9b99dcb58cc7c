import PolyglotTicketing.Orders.Repository
import PolyglotTicketing.Transaction.RelyGuarantee

/-!
# What the transactions of Orders commit

`Change` lists everything that a committed transaction of the repository can have done to the
database, with what it knows about the rows at its commit because of the locks it owns. The
operations that change the status of an order share the cases `recorded`, `advanced` and
`canceled`: what tells them apart is the `Move` of the operation.

`Change.frame` says what a transaction leaves alone without a lock on it. With it, the programs
of the repository are shown to be safe under any interleaving in `Orders.Safety`.
-/

namespace Orders

open Platform Contracts Relational Transaction

/-- The orders with this status can still change it. -/
def Status.Open (s : Status) : Prop := s = .created ∨ s = .awaitingPayment

instance (s : Status) : Decidable s.Open := inferInstanceAs (Decidable (_ ∨ _))

/-- A change of the status of an order, as an operation requests it. -/
structure Move where
  /-- The order. -/
  orderID : Uuid
  /-- The only user whose order may change. -/
  userID : Option String
  /-- The states in which it may change. -/
  sources : List Status
  /-- The new state. -/
  target : Status
  /-- The event that requests the change. -/
  eventID : Option Uuid

/-- The change of status that an operation requests. -/
def Call.move? : Call → Option Move
  | .reserveTicket _ => none
  | .cancelByIDAndUser orderID userID =>
    some ⟨orderID, some userID, [.created, .awaitingPayment], .canceled, none⟩
  | .applyExpirationComplete eventID orderID =>
    some ⟨orderID, none, [.created], .canceled, some eventID⟩
  | .applyPaymentCreated eventID orderID =>
    some ⟨orderID, none, [.created], .awaitingPayment, some eventID⟩
  | .applyPaymentSucceeded eventID orderID =>
    some ⟨orderID, none, [.created, .awaitingPayment], .complete, some eventID⟩
  | .applyPaymentFailed eventID orderID =>
    some ⟨orderID, none, [.created, .awaitingPayment], .canceled, some eventID⟩
  | .upsertTicketFromEvent _ _ => none

/-- A move changes the status. -/
theorem Call.target_not_mem_sources {call : Call} {m : Move} (hmove : call.move? = some m) :
    m.target ∉ m.sources := by
  cases call <;> simp_all only [move?, reduceCtorEq, Option.some.injEq] <;>
    subst hmove <;> simp

/-- The event that an operation handles. -/
def Call.eventID? : Call → Option Uuid
  | .upsertTicketFromEvent eventID _ => some eventID
  | call => call.move?.bind Move.eventID

/-- Orders change their status only while they are open, and never back to `Created`. -/
theorem Call.move?_spec {call : Call} {m : Move} (hmove : call.move? = some m) :
    (∀ s ∈ m.sources, s.Open) ∧ .created ∈ m.sources ∧ m.target ≠ .created ∧
      (m.target = .awaitingPayment → m.sources = [.created]) := by
  cases call <;> simp_all only [move?, reduceCtorEq, Option.some.injEq] <;>
    subst hmove <;> simp [Status.Open]

/-- The row that `insertOrder` writes. -/
def newOrder (input : TicketReservationInput) (id : Uuid) : Order where
  aggregateVersion := 0
  expiresAt := input.expiresAt
  id := id
  status := .created
  ticketID := input.ticketID
  userID := input.userID

/-- The row that `insertOrderCreatedEvent` writes. -/
def orderCreatedEvent (created : Order) (ticket : Ticket) (sequence : ℕ) (fresh : Fresh) :
    OutboxEvent OrderEvent :=
  OutboxEvent.write orderCreatedSubject (fun eventID occurredAt =>
    marshalOrderCreated eventID occurredAt created ticket) sequence fresh

/-- The row that `insertOrderCanceledEvent` writes. -/
def orderCanceledEvent (canceled : Order) (sequence : ℕ) (fresh : Fresh) :
    OutboxEvent OrderEvent :=
  OutboxEvent.write orderCanceledSubject (fun eventID occurredAt =>
    marshalOrderCanceled eventID occurredAt canceled) sequence fresh

@[simp]
theorem orderID_orderCreatedEvent (o : Order) (t : Ticket) (n : ℕ) (fresh : Fresh) :
    (orderCreatedEvent o t n fresh).payload.orderID = o.id := rfl

@[simp]
theorem orderID_orderCanceledEvent (o : Order) (n : ℕ) (fresh : Fresh) :
    (orderCanceledEvent o n fresh).payload.orderID = o.id := rfl

/-- A transaction with the locks `held` adds `e` to the outbox. -/
structure Appends (held : List Key) (w : State) (e : OutboxEvent OrderEvent) : Prop extends
    Platform.Appends OrderEvent.orderID w.db.outboxEvents w.sequence e where
  held : .outboxEvent e.eventID ∈ held

/-- The event that an operation handles is new, and the transaction records it. -/
def Records (held : List Key) (db : Db) (eventID : Option Uuid) : Prop :=
  ∀ e ∈ eventID, e ∉ db.processedEvents ∧ .processedEvent e ∈ held

/-- An operation that begins in `opened` and commits in `w` has nothing to do: the order it is
about was not there or is past the states it may change in, or the ticket snapshot is stale. -/
structure Late (call : Call) (opened w : State) : Prop where
  order : ∀ m ∈ call.move?, opened.db.orders.find? m.orderID = none ∨
    ∃ o, w.db.orders.find? m.orderID = some o ∧ o.status ∉ m.sources
  ticket : ∀ eventID t, call = .upsertTicketFromEvent eventID t →
    ∃ stored, w.db.tickets.find? t.id = some stored ∧
      t.aggregateVersion ≤ stored.aggregateVersion

/-- What a transaction that begins in `opened`, owns the locks `held` and commits in `w` can have
done. -/
inductive Change (call : Call) (opened : State) (held : List Key) (w : State) :
    Reply → Db → Prop
  /-- Nothing: an order was found for a reservation, the event had been handled before, or the
  order had been canceled before. -/
  | unchanged {r : Reply}
      (hwhy : (∃ e ∈ call.eventID?, e ∈ w.db.processedEvents) ∨
        call.eventID? = none ∧ Late call opened w)
      (hfound : ∀ found, r = .reservation found → found.created = false) :
      Change call opened held w r w.db
  /-- It has recorded an event that comes too late. -/
  | recorded {e : Uuid} (hevent : call.eventID? = some e) (hrecords : Records held w.db (some e))
      (hlate : Late call opened w) :
      Change call opened held w .applied
        { w.db with processedEvents := e :: w.db.processedEvents }
  /-- It has stored the next snapshot of a ticket. -/
  | projected {e : Uuid} {t : Ticket} (hcall : call = .upsertTicketFromEvent e t)
      (hrecords : Records held w.db (some e)) (hlock : .ticket t.id ∈ held) (hchecks : t.Checks)
      (hversion : t.aggregateVersion =
        (w.db.tickets.find? t.id).elim 0 fun stored => stored.aggregateVersion + 1) :
      Change call opened held w .applied
        { w.db with
          processedEvents := e :: w.db.processedEvents
          tickets := w.db.tickets.upsert t }
  /-- It has created an order. -/
  | reserved {input : TicketReservationInput} {ticket : Ticket} {id : Uuid} {n : ℕ}
      {fresh : Fresh} (hcall : call = .reserveTicket input)
      (hticket : w.db.tickets.find? input.ticketID = some ticket)
      (hlock : .ticket input.ticketID ∈ held)
      (hnew : w.db.orders.find? id = none) (horder : .order id ∈ held)
      (hcomplete : ∀ o ∈ opened.db.orders.rows, o.ticketID = input.ticketID →
        o.status ≠ .complete)
      (hexpired : ∀ o ∈ w.db.orders.rows, o.ticketID = input.ticketID →
        o.status = .canceled ∨ o.expiresAt ≤ opened.clock)
      (happends : Appends held w (orderCreatedEvent (newOrder input id) ticket n fresh)) :
      Change call opened held w (.reservation ⟨true, newOrder input id⟩)
        { w.db with
          orders := w.db.orders.insert (newOrder input id)
          outboxEvents := w.db.outboxEvents.insert
            (orderCreatedEvent (newOrder input id) ticket n fresh) }
  /-- It has moved an order to `AwaitingPayment` or `Complete`. -/
  | advanced {m : Move} {o : Order} (hmove : call.move? = some m)
      (hfind : w.db.orders.find? m.orderID = some o) (hlock : .order m.orderID ∈ held)
      (huser : ∀ user ∈ m.userID, o.userID = user) (hsource : o.status ∈ m.sources)
      (hrecords : Records held w.db m.eventID) (htarget : m.target ≠ .canceled) :
      Change call opened held w .applied
        { w.db with
          processedEvents := m.eventID.toList ++ w.db.processedEvents
          orders := w.db.orders.replace (o.withStatus m.target) }
  /-- It has canceled an order. -/
  | canceled {m : Move} {o : Order} {n : ℕ} {fresh : Fresh} {r : Reply}
      (hmove : call.move? = some m)
      (hfind : w.db.orders.find? m.orderID = some o) (hlock : .order m.orderID ∈ held)
      (huser : ∀ user ∈ m.userID, o.userID = user) (hsource : o.status ∈ m.sources)
      (hrecords : Records held w.db m.eventID) (htarget : m.target = .canceled)
      (happends : Appends held w (orderCanceledEvent (o.withStatus .canceled) n fresh))
      (hfound : ∀ found, r ≠ .reservation found) :
      Change call opened held w r
        { w.db with
          processedEvents := m.eventID.toList ++ w.db.processedEvents
          orders := w.db.orders.replace (o.withStatus .canceled)
          outboxEvents := w.db.outboxEvents.insert
            (orderCanceledEvent (o.withStatus .canceled) n fresh) }

/-- What one commit can do to an order. -/
structure Order.Evolves (o o' : Order) : Prop where
  id : o'.id = o.id
  ticketID : o'.ticketID = o.ticketID
  userID : o'.userID = o.userID
  expiresAt : o'.expiresAt = o.expiresAt
  closed : ¬o.status.Open → o' = o
  created : o'.status = .created → o' = o

theorem Order.Evolves.refl (o : Order) : o.Evolves o :=
  ⟨rfl, rfl, rfl, rfl, fun _ => rfl, fun _ => rfl⟩

/-- A move is one of the things that can happen to an order. -/
theorem Order.Evolves.withStatus {call : Call} {m : Move} {o : Order}
    (hmove : call.move? = some m) (hsource : o.status ∈ m.sources) :
    o.Evolves (o.withStatus m.target) := by
  obtain ⟨hopen, -, htarget, -⟩ := Call.move?_spec hmove
  exact ⟨rfl, rfl, rfl, rfl, fun hclosed => absurd (hopen _ hsource) hclosed,
    fun hcreated => absurd hcreated htarget⟩

/-- An order that is past the states in which a move may change it stays there. -/
theorem Order.Evolves.not_mem_sources {call : Call} {m : Move} {o o' : Order}
    (h : o.Evolves o') (hmove : call.move? = some m) (hlate : o.status ∉ m.sources) :
    o'.status ∉ m.sources := by
  -- An open order that is past `Created` waits for its payment, and does not go back.
  by_cases hopen : o.status.Open
  · intro hmem
    rcases hopen with hcreated | hawaiting
    · exact hlate (hcreated ▸ (Call.move?_spec hmove).2.1)
    · have hone : m.sources = [.created] := by
        cases call <;> simp_all only [Call.move?, reduceCtorEq, Option.some.injEq] <;>
          subst hmove <;> simp_all
      obtain rfl := h.created (by simpa [hone] using hmem)
      exact hlate hmem
  · rw [h.closed hopen]
    exact hlate

/-- What a commit by a transaction with the locks `held` leaves alone. -/
structure Frame (held : List Key) (db db' : Db) : Prop where
  order : ∀ id, .order id ∉ held → db'.orders.find? id = db.orders.find? id
  evolves : ∀ id o, db.orders.find? id = some o →
    ∃ o', db'.orders.find? id = some o' ∧ o.Evolves o'
  orderNew : ∀ id o, db.orders.find? id = none → db'.orders.find? id = some o →
    .ticket o.ticketID ∈ held
  ticket : ∀ id, .ticket id ∉ held → db'.tickets.find? id = db.tickets.find? id
  processed : ∀ e ∈ db.processedEvents, e ∈ db'.processedEvents
  processedNew : ∀ e ∈ db'.processedEvents, e ∈ db.processedEvents ∨ .processedEvent e ∈ held
  outbox : ∀ e, .outboxEvent e ∉ held → db'.outboxEvents.find? e = db.outboxEvents.find? e
  outboxNew : ∀ x ∈ db'.outboxEvents.rows,
    x ∈ db.outboxEvents.rows ∨ .order x.payload.orderID ∈ held

theorem Frame.refl (held : List Key) (db : Db) : Frame held db db where
  order := fun _ _ => rfl
  evolves := fun _ o hfind => ⟨o, hfind, .refl o⟩
  orderNew := fun _ _ hnone hsome => by simp [hnone] at hsome
  ticket := fun _ _ => rfl
  processed := fun _ he => he
  processedNew := fun _ he => Or.inl he
  outbox := fun _ _ => rfl
  outboxNew := fun _ hx => Or.inl hx

section Frame

variable {call : Call} {opened w : State} {held : List Key} {r : Reply} {db' : Db}

/-- Recording an event leaves the processed events of others alone. -/
private theorem Records.frame {db : Db} {eventID : Option Uuid}
    (h : Records held db eventID) : ∀ e ∈ eventID.toList ++ db.processedEvents,
      e ∈ db.processedEvents ∨ .processedEvent e ∈ held := by
  intro e he
  rcases List.mem_append.mp he with he | he
  · exact Or.inr (h e (by simpa using he)).2
  · exact Or.inl he

/-- Adding a row to the outbox leaves the others alone. -/
private theorem Appends.frame {e : OutboxEvent OrderEvent} (h : Appends held w e) (x : Uuid)
    (hx : .outboxEvent x ∉ held) :
    (w.db.outboxEvents.insert e).find? x = w.db.outboxEvents.find? x := by
  rw [Table.find?_insert h.new, if_neg]
  rintro rfl
  exact hx h.held

/-- A new row of the outbox is about an order that its transaction has locked. -/
private theorem Appends.frameNew {e : OutboxEvent OrderEvent} (h : Appends held w e)
    (horder : .order e.payload.orderID ∈ held) :
    ∀ x ∈ (w.db.outboxEvents.insert e).rows,
      x ∈ w.db.outboxEvents.rows ∨ .order x.payload.orderID ∈ held := by
  intro x hx
  rcases (Table.mem_insert h.new).mp hx with hx | rfl
  · exact Or.inl hx
  · exact Or.inr horder

/-- The orders after one of them has moved. -/
theorem find?_move {orders : Table Order} {o : Order} (target : Status) {id : Uuid}
    (hfind : orders.find? id = some o) (x : Uuid) :
    (orders.replace (o.withStatus target)).find? x =
      if x = id then some (o.withStatus target) else orders.find? x := by
  have hid : key o = id := Table.key_of_find? hfind
  rw [Table.find?_replace, show key (o.withStatus target) = id from hid]
  split
  next heq => rw [heq, hfind, Option.map_some]
  next => rfl

/-- The rows after one of the orders has moved. -/
theorem mem_move {orders : Table Order} {o y : Order} (target : Status) (ho : o ∈ orders.rows) :
    y ∈ (orders.replace (o.withStatus target)).rows ↔
      y = o.withStatus target ∨ (y ∈ orders.rows ∧ y.id ≠ o.id) := by
  have hfind : orders.find? (key (o.withStatus target)) = some o := Table.find?_of_mem ho
  exact Table.mem_replace hfind

/-- A move leaves the orders alone that its transaction has not locked. -/
private theorem frame_move {m : Move} {o : Order} (hmove : call.move? = some m)
    (hfind : w.db.orders.find? m.orderID = some o) (hlock : .order m.orderID ∈ held)
    (hsource : o.status ∈ m.sources) :
    let orders := w.db.orders.replace (o.withStatus m.target)
    (∀ id, .order id ∉ held → orders.find? id = w.db.orders.find? id) ∧
      (∀ id x, w.db.orders.find? id = some x →
        ∃ x', orders.find? id = some x' ∧ x.Evolves x') ∧
      ∀ id x, w.db.orders.find? id = none → orders.find? id = some x →
        .ticket x.ticketID ∈ held := by
  have hafter := find?_move m.target hfind
  refine ⟨?_, ?_, ?_⟩
  · intro id hid
    rw [hafter, if_neg]
    rintro rfl
    exact hid hlock
  · intro id x hx
    -- Only the moved order has changed, and it has evolved.
    by_cases hid : id = m.orderID
    · obtain rfl : o = x := Option.some.inj (hfind.symm.trans (hid ▸ hx))
      exact ⟨o.withStatus m.target, by rw [hafter, if_pos hid], .withStatus hmove hsource⟩
    · exact ⟨x, by rw [hafter, if_neg hid, hx], .refl x⟩
  · intro id x hnone hsome
    rw [Table.find?_replace_eq_none_iff.mpr hnone] at hsome
    simp at hsome

/-- A commit changes nothing that its transaction has not locked, and orders only evolve. -/
theorem Change.frame (h : Change call opened held w r db') : Frame held w.db db' := by
  cases h with
  | unchanged => exact .refl held w.db
  | recorded hevent hrecords =>
    refine { Frame.refl held w.db with processed := ?_, processedNew := hrecords.frame }
    exact fun e he => List.mem_cons_of_mem _ he
  -- The row of the ticket has been selected or inserted, and is locked.
  | projected hcall hrecords hlock =>
    refine { Frame.refl held w.db with
      ticket := ?_, processed := ?_, processedNew := hrecords.frame }
    · intro id hid
      rw [Table.find?_upsert, if_neg]
      rintro rfl
      exact hid hlock
    · exact fun e he => List.mem_cons_of_mem _ he
  -- The new order has a key of its own, and its ticket has been selected for an update.
  | @reserved input ticket id n fresh hcall hticket hlock hnew horder _ _ happends =>
    refine { Frame.refl held w.db with
      order := ?_, evolves := ?_, orderNew := ?_
      outbox := happends.frame, outboxNew := happends.frameNew horder }
    · intro x hx
      rw [Table.find?_insert (r := newOrder input id) hnew, if_neg]
      rintro rfl
      exact hx horder
    · intro x o hfind
      exact ⟨o, Table.find?_insert_of_some (r := newOrder input id) hnew hfind, .refl o⟩
    · intro x o hnone hsome
      rw [Table.find?_insert (r := newOrder input id) hnew] at hsome
      split at hsome
      next =>
        obtain rfl := Option.some.inj hsome
        exact hlock
      next => simp [hnone] at hsome
  | advanced hmove hfind hlock huser hsource hrecords htarget =>
    obtain ⟨horder, hevolves, hnew⟩ := frame_move (w := w) hmove hfind hlock hsource
    refine { Frame.refl held w.db with
      order := horder, evolves := hevolves, orderNew := hnew
      processed := ?_, processedNew := hrecords.frame }
    exact fun e he => List.mem_append_right _ he
  | canceled hmove hfind hlock huser hsource hrecords htarget happends =>
    obtain ⟨horder, hevolves, hnew⟩ := frame_move (w := w) hmove hfind hlock hsource
    rw [htarget] at horder hevolves hnew
    refine { Frame.refl held w.db with
      order := horder, evolves := hevolves, orderNew := hnew
      processed := ?_, processedNew := hrecords.frame
      outbox := happends.frame, outboxNew := happends.frameNew ?_ }
    · exact fun e he => List.mem_append_right _ he
    · rw [← Table.key_of_find? hfind] at hlock
      exact hlock

/-- What a commit does to the orders: nothing, or it adds one, or it moves one. -/
theorem Change.orders_cases (h : Change call opened held w r db') :
    db'.orders = w.db.orders ∨
      (∃ input id, call = .reserveTicket input ∧ w.db.orders.find? id = none ∧
        (∀ o ∈ w.db.orders.rows, o.ticketID = input.ticketID →
          o.status = .canceled ∨ o.expiresAt ≤ opened.clock) ∧
        db'.orders = w.db.orders.insert (newOrder input id)) ∨
      ∃ m o, call.move? = some m ∧ w.db.orders.find? m.orderID = some o ∧
        (∀ user ∈ m.userID, o.userID = user) ∧ o.status ∈ m.sources ∧
        (∀ e ∈ m.eventID, e ∉ w.db.processedEvents) ∧
        db'.orders = w.db.orders.replace (o.withStatus m.target) := by
  cases h with
  | unchanged => exact Or.inl rfl
  | recorded => exact Or.inl rfl
  | projected => exact Or.inl rfl
  | @reserved input _ id _ _ hcall _ _ hnew _ _ hexpired =>
    exact Or.inr (Or.inl ⟨input, id, hcall, hnew, hexpired, rfl⟩)
  | @advanced m o hmove hfind _ huser hsource hrecords =>
    exact Or.inr (Or.inr ⟨m, o, hmove, hfind, huser, hsource, fun e he => (hrecords e he).1, rfl⟩)
  | @canceled m o _ _ _ hmove hfind _ huser hsource hrecords htarget =>
    exact Or.inr (Or.inr ⟨m, o, hmove, hfind, huser, hsource, fun e he => (hrecords e he).1,
      by rw [htarget]⟩)

/-- The event that a move records is the one its operation handles. -/
theorem Call.eventID?_of_move {m : Move} (hmove : call.move? = some m) :
    call.eventID? = m.eventID := by
  cases call <;> simp_all [Call.eventID?, Call.move?]

/-- A commit of an operation that handles an event leaves it processed. -/
theorem Change.processed_of_eventID (h : Change call opened held w r db') {e : Uuid}
    (hevent : call.eventID? = some e) : e ∈ db'.processedEvents := by
  cases h with
  | unchanged hwhy =>
    rcases hwhy with ⟨x, hx, hmem⟩ | ⟨hnone, -⟩
    · obtain rfl := Option.some.inj (hevent.symm.trans hx)
      exact hmem
    · simp [hnone] at hevent
  | recorded hx =>
    obtain rfl := Option.some.inj (hevent.symm.trans hx)
    exact List.mem_cons_self
  | projected hcall =>
    subst hcall
    obtain rfl := Option.some.inj hevent
    exact List.mem_cons_self
  | reserved hcall =>
    subst hcall
    simp [Call.eventID?, Call.move?] at hevent
  | advanced hmove => simp [← Call.eventID?_of_move hmove, hevent]
  | canceled hmove => simp [← Call.eventID?_of_move hmove, hevent]

/-- A commit of an operation that handles an event has processed that event and no other one. -/
theorem Change.mem_processedEvents (h : Change call opened held w r db') {e : Uuid} :
    e ∈ db'.processedEvents ↔ e ∈ w.db.processedEvents ∨ call.eventID? = some e := by
  constructor
  · intro he
    cases h with
    | unchanged => exact Or.inl he
    | recorded hevent =>
      rcases List.mem_cons.mp he with rfl | he
      · exact Or.inr hevent
      · exact Or.inl he
    | projected hcall =>
      rcases List.mem_cons.mp he with rfl | he
      · exact Or.inr (by rw [hcall, Call.eventID?])
      · exact Or.inl he
    | reserved => exact Or.inl he
    | advanced hmove | canceled hmove =>
      rw [Call.eventID?_of_move hmove]
      rcases List.mem_append.mp he with he | he
      · exact Or.inr (Option.mem_toList.mp he)
      · exact Or.inl he
  · rintro (he | hevent)
    · exact h.frame.processed e he
    · exact h.processed_of_eventID hevent

/-- A commit of an operation that handles an event which has been processed changes nothing. -/
theorem Change.eq_of_processed (h : Change call opened held w r db') {e : Uuid}
    (hevent : call.eventID? = some e) (hmem : e ∈ w.db.processedEvents) : db' = w.db := by
  -- In all other cases the event is recorded, so that it has been new.
  have hnew : ∀ {eventID : Option Uuid}, Records held w.db eventID →
      call.eventID? ≠ eventID := by
    rintro eventID hrecords rfl
    exact (hrecords e hevent).1 hmem
  cases h with
  | unchanged => rfl
  | recorded hevent' hrecords => exact absurd hevent' (hnew hrecords)
  | projected hcall hrecords => exact absurd (by rw [hcall, Call.eventID?]) (hnew hrecords)
  | reserved hcall => simp [hcall, Call.eventID?, Call.move?] at hevent
  | advanced hmove _ _ _ _ hrecords | canceled hmove _ _ _ _ hrecords =>
    exact absurd (Call.eventID?_of_move hmove) (hnew hrecords)

/-- A transaction that runs alone, and that can move its order, moves it. -/
theorem Change.moves (h : Change call opened held w r db') (halone : opened.db = w.db) {m : Move}
    {o : Order} (hmove : call.move? = some m) (hfind : w.db.orders.find? m.orderID = some o)
    (huser : ∀ user ∈ m.userID, o.userID = user) (hsource : o.status ∈ m.sources)
    (hnew : ∀ e ∈ m.eventID, e ∉ w.db.processedEvents) :
    db'.orders = w.db.orders.replace (o.withStatus m.target) := by
  -- It has begun with the rows it commits on, where the order may change.
  have hlate : ¬Late call opened w := by
    intro hlate
    rcases hlate.order m hmove with hnone | ⟨x, hx, hxlate⟩
    · rw [halone, hfind] at hnone
      simp at hnone
    · obtain rfl := Option.some.inj (hfind.symm.trans hx)
      exact hxlate hsource
  -- The operation has only one move, and there is only one order to be moved.
  have hsame : ∀ {m' : Move} {o' : Order}, call.move? = some m' →
      w.db.orders.find? m'.orderID = some o' → m' = m ∧ o' = o := by
    intro m' o' hm' ho'
    obtain rfl := Option.some.inj (hm'.symm.trans hmove)
    exact ⟨rfl, Option.some.inj (ho'.symm.trans hfind)⟩
  cases h with
  | unchanged hwhy =>
    rcases hwhy with ⟨e, he, hmem⟩ | ⟨-, hwhy⟩
    · rw [Call.eventID?_of_move hmove] at he
      exact absurd hmem (hnew e he)
    · exact absurd hwhy hlate
  | recorded _ _ hwhy => exact absurd hwhy hlate
  | projected hcall => simp [hcall, Call.move?] at hmove
  | reserved hcall => simp [hcall, Call.move?] at hmove
  | advanced hmove' hfind' =>
    obtain ⟨rfl, rfl⟩ := hsame hmove' hfind'
    rfl
  | canceled hmove' hfind' _ _ _ _ htarget =>
    obtain ⟨rfl, rfl⟩ := hsame hmove' hfind'
    rw [htarget]

end Frame

end Orders
