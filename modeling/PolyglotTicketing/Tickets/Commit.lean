import PolyglotTicketing.Tickets.Repository
import PolyglotTicketing.Transaction.RelyGuarantee

/-!
# What the transactions of Tickets commit

`Change` lists everything that a committed transaction of the repository can have done to the
database, with what it knows about the rows at its commit because of the locks it owns. The three
operations on an existing ticket differ in when they change it and into what (`Ticket.Next`); what
they do besides is the same.
-/

namespace Tickets

open Platform Contracts Relational Transaction

/-- The event that an operation handles. -/
def Call.eventID? : Call → Option Uuid
  | .create _ => none
  | .update _ _ => none
  | .reserveTicketFromOrder eventID _ _ => some eventID
  | .unreserveTicketFromOrder eventID _ _ => some eventID

/-- The row that `Create` inserts. -/
def CreateInput.ticket (input : CreateInput) (id : Uuid) : Ticket where
  aggregateVersion := 0
  id := id
  title := input.title
  price := input.price
  reservedByOrderID := none
  userID := input.userID

/-- The row of the outbox about a new ticket. -/
def ticketCreatedEvent (created : Ticket) (sequence : ℕ) (fresh : Fresh) :
    OutboxEvent TicketEvent :=
  OutboxEvent.write ticketCreatedSubject (fun eventID occurredAt =>
    marshalTicketCreated eventID occurredAt created) sequence fresh

/-- The row that `insertTicketUpdatedEvent` writes. -/
def ticketUpdatedEvent (updated : Ticket) (sequence : ℕ) (fresh : Fresh) :
    OutboxEvent TicketEvent :=
  OutboxEvent.write ticketUpdatedSubject (fun eventID occurredAt =>
    marshalTicketUpdated eventID occurredAt updated) sequence fresh

@[simp]
theorem ticketID_ticketCreatedEvent (t : Ticket) (sequence : ℕ) (fresh : Fresh) :
    (ticketCreatedEvent t sequence fresh).payload.ticketID = t.id := rfl

@[simp]
theorem ticketID_ticketUpdatedEvent (t : Ticket) (sequence : ℕ) (fresh : Fresh) :
    (ticketUpdatedEvent t sequence fresh).payload.ticketID = t.id := rfl

/-- A transaction with the locks `held` adds `e` to the outbox. -/
structure Appends (held : List Key) (w : State) (e : OutboxEvent TicketEvent) : Prop extends
    Platform.Appends TicketEvent.ticketID w.db.outboxEvents w.sequence e where
  held : .outboxEvent e.eventID ∈ held

/-- The event that an operation handles is new, and the transaction records it. -/
def Records (held : List Key) (db : Db) (e : Uuid) : Prop :=
  e ∉ db.processedEvents ∧ .processedEvent e ∈ held

/-- `t.Next call r t'`: the operation `call`, which returns `r`, turns the ticket `t` into `t'`. -/
inductive Ticket.Next (t : Ticket) : Call → Reply → Ticket → Prop
  /-- The owner changes a ticket that is not locked. -/
  | updated {input : UpdateInput} (huser : t.userID = input.userID)
      (hfree : t.reservedByOrderID = none) :
      t.Next (.update t.id input) (.updated (t.edit input.title input.price))
        (t.edit input.title input.price)
  /-- An order locks a ticket that is not locked. -/
  | reserved {eventID orderID : Uuid} (hfree : t.reservedByOrderID = none) :
      t.Next (.reserveTicketFromOrder eventID orderID t.id) .applied (t.mark (some orderID))
  /-- The order that has locked a ticket releases it. -/
  | unreserved {eventID orderID : Uuid} (hreserved : t.reservedByOrderID = some orderID) :
      t.Next (.unreserveTicketFromOrder eventID orderID t.id) .applied (t.mark none)

namespace Ticket.Next

variable {t t' : Ticket} {call : Call} {r : Reply}

theorem id (h : t.Next call r t') : t'.id = t.id := by
  cases h <;> rfl

theorem userID (h : t.Next call r t') : t'.userID = t.userID := by
  cases h <;> rfl

/-- Every change counts up the version. -/
theorem aggregateVersion (h : t.Next call r t') : t'.aggregateVersion = t.aggregateVersion + 1 := by
  cases h <;> rfl

end Ticket.Next

/-- What a transaction that owns the locks `held` and commits in `w` can have done. -/
inductive Change (call : Call) (held : List Key) (w : State) : Reply → Db → Prop
  /-- Nothing: the event had been handled before. -/
  | duplicate {e : Uuid} (hevent : call.eventID? = some e) (hmem : e ∈ w.db.processedEvents) :
      Change call held w .applied w.db
  /-- It has recorded the event of an order that had locked the ticket already. -/
  | recorded {e orderID : Uuid} {t : Ticket}
      (hcall : call = .reserveTicketFromOrder e orderID t.id) (hrecords : Records held w.db e)
      (hfind : w.db.tickets.find? t.id = some t) (hreserved : t.reservedByOrderID = some orderID) :
      Change call held w .applied { w.db with processedEvents := e :: w.db.processedEvents }
  /-- It has created a ticket. -/
  | created {input : CreateInput} {id : Uuid} {n : ℕ} {fresh : Fresh}
      (hcall : call = .create input) (hnew : w.db.tickets.find? id = none)
      (hlock : .ticket id ∈ held) (hchecks : (input.ticket id).Checks)
      (happends : Appends held w (ticketCreatedEvent (input.ticket id) n fresh)) :
      Change call held w (.created (input.ticket id))
        { w.db with
          tickets := w.db.tickets.insert (input.ticket id)
          outboxEvents := w.db.outboxEvents.insert
            (ticketCreatedEvent (input.ticket id) n fresh) }
  /-- It has changed a ticket, and recorded the event it handles. -/
  | changed {r : Reply} {t t' : Ticket} {n : ℕ} {fresh : Fresh} (hnext : t.Next call r t')
      (hfind : w.db.tickets.find? t.id = some t) (hlock : .ticket t.id ∈ held)
      (hrecords : ∀ e ∈ call.eventID?, Records held w.db e)
      (happends : Appends held w (ticketUpdatedEvent t' n fresh)) :
      Change call held w r
        { tickets := w.db.tickets.replace t'
          processedEvents := call.eventID?.toList ++ w.db.processedEvents
          outboxEvents := w.db.outboxEvents.insert (ticketUpdatedEvent t' n fresh) }

/-- What a commit by a transaction with the locks `held` leaves alone. -/
structure Frame (held : List Key) (db db' : Db) : Prop where
  ticket : ∀ id, .ticket id ∉ held → db'.tickets.find? id = db.tickets.find? id
  processed : ∀ e ∈ db.processedEvents, e ∈ db'.processedEvents
  processedNew : ∀ e ∈ db'.processedEvents, e ∈ db.processedEvents ∨ .processedEvent e ∈ held
  outbox : ∀ e, .outboxEvent e ∉ held → db'.outboxEvents.find? e = db.outboxEvents.find? e
  outboxNew : ∀ x ∈ db'.outboxEvents.rows,
    x ∈ db.outboxEvents.rows ∨ .ticket x.payload.ticketID ∈ held

theorem Frame.refl (held : List Key) (db : Db) : Frame held db db where
  ticket := fun _ _ => rfl
  processed := fun _ he => he
  processedNew := fun _ he => Or.inl he
  outbox := fun _ _ => rfl
  outboxNew := fun _ hx => Or.inl hx

section Frame

variable {call : Call} {w : State} {held : List Key} {r : Reply} {db' : Db}

/-- Recording events leaves the processed events of others alone. -/
private theorem Records.frame {db : Db} {eventID : Option Uuid}
    (h : ∀ e ∈ eventID, Records held db e) :
    ∀ x ∈ eventID.toList ++ db.processedEvents,
      x ∈ db.processedEvents ∨ .processedEvent x ∈ held := by
  intro x hx
  rcases List.mem_append.mp hx with hx | hx
  · exact Or.inr (h x (Option.mem_toList.mp hx)).2
  · exact Or.inl hx

/-- Adding a row to the outbox leaves the others alone. -/
private theorem Appends.frame {e : OutboxEvent TicketEvent} (h : Appends held w e) (x : Uuid)
    (hx : .outboxEvent x ∉ held) :
    (w.db.outboxEvents.insert e).find? x = w.db.outboxEvents.find? x := by
  rw [Table.find?_insert h.new, if_neg]
  rintro rfl
  exact hx h.held

/-- A new row of the outbox is about a ticket that its transaction has locked. -/
private theorem Appends.frameNew {e : OutboxEvent TicketEvent} (h : Appends held w e)
    (hlock : .ticket e.payload.ticketID ∈ held) :
    ∀ x ∈ (w.db.outboxEvents.insert e).rows,
      x ∈ w.db.outboxEvents.rows ∨ .ticket x.payload.ticketID ∈ held := by
  intro x hx
  rcases (Table.mem_insert h.new).mp hx with hx | rfl
  · exact Or.inl hx
  · exact Or.inr hlock

/-- The tickets after one of them was created. -/
theorem find?_create {tickets : Table Ticket} {t : Ticket} (hnew : tickets.find? t.id = none)
    (x : Uuid) : (tickets.insert t).find? x = if x = t.id then some t else tickets.find? x :=
  Table.find?_insert (r := t) hnew x

/-- The tickets after one of them was changed. -/
theorem find?_change {tickets : Table Ticket} {t t' : Ticket} (hfind : tickets.find? t.id = some t)
    (hid : t'.id = t.id) (x : Uuid) :
    (tickets.replace t').find? x = if x = t.id then some t' else tickets.find? x := by
  rw [Table.find?_replace, key_ticket, hid]
  split
  next heq => rw [heq, hfind, Option.map_some]
  next => rfl

/-- The rows after one of the tickets was changed. -/
theorem mem_change {tickets : Table Ticket} {t t' x : Ticket}
    (hfind : tickets.find? t.id = some t) (hid : t'.id = t.id) :
    x ∈ (tickets.replace t').rows ↔ x = t' ∨ (x ∈ tickets.rows ∧ x.id ≠ t.id) := by
  have hfind' : tickets.find? (key t') = some t := by rw [key_ticket, hid, hfind]
  rw [Table.mem_replace hfind', key_ticket, key_ticket, hid]

/-- A commit changes nothing that its transaction has not locked. -/
theorem Change.frame (h : Change call held w r db') : Frame held w.db db' := by
  cases h with
  | duplicate => exact .refl held w.db
  | @recorded e orderID t hcall hrecords =>
    refine { Frame.refl held w.db with processed := ?_, processedNew := ?_ }
    · exact fun e he => List.mem_cons_of_mem _ he
    · exact @Records.frame held w.db (some e) (by simpa using hrecords)
  -- The transaction has inserted the row, and owns its key.
  | @created input id n fresh hcall hnew hlock hchecks happends =>
    refine { Frame.refl held w.db with
      ticket := ?_, outbox := happends.frame, outboxNew := happends.frameNew hlock }
    intro x hx
    rw [find?_create hnew, if_neg]
    rintro rfl
    exact hx hlock
  -- It has selected the row for an update.
  | @changed r t t' n fresh hnext hfind hlock hrecords happends =>
    refine ⟨?_, ?_, Records.frame hrecords, happends.frame, happends.frameNew ?_⟩
    · intro x hx
      rw [find?_change hfind hnext.id, if_neg]
      rintro rfl
      exact hx hlock
    · exact fun e he => List.mem_append_right _ he
    · rwa [ticketID_ticketUpdatedEvent, hnext.id]

/-- A commit of an operation that handles an event has processed that event and no other one. -/
theorem Change.mem_processedEvents (h : Change call held w r db') {e : Uuid} :
    e ∈ db'.processedEvents ↔ e ∈ w.db.processedEvents ∨ call.eventID? = some e := by
  cases h with
  | duplicate hevent hmem =>
    refine (or_iff_left_of_imp fun he => ?_).symm
    obtain rfl := Option.some.inj (hevent.symm.trans he)
    exact hmem
  | recorded hcall =>
    rw [List.mem_cons, hcall, Call.eventID?, Option.some.injEq, eq_comm, or_comm]
  | created hcall => simp [hcall, Call.eventID?]
  | changed => rw [List.mem_append, Option.mem_toList, or_comm]

/-- A commit of an operation that handles an event which has been processed changes nothing. -/
theorem Change.eq_of_processed (h : Change call held w r db') {e : Uuid}
    (hevent : call.eventID? = some e) (hmem : e ∈ w.db.processedEvents) : db' = w.db := by
  cases h with
  | duplicate => rfl
  | recorded hcall hrecords =>
    rw [hcall, Call.eventID?] at hevent
    obtain rfl := Option.some.inj hevent
    exact absurd hmem hrecords.1
  | created hcall => simp [hcall, Call.eventID?] at hevent
  | changed _ _ _ hrecords => exact absurd hmem (hrecords e hevent).1

end Frame

end Tickets
