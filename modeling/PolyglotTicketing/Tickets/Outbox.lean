import PolyglotTicketing.Tickets.Handlers
import PolyglotTicketing.Tickets.VersionHistory
import PolyglotTicketing.Transaction.Writes

/-!
# What Tickets announces

The outbox of Tickets when every operation begins with a request or an event that the service
accepts, and the clock of the service shows a time in the years 1 to 9999 (`Reachable`). Every row
is about a ticket with a title and a price: `announced_of_reachable`.
-/

namespace Tickets

open Platform Contracts Relational Transaction Transition
open Wire (Protobuf Datable received exists_of_received)

/-- What comes in. -/
inductive Request where
  | createTicket (input : CreateInput)
  | updateTicket (id : String) (input : UpdateInput)
  | orderEvent (subject : String) (payload : List UInt8)

/-- The operation that begins with a request or an event, unless it is rejected. -/
def Request.call? (protobuf : Protobuf) : Request → Option Call
  | .createTicket input => (Service.createTicket input).toOption
  | .updateTicket id input => received (Service.updateTicket id input)
  | .orderEvent subject payload => received (OrderHandler.handle protobuf subject payload)

/-- The database `db` is reached when the service does what it is asked for. -/
def Reachable (protobuf : Protobuf) (db : Db) : Prop :=
  ∃ (clock : Int) (labels : List (Transaction.Label Int Fresh Call Request)),
    db = (serve clock (labels.flatMap
      (Label.events (Request.call? protobuf) fun fresh => Datable fresh.occurredAt))).world.db

/-- What the service has checked before it begins an operation. -/
def Call.Valid : Call → Prop
  | .create input => ¬Blank input.title
  | .update _ input => ¬Blank input.title ∧ 0 < input.price
  | _ => True

section Valid

variable {protobuf : Protobuf} {call : Call}

/-- A valid title is not blank, and a valid price is positive. -/
theorem of_validateMutation {title : String} {price : Int} {userID : String}
    (h : validateMutation title price userID = []) : ¬Blank title ∧ 0 < price := by
  rw [validateMutation] at h
  split at h
  next => simp at h
  next htitle =>
    split at h
    next => simp at h
    next hprice => exact ⟨htitle, by omega⟩

/-- The handler of order events does not change titles. -/
theorem valid_of_orderEvent {subject : String} {payload : List UInt8}
    (h : received (OrderHandler.handle protobuf subject payload) = some call) : call.Valid := by
  obtain ⟨q, hq, rfl⟩ := exists_of_received h
  rw [OrderHandler.handle] at hq
  split at hq
  next =>
    rw [OrderHandler.handleCreated] at hq
    repeat' split at hq
    all_goals cases hq
    trivial
  next =>
    split at hq
    next =>
      rw [OrderHandler.handleCanceled] at hq
      repeat' split at hq
      all_goals cases hq
      trivial
    next => cases hq

/-- An operation begins with valid arguments. -/
theorem Request.valid {request : Request} (h : request.call? protobuf = some call) :
    call.Valid := by
  cases request with
  | createTicket input =>
    simp only [call?, Service.createTicket] at h
    split at h
    next => cases h
    next hvalid =>
      obtain rfl := Option.some.inj h
      exact (of_validateMutation (not_not.mp hvalid)).1
  | updateTicket id input =>
    obtain ⟨q, hq, rfl⟩ := exists_of_received h
    rw [Service.updateTicket] at hq
    split at hq
    next => cases hq
    next hvalid =>
      cases hq
      exact of_validateMutation (not_not.mp hvalid)
  | orderEvent subject payload => exact valid_of_orderEvent h

end Valid

/-- A ticket that may be announced. -/
structure Ticket.Proper (t : Ticket) : Prop where
  title : ¬Blank t.title
  checks : t.Checks

/-- A row of the outbox that announces such a ticket. -/
def Announced (e : OutboxEvent TicketEvent) : Prop :=
  ∃ (t : Ticket) (n : ℕ) (fresh : Fresh), t.Proper ∧
    (e = ticketCreatedEvent t n fresh ∨ e = ticketUpdatedEvent t n fresh)

/-- All tickets and all announcements are proper. -/
structure Db.Proper (db : Db) : Prop where
  tickets : ∀ t ∈ db.tickets.rows, t.Proper
  outbox : ∀ e ∈ db.outboxEvents.rows, Announced e

/-- A change by a valid operation keeps tickets proper. -/
theorem Ticket.Next.proper {t t' : Ticket} {call : Call} {r : Reply} (h : t.Next call r t')
    (hvalid : call.Valid) (ht : t.Proper) : t'.Proper := by
  obtain ⟨htitle, hversion, hprice⟩ := ht
  have hnext : 0 ≤ t.aggregateVersion + 1 := by omega
  cases h with
  | updated => exact ⟨hvalid.1, hnext, hvalid.2⟩
  | reserved => exact ⟨htitle, hnext, hprice⟩
  | unreserved => exact ⟨htitle, hnext, hprice⟩

/-- A commit of a valid operation keeps the database proper. -/
theorem Db.Proper.change {call : Call} {held : List Key} {w : State} {r : Reply} {db' : Db}
    (hdb : w.db.Proper) (hvalid : call.Valid) (h : Change call held w r db') : db'.Proper := by
  obtain ⟨htickets, houtbox⟩ := hdb
  cases h with
  | duplicate => exact ⟨htickets, houtbox⟩
  | recorded => exact ⟨htickets, houtbox⟩
  -- The service has checked the title, and the database the rest.
  | @created input id n fresh hcall hnew hlock hchecks happends =>
    subst hcall
    have hproper : (input.ticket id).Proper := ⟨hvalid, hchecks⟩
    constructor
    · intro t ht
      rcases (Table.mem_insert (r := input.ticket id) hnew).mp ht with ht | rfl
      · exact htickets t ht
      · exact hproper
    · intro e he
      rcases (Table.mem_insert happends.new).mp he with he | rfl
      · exact houtbox e he
      · exact ⟨_, n, fresh, hproper, Or.inl rfl⟩
  -- The announcement shows the ticket after the change.
  | @changed r t t' n fresh hnext hfind hlock hrecords happends =>
    have hproper : t'.Proper := hnext.proper hvalid (htickets t (Table.mem_of_find? hfind))
    constructor
    · intro x hx
      rcases (mem_change hfind hnext.id).mp hx with rfl | ⟨hx, -⟩
      · exact hproper
      · exact htickets x hx
    · intro e he
      rcases (Table.mem_insert happends.new).mp he with he | rfl
      · exact houtbox e he
      · exact ⟨t', n, fresh, hproper, Or.inr rfl⟩

/-- Rows are written at the time that their environment shows. -/
theorem writes_datable : engine.Writes (fun fresh => Datable fresh.occurredAt) fun x =>
    ∀ e, x = .insertOutboxEvent e → Datable e.createdAt := by
  rintro q context db r ws hfresh hexec x hx e rfl
  -- Only one of the statements writes to the outbox.
  cases q with
  | insertOutboxEvent subject payload =>
    obtain ⟨-, rfl, -⟩ := exec_insertOutboxEvent hexec
    obtain rfl := Write.insertOutboxEvent.inj (List.mem_singleton.mp hx)
    exact hfresh
  | _ =>
    simp only [engine, exec, updateMatched] at hexec
    repeat' split at hexec
    all_goals cases hexec
    all_goals simp at hx

section Reachable

variable {protobuf : Protobuf} {db : Db}

/-- In every reachable state, the tickets and the announcements are proper. -/
theorem proper_of_reachable (h : Reachable protobuf db) : db.Proper := by
  obtain ⟨clock, labels, rfl⟩ := h
  refine (Discipline.begun_run allSafe (inv_init clock) (A := Call.Valid)
    (P := fun w => w.db.Proper) (fun hdb _ _ => hdb)
    (fun hvalid _ hdb hguar => hdb.change hvalid hguar) ?_ ?_).1
  · constructor <;> simp [State.init, Db.init]
  · intro call hcall
    obtain ⟨request, hrequest⟩ := exists_request hcall
    exact request.valid hrequest

/-- In every reachable state, the announcements show a time in the years 1 to 9999. -/
theorem datable_of_reachable (h : Reachable protobuf db) :
    ∀ e ∈ db.outboxEvents.rows, Datable e.createdAt := by
  obtain ⟨clock, labels, rfl⟩ := h
  refine written_run (P := fun db : Db => ∀ e ∈ db.outboxEvents.rows, Datable e.createdAt)
    writes_datable ?_ ?_ fun i fresh hfresh => fresh_of_mem hfresh
  · intro db x hdb hx
    cases x with
    | insertOutboxEvent e =>
      intro y hy
      rcases Table.mem_of_mem_insert hy with hy | rfl
      · exact hdb y hy
      · exact hx y rfl
    | _ => exact hdb
  · simp [State.init, Db.init]

end Reachable

end Tickets
