import PolyglotTicketing.Tickets.Database

/-!
# The repository of Tickets

The methods of `apps/tickets/internal/ticket/postgres_repository.go` as transactions, in the way of
`Orders.Repository`.
-/

namespace Tickets

open Platform Contracts Transaction

/-- The input of `Create`. -/
structure CreateInput where
  title : String
  price : Int
  userID : String
deriving DecidableEq

/-- The input of `Update`. -/
structure UpdateInput where
  title : String
  price : Int
  userID : String
deriving DecidableEq

/-- Send one statement. -/
def query (s : Stmt) : Tx (Res s) := Program.query s

/-- The snapshot of a ticket in an event. -/
def Ticket.snapshot (t : Ticket) : ProtoTicket :=
  { id := t.id, title := t.title, price := t.price, userID := t.userID }

def marshalTicketCreated (eventID : Uuid) (occurredAt : Int) (created : Ticket) : TicketEvent :=
  .created
    { eventID
      occurredAt
      ticket := created.snapshot
      aggregateVersion := created.aggregateVersion }

def marshalTicketUpdated (eventID : Uuid) (occurredAt : Int) (updated : Ticket) : TicketEvent :=
  .updated
    { eventID
      occurredAt
      ticket := updated.snapshot
      aggregateVersion := updated.aggregateVersion }

def create (input : CreateInput) : Tx Ticket := do
  let created ← query (.insertTicket input.title input.price input.userID)
  query (.insertOutboxEvent ticketCreatedSubject fun eventID occurredAt =>
    marshalTicketCreated eventID occurredAt created)
  return created

def insertTicketUpdatedEvent (updated : Ticket) : Tx Unit :=
  query (.insertOutboxEvent ticketUpdatedSubject fun eventID occurredAt =>
    marshalTicketUpdated eventID occurredAt updated)

def update (id : Uuid) (input : UpdateInput) : Tx Ticket := do
  match ← query (.selectReservedForUpdate id input.userID) with
  | none => .fail .notFound
  | some reserved =>
    if reserved then .fail .reserved
    else
      match ← query (.updateTicket id input.userID input.title input.price) with
      | none => .fail .notFound
      | some updated =>
        insertTicketUpdatedEvent updated
        return updated

/-- `false` if the event has been processed before. -/
def recordProcessedEvent (eventID : Uuid) : Tx Bool := query (.insertProcessedEvent eventID)

/-- Records the created event, locks the ticket, and publishes its updated snapshot. -/
def reserveTicketFromOrder (eventID orderID ticketID : Uuid) : Tx Unit := do
  match ← recordProcessedEvent eventID with
  | false => return ()
  | true =>
    match ← query (.selectReservationForUpdate ticketID) with
    | none => .fail .notFound
    | some (some reservedByOrderID) =>
      if reservedByOrderID = orderID then return () else .fail .reserved
    | some none =>
      match ← query (.reserveTicket ticketID orderID) with
      | none => .fail .noRows
      | some updated => insertTicketUpdatedEvent updated

/-- Clears the ticket marker only when the canceled order still owns that reservation. -/
def unreserveTicketFromOrder (eventID orderID ticketID : Uuid) : Tx Unit := do
  match ← recordProcessedEvent eventID with
  | false => return ()
  | true =>
    match ← query (.selectReservationForUpdate ticketID) with
    | none => .fail .notFound
    | some reservedByOrderID =>
      if reservedByOrderID ≠ some orderID then .fail .orderReservationPending
      else
        match ← query (.unreserveTicket ticketID orderID) with
        | none => .fail .noRows
        | some updated => insertTicketUpdatedEvent updated

/-- The operations of the repository. -/
inductive Call where
  | create (input : CreateInput)
  | update (id : Uuid) (input : UpdateInput)
  | reserveTicketFromOrder (eventID orderID ticketID : Uuid)
  | unreserveTicketFromOrder (eventID orderID ticketID : Uuid)
deriving DecidableEq

/-- What the operations return besides an error. -/
inductive Reply where
  | created (t : Ticket)
  | updated (t : Ticket)
  | applied
deriving DecidableEq

/-- The transaction that an operation runs. -/
def program : Call → Tx Reply
  | .create input => (create input).bind fun t => .done (.created t)
  | .update id input => (update id input).bind fun t => .done (.updated t)
  | .reserveTicketFromOrder eventID orderID ticketID =>
    (reserveTicketFromOrder eventID orderID ticketID).bind fun _ => .done .applied
  | .unreserveTicketFromOrder eventID orderID ticketID =>
    (unreserveTicketFromOrder eventID orderID ticketID).bind fun _ => .done .applied

end Tickets
