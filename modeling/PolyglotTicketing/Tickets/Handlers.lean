import PolyglotTicketing.Contracts.Wire
import PolyglotTicketing.Messaging.Consumer
import PolyglotTicketing.Tickets.Service

/-!
# The entry points of Tickets

What requests (`internal/ticket/service.go`) and events (`internal/projection/order_handler.go`)
have to look like before Tickets passes them on to its repository.
-/

namespace Tickets

open Platform Contracts Messaging Wire

namespace Service

def createTicket (input : CreateInput) : Except (List ValidationError) Call :=
  let errors := validateMutation input.title input.price input.userID
  if errors ≠ [] then .error errors else .ok (.create input)

/-- `GetTicket`, which looks for a ticket. -/
def getTicket (id : String) : Query Uuid := { ids := [id], call := fun read => read id }

/-- `UpdateTicket`, up to its first look at the ticket. -/
def updateTicket (id : String) (input : UpdateInput) :
    Except (List ValidationError) (Query Call) :=
  let errors := validateMutation input.title input.price input.userID
  if errors ≠ [] then .error errors
  else .ok { ids := [id], call := fun read => .update (read id) input }

end Service

/-- The errors of the repository, as the consumers see them. -/
def Err.failure : Err → Failure
  | .orderReservationPending => Sentinel.failure .ticketOrderReservationPending
  | .notFound => ⟨"ticket not found", []⟩
  | .reserved => ⟨"ticket is reserved", []⟩
  | .noRows => ⟨"no rows in result set", []⟩

variable (protobuf : Protobuf)

namespace OrderHandler

def handleCreated (payload : List UInt8) : Except Sentinel (Query Call) :=
  match protobuf.orderCreated.unmarshal payload with
  | none => .error .ticketInvalidOrderEvent
  | some event =>
    match event.ticket with
    | none => .error .ticketInvalidOrderEvent
    | some ticket =>
      if Blank event.eventID ∨ ¬Dated event.occurredAt ∨ Blank event.orderID ∨
          Blank event.userID ∨ event.aggregateVersion < 0 ∨ event.orderStatus ≠ some .created ∨
          ¬Dated event.expiresAt ∨ Blank ticket.id ∨ ticket.price ≤ 0 then
        .error .ticketInvalidOrderEvent
      else .ok
        { ids := [event.eventID, event.orderID, ticket.id]
          call := fun read =>
            .reserveTicketFromOrder (read event.eventID) (read event.orderID) (read ticket.id) }

def handleCanceled (payload : List UInt8) : Except Sentinel (Query Call) :=
  match protobuf.orderCanceled.unmarshal payload with
  | none => .error .ticketInvalidOrderEvent
  | some event =>
    match event.ticket with
    | none => .error .ticketInvalidOrderEvent
    | some ticket =>
      if Blank event.eventID ∨ ¬Dated event.occurredAt ∨ Blank event.orderID ∨
          event.aggregateVersion < 0 ∨ Blank ticket.id then
        .error .ticketInvalidOrderEvent
      else .ok
        { ids := [event.eventID, event.orderID, ticket.id]
          call := fun read =>
            .unreserveTicketFromOrder (read event.eventID) (read event.orderID) (read ticket.id) }

def handle (subject : String) (payload : List UInt8) : Except Sentinel (Query Call) :=
  if subject = orderCreatedSubject then handleCreated protobuf payload
  else if subject = orderCanceledSubject then handleCanceled protobuf payload
  else .error .ticketUnsupportedOrderEvent

end OrderHandler

end Tickets
