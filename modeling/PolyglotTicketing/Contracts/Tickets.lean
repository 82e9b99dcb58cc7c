import PolyglotTicketing.Platform.Basic

/-!
# Ticket events

The subjects of `contracts/tickets` and the messages of `proto/tickets/v1/events.proto` that Tickets
publishes on them.
-/

namespace Contracts

open Platform

/-- The subject of `TicketCreated`. -/
def ticketCreatedSubject : String := "tickets.ticket.created.v1"

/-- The subject of `TicketUpdated`. -/
def ticketUpdatedSubject : String := "tickets.ticket.updated.v1"

/-- The subject of parked `OrderCanceled` events. -/
def orderCancellationDeadLetterSubject : String := "dlq.tickets.order-cancellation.v1"

/-- The subject of parked `OrderCreated` events. -/
def orderReservationDeadLetterSubject : String := "dlq.tickets.order-reservation.v1"

/-- The message `tickets.v1.Ticket`. -/
structure ProtoTicket where
  id : Uuid
  title : String
  price : Int
  userID : String
deriving DecidableEq

/-- The message `tickets.v1.TicketCreated`. -/
structure TicketCreated where
  eventID : Uuid
  occurredAt : Int
  ticket : ProtoTicket
  aggregateVersion : Int
deriving DecidableEq

/-- The message `tickets.v1.TicketUpdated`. -/
structure TicketUpdated where
  eventID : Uuid
  occurredAt : Int
  ticket : ProtoTicket
  aggregateVersion : Int
deriving DecidableEq

/-- What Tickets publishes. -/
inductive TicketEvent where
  | created (e : TicketCreated)
  | updated (e : TicketUpdated)
deriving DecidableEq

/-- The ticket an event is about. -/
def TicketEvent.ticketID : TicketEvent → Uuid
  | .created e => e.ticket.id
  | .updated e => e.ticket.id

end Contracts
