import PolyglotTicketing.Messaging.Disposal
import PolyglotTicketing.Orders.Server
import PolyglotTicketing.Payments.Server
import PolyglotTicketing.Tickets.Server

/-!
# Entry points with identifiers

The requests and the events of Tickets, Orders and Payments that have identifiers for columns of
type `UUID` in them: what the services check of them, what they pass on to their repositories, and
what becomes of them, by the servers and by `handleDelivery` of the consumers.
-/

namespace Integration

open Platform Contracts Messaging Transaction Wire

/-- Requests and events with identifiers in them. -/
inductive EntryPoint where
  | getTicket (id : String)
  | updateTicket (id : String) (input : Tickets.UpdateInput)
  | createOrder (now : Int) (ticketID userID : String)
  | getOrder (orderID userID : String)
  | cancelOrder (orderID userID : String)
  | createPayment (orderID userID : String)
  | ordersTicketHandler (subject : String) (payload : List UInt8)
  | ordersExpirationCompleteHandler (payload : List UInt8)
  | ordersPaymentCreatedHandler (payload : List UInt8)
  | ordersPaymentResultHandler (subject : String) (payload : List UInt8)
  | ticketsOrderHandler (subject : String) (payload : List UInt8)
  | paymentsOrderHandler (subject : String) (payload : List UInt8)

/-- Whether the entry point asks `uuid.Parse` about the identifiers. -/
def EntryPoint.parses : EntryPoint → Bool
  | .getTicket _ => false
  | .updateTicket _ _ => false
  | .ordersTicketHandler _ _ => false
  | .ticketsOrderHandler _ _ => false
  | _ => true

/-- Whether the entry point is the handler of an event, and not a request. -/
def EntryPoint.isEvent : EntryPoint → Bool
  | .getTicket _ => false
  | .updateTicket _ _ => false
  | .createOrder _ _ _ => false
  | .getOrder _ _ => false
  | .cancelOrder _ _ => false
  | .createPayment _ _ => false
  | _ => true

section Fields

variable (protobuf : Protobuf)

/-- The message of Tickets in a payload. -/
def ticketEvent (subject : String) (payload : List UInt8) : Option Wire.TicketEvent :=
  if subject = ticketCreatedSubject then protobuf.ticketCreated.unmarshal payload
  else if subject = ticketUpdatedSubject then protobuf.ticketUpdated.unmarshal payload
  else none

/-- The message about the result of a payment in a payload. -/
def paymentResult (subject : String) (payload : List UInt8) : Option Wire.PaymentEvent :=
  if subject = paymentSucceededSubject then protobuf.paymentSucceeded.unmarshal payload
  else if subject = paymentFailedSubject then protobuf.paymentFailed.unmarshal payload
  else none

/-- The message of Orders in a payload. -/
def orderEvent (subject : String) (payload : List UInt8) :
    Option (Wire.OrderCreated ⊕ Wire.OrderCanceled) :=
  if subject = orderCreatedSubject then (protobuf.orderCreated.unmarshal payload).map .inl
  else if subject = orderCanceledSubject then (protobuf.orderCanceled.unmarshal payload).map .inr
  else none

/-- The identifiers of a message for columns of type `UUID`, that of the event first. The text of an
identifier in a part that is missing is empty. -/
def ticketEventIDs (event : Wire.TicketEvent) : List String :=
  [event.eventID, event.ticket.elim "" Wire.Ticket.id]

def expirationCompleteIDs (event : Wire.ExpirationComplete) : List String :=
  [event.eventID, event.orderID]

def paymentEventIDs (event : Wire.PaymentEvent) : List String := [event.eventID, event.orderID]

/-- Payments does not store the ticket of an order. -/
def paymentsOrderIDs : Wire.OrderCreated ⊕ Wire.OrderCanceled → List String
  | .inl event => [event.eventID, event.orderID]
  | .inr event => [event.eventID, event.orderID]

def ticketsOrderIDs : Wire.OrderCreated ⊕ Wire.OrderCanceled → List String
  | .inl event => [event.eventID, event.orderID, event.ticket.elim "" OrderTicket.id]
  | .inr event => [event.eventID, event.orderID, event.ticket.elim "" OrderCanceledTicket.id]

/-- The identifiers of a request or an event for columns of type `UUID`. There are none in a payload
that cannot be decoded. -/
def EntryPoint.ids : EntryPoint → List String
  | .getTicket id => [id]
  | .updateTicket id _ => [id]
  | .createOrder _ ticketID _ => [ticketID]
  | .getOrder orderID _ => [orderID]
  | .cancelOrder orderID _ => [orderID]
  | .createPayment orderID _ => [orderID]
  | .ordersTicketHandler subject payload =>
    (ticketEvent protobuf subject payload).elim [] ticketEventIDs
  | .ordersExpirationCompleteHandler payload =>
    (protobuf.expirationComplete.unmarshal payload).elim [] expirationCompleteIDs
  | .ordersPaymentCreatedHandler payload =>
    (protobuf.paymentCreated.unmarshal payload).elim [] paymentEventIDs
  | .ordersPaymentResultHandler subject payload =>
    (paymentResult protobuf subject payload).elim [] paymentEventIDs
  | .ticketsOrderHandler subject payload =>
    (orderEvent protobuf subject payload).elim [] ticketsOrderIDs
  | .paymentsOrderHandler subject payload =>
    (orderEvent protobuf subject payload).elim [] paymentsOrderIDs

/-- What the ticket handler of Orders requires. -/
def TicketEventValid (event : Wire.TicketEvent) : Prop :=
  ∃ ticket ∈ event.ticket, ¬Blank event.eventID ∧ ¬Blank ticket.id ∧ ¬Blank ticket.title ∧
    0 < ticket.price ∧ 0 ≤ event.aggregateVersion

/-- What the expiration handler of Orders requires. -/
def ExpirationCompleteValid (event : Wire.ExpirationComplete) : Prop :=
  uuidParse event.eventID ≠ none ∧ uuidParse event.orderID ≠ none ∧ ¬Blank event.eventID ∧
    ¬Blank event.orderID ∧ Dated event.occurredAt

/-- What the order handler of Tickets requires. -/
def TicketsOrderValid : Wire.OrderCreated ⊕ Wire.OrderCanceled → Prop
  | .inl event => ∃ ticket ∈ event.ticket, ¬Blank event.eventID ∧ Dated event.occurredAt ∧
      ¬Blank event.orderID ∧ ¬Blank event.userID ∧ 0 ≤ event.aggregateVersion ∧
        event.orderStatus = some .created ∧ Dated event.expiresAt ∧ ¬Blank ticket.id ∧
          0 < ticket.price
  | .inr event => ∃ ticket ∈ event.ticket, ¬Blank event.eventID ∧ Dated event.occurredAt ∧
      ¬Blank event.orderID ∧ 0 ≤ event.aggregateVersion ∧ ¬Blank ticket.id

/-- What the order handler of Payments requires. -/
def PaymentsOrderValid : Wire.OrderCreated ⊕ Wire.OrderCanceled → Prop
  | .inl event => ∃ ticket ∈ event.ticket, uuidParse event.eventID ≠ none ∧
      Dated event.occurredAt ∧ uuidParse event.orderID ≠ none ∧ ¬Blank event.userID ∧
        0 ≤ event.aggregateVersion ∧ event.orderStatus = some .created ∧ Dated event.expiresAt ∧
          uuidParse ticket.id ≠ none ∧ 0 < ticket.price
  | .inr event => ∃ ticket ∈ event.ticket, uuidParse event.eventID ≠ none ∧
      Dated event.occurredAt ∧ uuidParse event.orderID ≠ none ∧ 0 ≤ event.aggregateVersion ∧
        uuidParse ticket.id ≠ none

/-- What an entry point requires of a request or an event, in its own fields. -/
def EntryPoint.Valid : EntryPoint → Prop
  | .getTicket _ => True
  | .updateTicket _ input => Tickets.validateMutation input.title input.price input.userID = []
  | .createOrder _ ticketID userID => uuidParse ticketID ≠ none ∧ ¬Blank userID
  | .getOrder orderID userID => uuidParse orderID ≠ none ∧ ¬Blank userID
  | .cancelOrder orderID userID => uuidParse orderID ≠ none ∧ ¬Blank userID
  | .createPayment orderID userID => uuidParse orderID ≠ none ∧ ¬Blank userID
  | .ordersTicketHandler subject payload =>
    ∃ event ∈ ticketEvent protobuf subject payload, TicketEventValid event
  | .ordersExpirationCompleteHandler payload =>
    ∃ event ∈ protobuf.expirationComplete.unmarshal payload, ExpirationCompleteValid event
  | .ordersPaymentCreatedHandler payload =>
    ∃ event ∈ protobuf.paymentCreated.unmarshal payload, Orders.ValidPaymentEvent event
  | .ordersPaymentResultHandler subject payload =>
    ∃ event ∈ paymentResult protobuf subject payload, Orders.ValidPaymentEvent event
  | .ticketsOrderHandler subject payload =>
    ∃ event ∈ orderEvent protobuf subject payload, TicketsOrderValid event
  | .paymentsOrderHandler subject payload =>
    ∃ event ∈ orderEvent protobuf subject payload, PaymentsOrderValid event

end Fields

/-- The texts that a call passes on, unless there is none. -/
def texts {ε Call : Type} : Except ε (Query Call) → Option (List String)
  | .error _ => none
  | .ok query => some query.ids

/-- What an entry point passes on to its repository as values of type `UUID`. It is `none` where the
entry point rejects the request or the event. -/
def EntryPoint.passes (protobuf : Protobuf) : EntryPoint → Option (List String)
  | .getTicket id => some (Tickets.Service.getTicket id).ids
  | .updateTicket id input => texts (Tickets.Service.updateTicket id input)
  | .createOrder now ticketID userID => texts (Orders.Service.reserveTicket now ticketID userID)
  | .getOrder orderID userID => texts (Orders.Service.getOrder orderID userID)
  | .cancelOrder orderID userID => texts (Orders.Service.cancelOrder orderID userID)
  | .createPayment orderID userID => texts (Payments.Service.createPayment orderID userID)
  | .ordersTicketHandler subject payload =>
    texts (Orders.TicketHandler.handle protobuf subject payload)
  | .ordersExpirationCompleteHandler payload =>
    texts (Orders.ExpirationCompleteHandler.handle protobuf payload)
  | .ordersPaymentCreatedHandler payload =>
    texts (Orders.PaymentCreatedHandler.handle protobuf payload)
  | .ordersPaymentResultHandler subject payload =>
    texts (Orders.PaymentResultHandler.handle protobuf subject payload)
  | .ticketsOrderHandler subject payload =>
    texts (Tickets.OrderHandler.handle protobuf subject payload)
  | .paymentsOrderHandler subject payload =>
    texts (Payments.OrderHandler.handle protobuf subject payload)

/-- What surrounds a request or the delivery of an event. -/
structure Surroundings where
  /-- The database in which Tickets looks for a ticket, unless it cannot be reached. -/
  ticketsDb : Option Tickets.Db
  /-- The database in which Orders looks for an order, unless it cannot be reached. -/
  ordersDb : Option Orders.Db
  /-- How the transactions end. -/
  tickets : Tickets.Call → Outcome Tickets.Err Tickets.Reply
  orders : Orders.Call → Outcome Orders.Err Orders.Reply
  payments : Payments.Call → Outcome Payments.Err Payments.Reply
  /-- The events that the service has processed. -/
  processed : List Uuid
  /-- The error of a database. -/
  databaseError : String
  /-- What a method returns for a text that is not accepted: the error of the database, or what
  Tickets finds out before it gets to the text. -/
  rejection : Failure
  wraps_rejection : ∀ err ∈ rejection.wraps, err = .ticketOrderReservationPending
  deliveryCount : ℕ
  /-- The event is delivered again after a failure. -/
  deliveryCount_le : deliveryCount ≤ orderEventMaxRetries
  headers : Option ℕ
  stream : String
  streamSeq : ℕ
  /-- The replies of JetStream to the consumer. -/
  park : ParkReply
  ack : AckReply

/-- What becomes of a request or a delivery. -/
inductive Answer where
  /-- The server has answered, with the code of an error or without one. -/
  | responded (code : Option GrpcCode)
  /-- The consumer has made these calls, and has observed the outcome. -/
  | delivered (calls : List Messaging.Call) (outcome : Option String)

/-- The code of an error. -/
def grpcCode {α : Type} : Except Refusal α → Option GrpcCode
  | .error r => some r.code
  | .ok _ => none

section Answers

variable {Call Err Reply : Type} (s : Surroundings)

/-- The error of a handler, if it fails. -/
def Surroundings.handlerError (failure : Err → Failure) (repository : Call → Outcome Err Reply) :
    Except Sentinel (Query Call) → Option Failure
  | .error err => some err.failure
  | .ok query =>
    -- The first statement finds out whether the event has been processed before.
    if ∃ id ∈ query.ids.head?, ∃ eventID ∈ uuidIn id, eventID ∈ s.processed then none
    else
      match query.read.map repository with
      | none => some s.rejection
      | some (.committed _) => none
      | some (.failed err) => some (failure err)
      | some .aborted => some ⟨s.databaseError, []⟩

def Surroundings.delivery (subject : String) (payload : List UInt8) : Delivery where
  deliveryCount := s.deliveryCount
  headers := s.headers
  payload
  stream := s.stream
  streamSeq := s.streamSeq
  subject

def Surroundings.replies (handler : Option Failure) : Replies where
  handler
  park := s.park
  ack := s.ack
  ackAgain := s.ack

/-- What a consumer does with a delivery, when its handler returns this error. -/
def Surroundings.deliver (consumer : Consumer) (subject : String) (payload : List UInt8)
    (handler : Option Failure) : Answer :=
  let result := consumer.handleDelivery (s.delivery subject payload) (s.replies handler)
  .delivered result.1 result.2

/-- The consumer of Orders that gets the results of payments with this subject. -/
def paymentResultConsumer (subject : String) : Consumer :=
  if subject = paymentSucceededSubject then paymentSucceededConsumer else paymentFailedConsumer

/-- The consumer of Tickets that gets the messages of Orders with this subject. -/
def ticketsOrderConsumer (subject : String) : Consumer :=
  if subject = orderCanceledSubject then orderCanceledConsumer else orderCreatedConsumer

/-- What becomes of a request or an event. -/
def EntryPoint.answer (protobuf : Protobuf) : EntryPoint → Answer
  | .getTicket id => .responded (grpcCode (Tickets.Server.getTicket s.ticketsDb id))
  | .updateTicket id input =>
    .responded (grpcCode (Tickets.Server.updateTicket s.ticketsDb s.tickets id input))
  | .createOrder now ticketID userID =>
    .responded (grpcCode (Orders.Server.createOrder s.orders now ticketID userID))
  | .getOrder orderID userID =>
    .responded (grpcCode (Orders.Server.getOrder s.ordersDb orderID userID))
  | .cancelOrder orderID userID =>
    .responded (grpcCode (Orders.Server.cancelOrder s.orders orderID userID))
  | .createPayment orderID userID =>
    .responded (grpcCode (Payments.Server.createPayment s.payments orderID userID))
  | .ordersTicketHandler subject payload =>
    s.deliver ticketConsumer subject payload
      (s.handlerError Orders.Err.failure s.orders
        (Orders.TicketHandler.handle protobuf subject payload))
  | .ordersExpirationCompleteHandler payload =>
    s.deliver expirationCompleteConsumer expirationCompleteSubject payload
      (s.handlerError Orders.Err.failure s.orders
        (Orders.ExpirationCompleteHandler.handle protobuf payload))
  | .ordersPaymentCreatedHandler payload =>
    s.deliver paymentCreatedConsumer paymentCreatedSubject payload
      (s.handlerError Orders.Err.failure s.orders
        (Orders.PaymentCreatedHandler.handle protobuf payload))
  | .ordersPaymentResultHandler subject payload =>
    s.deliver (paymentResultConsumer subject) subject payload
      (s.handlerError Orders.Err.failure s.orders
        (Orders.PaymentResultHandler.handle protobuf subject payload))
  | .ticketsOrderHandler subject payload =>
    s.deliver (ticketsOrderConsumer subject) subject payload
      (s.handlerError Tickets.Err.failure s.tickets
        (Tickets.OrderHandler.handle protobuf subject payload))
  | .paymentsOrderHandler subject payload =>
    s.deliver paymentsOrderConsumer subject payload
      (s.handlerError Payments.Err.failure s.payments
        (Payments.OrderHandler.handle protobuf subject payload))

end Answers

end Integration
