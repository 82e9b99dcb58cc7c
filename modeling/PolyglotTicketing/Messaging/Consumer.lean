import PolyglotTicketing.Messaging.DeadLetter
import PolyglotTicketing.Platform.Basic

/-!
# Consumers

What the consumers of the four services do with one delivery of a message: they call a handler, and
acknowledge the message, ask for it again, or park it in the dead letter queue of their service. The
Go consumers do the same with other names and failure classes in it; the consumer of Expiration
treats an exception of `ack` like one of the handler.

The handler, the publication to the dead letter queue and the acknowledgement give whatever reply
the environment has for them. A publication that fails may have been stored all the same. An
acknowledgement may take effect or not, whatever the client says about it.
-/

namespace Messaging

open Contracts Platform

/-- The errors that the consumers tell apart. -/
inductive Sentinel where
  | orderInvalidTicketEvent
  | orderUnsupportedSubject
  | orderTicketEventVersionGap
  | orderInvalidExpirationEvent
  | orderInvalidPaymentEvent
  | ticketInvalidOrderEvent
  | ticketUnsupportedOrderEvent
  | ticketOrderReservationPending
  | paymentInvalidOrderEvent
  | paymentUnsupportedSubject
  | paymentOrderEventVersionGap
  | invalidOrderCreatedEvent
deriving DecidableEq

/-- An error: its text, and what `errors.Is` (`instanceof`) finds in it. -/
structure Failure where
  error : String
  wraps : List Sentinel

/-- `errors.Is`. -/
def Failure.Is (err : Failure) (target : Sentinel) : Prop := target ∈ err.wraps

instance (err : Failure) (target : Sentinel) : Decidable (err.Is target) :=
  inferInstanceAs (Decidable (_ ∈ _))

/-- The texts of the errors. -/
def Sentinel.text : Sentinel → String
  | .orderInvalidTicketEvent => "invalid ticket event"
  | .orderUnsupportedSubject => "unsupported ticket event subject"
  | .orderTicketEventVersionGap => "ticket event version gap"
  | .orderInvalidExpirationEvent => "invalid expiration event"
  | .orderInvalidPaymentEvent => "invalid payment event"
  | .ticketInvalidOrderEvent => "invalid order event"
  | .ticketUnsupportedOrderEvent => "unsupported order event subject"
  | .ticketOrderReservationPending => "order reservation is not available yet"
  | .paymentInvalidOrderEvent => "invalid order event"
  | .paymentUnsupportedSubject => "unsupported order event subject"
  | .paymentOrderEventVersionGap => "order event version gap"
  | .invalidOrderCreatedEvent => "OrderCreated event is invalid."

/-- The error as it is returned by a handler. -/
def Sentinel.failure (err : Sentinel) : Failure := ⟨err.text, [err]⟩

/-- A delivery of a message: `ordersDelivery`, its two copies and `OrderCreatedDelivery`. -/
structure Delivery where
  deliveryCount : ℕ
  headers : Option ℕ
  payload : List UInt8
  stream : String
  streamSeq : ℕ
  subject : String

/-- The result of `Park`. -/
inductive ParkReply where
  /-- JetStream has the message, be it a new one or a duplicate. -/
  | acknowledged
  /-- An error, and whether the publication has reached JetStream nevertheless. -/
  | failed (reached : Bool)
  /-- There is no connection. -/
  | unavailable
deriving DecidableEq

/-- The result of an acknowledgement. -/
structure AckReply where
  /-- The text of the error that the client reports, if it does. -/
  error : Option String
  /-- Whether the acknowledgement takes effect. -/
  effective : Bool

/-- What the environment replies to a consumer. -/
structure Replies where
  /-- The error of the handler, if it fails. -/
  handler : Option Failure
  park : ParkReply
  ack : AckReply
  /-- The result of a second acknowledgement, which only Expiration can make. -/
  ackAgain : AckReply

/-- What a consumer does about a message. -/
inductive Call where
  /-- `Park`, and whether it reaches JetStream. -/
  | park (event : DeadLetter) (reached : Bool)
  /-- `Ack`, and whether it takes effect. -/
  | ack (effective : Bool)
  /-- `Nak`, or `NakWithDelay`. -/
  | nak (delay : Option Int)

/-- `orderEventMaxRetries` and `orderCreatedMaxRetries`. -/
def orderEventMaxRetries : ℕ := 5

/-- The type of a Go consumer. -/
structure Consumer where
  durable : String
  deadLetterSubject : String
  failureClass : Failure → String
  /-- How long a message waits that is asked for again. -/
  retryDelay : Failure → ℕ → Option Int

/-- The method `deadLetter` of the deliveries. -/
def Delivery.deadLetter (event : Delivery) (subject consumer failureClass : String)
    (failure : Failure) : DeadLetter where
  consumer := consumer
  deliveryCount := event.deliveryCount
  failureClass := failureClass
  failureReason := failure.error
  originalHeader := event.headers
  originalStream := event.stream
  originalSeq := event.streamSeq
  originalSubject := event.subject
  payload := event.payload
  subject := subject

/-- The method `park` of the Go consumers, and whether it returns true. -/
def Consumer.park (consumer : Consumer) (event : Delivery) (failureClass : String)
    (failure : Failure) (replies : Replies) : List Call × Bool :=
  let parked := event.deadLetter consumer.deadLetterSubject consumer.durable failureClass failure
  match replies.park with
  | .unavailable => ([.nak none], false)
  | .failed reached => ([.park parked reached, .nak none], false)
  | .acknowledged => ([.park parked true, .ack replies.ack.effective], replies.ack.error.isNone)

/-- The method `handleDelivery` of the Go consumers, and the outcome that it observes. -/
def Consumer.handleDelivery (consumer : Consumer) (event : Delivery) (replies : Replies) :
    List Call × Option String :=
  match replies.handler with
  | none =>
    ([.ack replies.ack.effective],
      some (if replies.ack.error.isSome then "ack_failed" else "success"))
  | some err =>
    let failureClass := consumer.failureClass err
    if failureClass = "invalid" ∨ orderEventMaxRetries < event.deliveryCount then
      let (calls, parked) := consumer.park event failureClass err replies
      (calls, some (if parked then "dead_lettered" else "dead_letter_publish_failed"))
    else ([.nak (consumer.retryDelay err event.deliveryCount)], some "retry")

/-- `ticketFailureClass`. -/
def ticketFailureClass (err : Failure) : String :=
  if err.Is .orderInvalidTicketEvent ∨ err.Is .orderUnsupportedSubject then "invalid"
  else if err.Is .orderTicketEventVersionGap then "version_gap"
  else "retryable"

/-- `ticketVersionGapRetryDelays`. -/
def ticketVersionGapRetryDelays : List Int := [1, 2, 4, 8, 16].map seconds

def ticketVersionGapRetryDelay (deliveryCount : ℕ) : Int :=
  if deliveryCount = 0 then ticketVersionGapRetryDelays.headD 0
  else ticketVersionGapRetryDelays.getD (deliveryCount - 1) (ticketVersionGapRetryDelays.getLastD 0)

/-- `TicketConsumer` of Orders. -/
def ticketConsumer : Consumer where
  durable := "orders-ticket-projection-v1"
  deadLetterSubject := ticketProjectionDeadLetterSubject
  failureClass := ticketFailureClass
  retryDelay err deliveryCount :=
    if ticketFailureClass err = "version_gap" then
      some (ticketVersionGapRetryDelay deliveryCount)
    else none

/-- `expirationFailureClass`. -/
def expirationFailureClass (err : Failure) : String :=
  if err.Is .orderInvalidExpirationEvent then "invalid" else "retryable"

/-- `ExpirationCompleteConsumer` of Orders. -/
def expirationCompleteConsumer : Consumer where
  durable := "orders-expiration-complete-v1"
  deadLetterSubject := expirationCompleteDeadLetterSubject
  failureClass := expirationFailureClass
  retryDelay _ _ := none

/-- `paymentFailureClass`. -/
def paymentFailureClass (err : Failure) : String :=
  if err.Is .orderInvalidPaymentEvent then "invalid" else "retryable"

/-- `PaymentCreatedConsumer` of Orders. -/
def paymentCreatedConsumer : Consumer where
  durable := "orders-payment-created-v1"
  deadLetterSubject := paymentCreatedDeadLetterSubject
  failureClass := paymentFailureClass
  retryDelay _ _ := none

/-- `PaymentResultConsumer` of Orders. -/
def newPaymentResultConsumer (subject durable : String) : Consumer where
  durable := durable
  deadLetterSubject := if subject = paymentSucceededSubject then paymentSucceededDeadLetterSubject
    else paymentFailedDeadLetterSubject
  failureClass := paymentFailureClass
  retryDelay _ _ := none

def paymentFailedConsumer : Consumer :=
  newPaymentResultConsumer paymentFailedSubject "orders-payment-failed-v1"

def paymentSucceededConsumer : Consumer :=
  newPaymentResultConsumer paymentSucceededSubject "orders-payment-succeeded-v1"

/-- `orderFailureClass` of Tickets. -/
def orderFailureClass (err : Failure) : String :=
  if err.Is .ticketInvalidOrderEvent ∨ err.Is .ticketUnsupportedOrderEvent then "invalid"
  else if err.Is .ticketOrderReservationPending then "reservation_pending"
  else "retryable"

/-- `OrderConsumer` of Tickets. -/
def newOrderConsumer (durable subject : String) : Consumer where
  durable := durable
  deadLetterSubject := if subject = orderCanceledSubject then orderCancellationDeadLetterSubject
    else orderReservationDeadLetterSubject
  failureClass := orderFailureClass
  retryDelay err _ := if err.Is .ticketOrderReservationPending then some (seconds 1) else none

def orderCreatedConsumer : Consumer :=
  newOrderConsumer "tickets-order-reservation-v1" orderCreatedSubject

def orderCanceledConsumer : Consumer :=
  newOrderConsumer "tickets-order-cancellation-v1" orderCanceledSubject

/-- `paymentOrderFailureClass` of Payments. -/
def paymentOrderFailureClass (err : Failure) : String :=
  if err.Is .paymentInvalidOrderEvent ∨ err.Is .paymentUnsupportedSubject then "invalid"
  else if err.Is .paymentOrderEventVersionGap then "version_gap"
  else "retryable"

/-- `OrderConsumer` of Payments. -/
def paymentsOrderConsumer : Consumer where
  durable := "payments-order-projection-v1"
  deadLetterSubject := orderProjectionDeadLetterSubject
  failureClass := paymentOrderFailureClass
  retryDelay _ _ := none

/-- The method `failureClass` of `OrderCreatedConsumer` of Expiration. -/
def orderCreatedFailureClass (err : Failure) : String :=
  if err.Is .invalidOrderCreatedEvent then "invalid" else "retryable"

/-- The name of the consumer of Expiration. -/
def orderCreatedDurableName : String := "expiration-order-created-v1"

/-- The `catch` block of `OrderCreatedConsumer.handleDelivery`, with the method `park` in it. An
exception of the acknowledgement `ack` leaves it without an outcome. -/
def orderCreatedCatch (event : Delivery) (error : Failure) (park : ParkReply) (ack : AckReply) :
    List Call × Option String :=
  let failureClass := orderCreatedFailureClass error
  if failureClass = "invalid" ∨ orderEventMaxRetries < event.deliveryCount then
    let parked := event.deadLetter orderCreatedDeadLetterSubject orderCreatedDurableName
      failureClass error
    match park with
    | .unavailable => ([.nak none], some "dead_letter_publish_failed")
    | .failed reached => ([.park parked reached, .nak none], some "dead_letter_publish_failed")
    | .acknowledged =>
      ([.park parked true, .ack ack.effective],
        if ack.error.isSome then none else some "dead_lettered")
  else ([.nak none], some "retry")

/-- `OrderCreatedConsumer.handleDelivery` of Expiration. -/
def orderCreatedHandleDelivery (event : Delivery) (replies : Replies) :
    List Call × Option String :=
  match replies.handler with
  | some error => orderCreatedCatch event error replies.park replies.ack
  | none =>
    -- The acknowledgement stands inside the `try` block, so that its exception is caught as well.
    match replies.ack.error with
    | some error =>
      let caught := orderCreatedCatch event ⟨error, []⟩ replies.park replies.ackAgain
      (.ack replies.ack.effective :: caught.1, caught.2)
    | none => ([.ack replies.ack.effective], some "success")

/-- The consumers of the system. -/
inductive ConsumerName where
  | ordersTicket
  | ordersExpirationComplete
  | ordersPaymentCreated
  | ordersPaymentFailed
  | ordersPaymentSucceeded
  | ticketsOrderCreated
  | ticketsOrderCanceled
  | paymentsOrder
  | expirationOrderCreated
deriving DecidableEq

/-- The service that a consumer belongs to. -/
def ConsumerName.service : ConsumerName → Service
  | .ordersTicket => .orders
  | .ordersExpirationComplete => .orders
  | .ordersPaymentCreated => .orders
  | .ordersPaymentFailed => .orders
  | .ordersPaymentSucceeded => .orders
  | .ticketsOrderCreated => .tickets
  | .ticketsOrderCanceled => .tickets
  | .paymentsOrder => .payments
  | .expirationOrderCreated => .expiration

/-- What a consumer does with a delivery. -/
def ConsumerName.handleDelivery : ConsumerName → Delivery → Replies → List Call × Option String
  | .ordersTicket => ticketConsumer.handleDelivery
  | .ordersExpirationComplete => expirationCompleteConsumer.handleDelivery
  | .ordersPaymentCreated => paymentCreatedConsumer.handleDelivery
  | .ordersPaymentFailed => paymentFailedConsumer.handleDelivery
  | .ordersPaymentSucceeded => paymentSucceededConsumer.handleDelivery
  | .ticketsOrderCreated => orderCreatedConsumer.handleDelivery
  | .ticketsOrderCanceled => orderCanceledConsumer.handleDelivery
  | .paymentsOrder => paymentsOrderConsumer.handleDelivery
  | .expirationOrderCreated => orderCreatedHandleDelivery

/-- How a consumer classifies a failure. -/
def ConsumerName.failureClass : ConsumerName → Failure → String
  | .ordersTicket => ticketFailureClass
  | .ordersExpirationComplete => expirationFailureClass
  | .ordersPaymentCreated => paymentFailureClass
  | .ordersPaymentFailed => paymentFailureClass
  | .ordersPaymentSucceeded => paymentFailureClass
  | .ticketsOrderCreated => orderFailureClass
  | .ticketsOrderCanceled => orderFailureClass
  | .paymentsOrder => paymentOrderFailureClass
  | .expirationOrderCreated => orderCreatedFailureClass

end Messaging
