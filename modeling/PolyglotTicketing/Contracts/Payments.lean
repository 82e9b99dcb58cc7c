import PolyglotTicketing.Platform.Basic

/-!
# Payment events

The subjects of `contracts/payments` and the messages of `proto/payments/v1/payments.proto` that
Payments publishes on them.
-/

namespace Contracts

open Platform

/-- The subject of `PaymentCreated`. -/
def paymentCreatedSubject : String := "payments.payment.created.v1"

/-- The subject of `PaymentFailed`. -/
def paymentFailedSubject : String := "payments.payment.failed.v1"

/-- The subject of `PaymentSucceeded`. -/
def paymentSucceededSubject : String := "payments.payment.succeeded.v1"

/-- The subject of parked order events. -/
def orderProjectionDeadLetterSubject : String := "dlq.payments.order-projection.v1"

/-- The message `payments.v1.PaymentCreated`. -/
structure PaymentCreated where
  eventID : Uuid
  occurredAt : Int
  paymentID : Uuid
  orderID : Uuid
deriving DecidableEq

/-- The message `payments.v1.PaymentSucceeded`. -/
structure PaymentSucceeded where
  eventID : Uuid
  occurredAt : Int
  paymentID : Uuid
  orderID : Uuid
deriving DecidableEq

/-- The message `payments.v1.PaymentFailed`. -/
structure PaymentFailed where
  eventID : Uuid
  occurredAt : Int
  paymentID : Uuid
  orderID : Uuid
deriving DecidableEq

/-- What Payments publishes. -/
inductive PaymentEvent where
  | created (e : PaymentCreated)
  | succeeded (e : PaymentSucceeded)
  | failed (e : PaymentFailed)
deriving DecidableEq

/-- The payment an event is about. -/
def PaymentEvent.paymentID : PaymentEvent → Uuid
  | .created e => e.paymentID
  | .succeeded e => e.paymentID
  | .failed e => e.paymentID

/-- The order an event is about. -/
def PaymentEvent.orderID : PaymentEvent → Uuid
  | .created e => e.orderID
  | .succeeded e => e.orderID
  | .failed e => e.orderID

end Contracts
