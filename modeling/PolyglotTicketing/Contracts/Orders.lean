import PolyglotTicketing.Platform.Basic

/-!
# Order events

The subjects of `contracts/orders` and the messages of `proto/orders/v1/events.proto` that Orders
publishes on them.
-/

namespace Contracts

open Platform

/-- The subject of `OrderCanceled`. -/
def orderCanceledSubject : String := "orders.order.canceled.v1"

/-- The subject of `OrderCreated`. -/
def orderCreatedSubject : String := "orders.order.created.v1"

/-- The subject of parked ticket events. -/
def ticketProjectionDeadLetterSubject : String := "dlq.orders.ticket-projection.v1"

/-- The subject of parked `ExpirationComplete` events. -/
def expirationCompleteDeadLetterSubject : String := "dlq.orders.expiration-complete.v1"

/-- The subject of parked `PaymentCreated` events. -/
def paymentCreatedDeadLetterSubject : String := "dlq.orders.payment-created.v1"

/-- The subject of parked `PaymentSucceeded` events. -/
def paymentSucceededDeadLetterSubject : String := "dlq.orders.payment-succeeded.v1"

/-- The subject of parked `PaymentFailed` events. -/
def paymentFailedDeadLetterSubject : String := "dlq.orders.payment-failed.v1"

/-- The protobuf enumeration `orders.v1.OrderStatus`. -/
inductive ProtoOrderStatus where
  | unspecified
  | created
  | canceled
  | awaitingPayment
  | complete
deriving DecidableEq

/-- The message `orders.v1.OrderTicket`. -/
structure OrderTicket where
  id : Uuid
  price : Int
deriving DecidableEq

/-- The message `orders.v1.OrderCreated`. -/
structure OrderCreated where
  eventID : Uuid
  occurredAt : Int
  orderID : Uuid
  orderStatus : ProtoOrderStatus
  userID : String
  expiresAt : Int
  aggregateVersion : Int
  ticket : OrderTicket
deriving DecidableEq

/-- The message `orders.v1.OrderCanceledTicket`. -/
structure OrderCanceledTicket where
  id : Uuid
deriving DecidableEq

/-- The message `orders.v1.OrderCanceled`. -/
structure OrderCanceled where
  eventID : Uuid
  occurredAt : Int
  orderID : Uuid
  aggregateVersion : Int
  ticket : OrderCanceledTicket
deriving DecidableEq

/-- What Orders publishes. -/
inductive OrderEvent where
  | created (e : OrderCreated)
  | canceled (e : OrderCanceled)
deriving DecidableEq

/-- The order an event is about. -/
def OrderEvent.orderID : OrderEvent → Uuid
  | .created e => e.orderID
  | .canceled e => e.orderID

end Contracts
