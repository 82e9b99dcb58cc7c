import PolyglotTicketing.Contracts.Wire
import PolyglotTicketing.Messaging.Consumer
import PolyglotTicketing.Payments.Repository

/-!
# The entry points of Payments

What requests (`internal/payment/service.go`) and events (`internal/projection/order_handler.go`)
have to look like before Payments passes them on to its repository.
-/

namespace Payments

open Platform Contracts Messaging Wire

structure ValidationError where
  code : String
  field : String
  message : String
deriving DecidableEq

def validateCreate (orderID userID : String) : List ValidationError :=
  if uuidParse orderID = none then
    [{ code := "INVALID_ARGUMENT", field := "orderId"
       message := "Order ID must be a valid UUID." }]
  else if Blank userID then
    [{ code := "INVALID_ARGUMENT", field := "userId", message := "Payment user is required." }]
  else []

/-- `CreatePayment`. -/
def Service.createPayment (orderID userID : String) :
    Except (List ValidationError) (Query Call) :=
  let validationErrors := validateCreate orderID userID
  if validationErrors ≠ [] then .error validationErrors
  else .ok
    { ids := [orderID]
      call := fun read => .create { orderID := read orderID, userID := userID } }

/-- The value of the column `status`. -/
def Status.text : Status → String
  | .pending => "Pending"
  | .succeeded => "Succeeded"
  | .failed => "Failed"

def ProcessorOutcome.text : ProcessorOutcome → String
  | .success => "success"
  | .failure => "failure"
  | .other value => value

/-- The errors of the repository, as the consumer sees them. -/
def Err.failure : Err → Failure
  | .orderEventVersionGap => Sentinel.failure .paymentOrderEventVersionGap
  | .invalidOrderEvent => Sentinel.failure .paymentInvalidOrderEvent
  | .orderNotFound => ⟨"order not found", []⟩
  | .orderNotPayable => ⟨"order cannot be paid", []⟩
  | .invalidOutcome outcome => ⟨"invalid payment processor outcome: " ++ outcome.text.quote, []⟩
  | .unpublishableStatus status =>
    ⟨"cannot publish result for payment status " ++ status.text.quote, []⟩

variable (protobuf : Protobuf)

namespace OrderHandler

def ValidEnvelope (eventID : String) (occurredAt : Option Timestamp) : Prop :=
  uuidParse eventID ≠ none ∧ Dated occurredAt

instance (eventID : String) (occurredAt : Option Timestamp) :
    Decidable (ValidEnvelope eventID occurredAt) := inferInstanceAs (Decidable (_ ∧ _))

def handleCreated (payload : List UInt8) : Except Sentinel (Query Call) :=
  match protobuf.orderCreated.unmarshal payload with
  | none => .error .paymentInvalidOrderEvent
  | some event =>
    match event.ticket with
    | none => .error .paymentInvalidOrderEvent
    | some ticket =>
      if ¬ValidEnvelope event.eventID event.occurredAt ∨ uuidParse event.orderID = none ∨
          Blank event.userID ∨ event.aggregateVersion < 0 ∨ event.orderStatus ≠ some .created ∨
          ¬Dated event.expiresAt ∨ uuidParse ticket.id = none ∨ ticket.price ≤ 0 then
        .error .paymentInvalidOrderEvent
      else .ok
        { ids := [event.eventID, event.orderID]
          call := fun read => .upsertOrderFromEvent (read event.eventID)
            { aggregateVersion := event.aggregateVersion
              id := read event.orderID
              price := ticket.price
              status := .created
              userID := event.userID } }

def handleCanceled (payload : List UInt8) : Except Sentinel (Query Call) :=
  match protobuf.orderCanceled.unmarshal payload with
  | none => .error .paymentInvalidOrderEvent
  | some event =>
    match event.ticket with
    | none => .error .paymentInvalidOrderEvent
    | some ticket =>
      if ¬ValidEnvelope event.eventID event.occurredAt ∨ uuidParse event.orderID = none ∨
          event.aggregateVersion < 0 ∨ uuidParse ticket.id = none then
        .error .paymentInvalidOrderEvent
      else .ok
        { ids := [event.eventID, event.orderID]
          call := fun read => .cancelOrderFromEvent (read event.eventID) (read event.orderID)
            event.aggregateVersion }

def handle (subject : String) (payload : List UInt8) : Except Sentinel (Query Call) :=
  if subject = orderCreatedSubject then handleCreated protobuf payload
  else if subject = orderCanceledSubject then handleCanceled protobuf payload
  else .error .paymentUnsupportedSubject

end OrderHandler

end Payments
