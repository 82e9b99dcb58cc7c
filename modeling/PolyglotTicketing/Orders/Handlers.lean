import PolyglotTicketing.Contracts.Wire
import PolyglotTicketing.Messaging.Consumer
import PolyglotTicketing.Orders.Repository

/-!
# The entry points of Orders

What requests (`internal/order/service.go`) and events (`internal/projection/ticket_handler.go`,
`internal/order/expiration_handler.go`, `payment_handler.go` and `payment_result_handler.go`) have
to look like before Orders passes them on to its repository.
-/

namespace Orders

open Platform Contracts Messaging Wire

structure ValidationError where
  code : String
  field : String
  message : String
deriving DecidableEq

def expirationWindow : Int := minutes 15

def validateOrderUser (userID : String) : List ValidationError :=
  if Blank userID then
    [{ code := "INVALID_ARGUMENT", field := "userId", message := "Order user is required." }]
  else []

def validateOrderID (orderID : String) : List ValidationError :=
  if uuidParse orderID = none then
    [{ code := "INVALID_ARGUMENT", field := "orderId"
       message := "Order ID must be a valid UUID." }]
  else []

def validateTicketReservation (ticketID userID : String) : List ValidationError :=
  if uuidParse ticketID = none then
    [{ code := "INVALID_ARGUMENT", field := "ticketId"
       message := "Ticket ID must be a valid UUID." }]
  else validateOrderUser userID

namespace Service

/-- `ReserveTicket`, at the time `now`. -/
def reserveTicket (now : Int) (ticketID userID : String) :
    Except (List ValidationError) (Query Call) :=
  let validationErrors := validateTicketReservation ticketID userID
  if validationErrors ≠ [] then .error validationErrors
  else .ok
    { ids := [ticketID]
      call := fun read => .reserveTicket
        { expiresAt := now + expirationWindow, ticketID := read ticketID, userID := userID } }

/-- `GetOrder` and `CancelOrder` check their arguments in the same way. -/
def orderOfUser {α : Type} (call : Uuid → String → α) (orderID userID : String) :
    Except (List ValidationError) (Query α) :=
  if validateOrderID orderID ≠ [] then .error (validateOrderID orderID)
  else if validateOrderUser userID ≠ [] then .error (validateOrderUser userID)
  else .ok { ids := [orderID], call := fun read => call (read orderID) userID }

/-- `GetOrder`, which looks for the order of a user. -/
def getOrder (orderID userID : String) : Except (List ValidationError) (Query (Uuid × String)) :=
  orderOfUser Prod.mk orderID userID

def cancelOrder (orderID userID : String) : Except (List ValidationError) (Query Call) :=
  orderOfUser .cancelByIDAndUser orderID userID

end Service

/-- The errors of the repository, as the consumers see them. -/
def Err.failure : Err → Failure
  | .ticketEventVersionGap => Sentinel.failure .orderTicketEventVersionGap
  | .notFound => ⟨"ticket not found", []⟩
  | .orderNotFound => ⟨"order not found", []⟩
  | .orderNotCancelable => ⟨"order cannot be canceled", []⟩
  | .reserved => ⟨"ticket is reserved", []⟩

variable (protobuf : Protobuf)

namespace TicketHandler

def apply (event : Wire.TicketEvent) : Except Sentinel (Query Call) :=
  match event.ticket with
  | none => .error .orderInvalidTicketEvent
  | some ticket =>
    if Blank event.eventID ∨ Blank ticket.id ∨ Blank ticket.title ∨ ticket.price ≤ 0 ∨
        event.aggregateVersion < 0 then .error .orderInvalidTicketEvent
    else .ok
      { ids := [event.eventID, ticket.id]
        call := fun read => .upsertTicketFromEvent (read event.eventID)
          { aggregateVersion := event.aggregateVersion
            id := read ticket.id
            title := ticket.title
            price := ticket.price } }

def handle (subject : String) (payload : List UInt8) : Except Sentinel (Query Call) :=
  if subject = ticketCreatedSubject then
    match protobuf.ticketCreated.unmarshal payload with
    | none => .error .orderInvalidTicketEvent
    | some event => apply event
  else if subject = ticketUpdatedSubject then
    match protobuf.ticketUpdated.unmarshal payload with
    | none => .error .orderInvalidTicketEvent
    | some event => apply event
  else .error .orderUnsupportedSubject

end TicketHandler

/-- `ExpirationCompleteHandler.Handle`. -/
def ExpirationCompleteHandler.handle (payload : List UInt8) : Except Sentinel (Query Call) :=
  match protobuf.expirationComplete.unmarshal payload with
  | none => .error .orderInvalidExpirationEvent
  | some event =>
    if uuidParse event.eventID = none ∨ uuidParse event.orderID = none ∨ Blank event.eventID ∨
        Blank event.orderID ∨ ¬Dated event.occurredAt then .error .orderInvalidExpirationEvent
    else .ok
      { ids := [event.eventID, event.orderID]
        call := fun read => .applyExpirationComplete (read event.eventID) (read event.orderID) }

/-- `validPaymentEvent`, which `PaymentCreatedHandler` spells out. -/
def ValidPaymentEvent (event : Wire.PaymentEvent) : Prop :=
  uuidParse event.eventID ≠ none ∧ uuidParse event.paymentID ≠ none ∧
    uuidParse event.orderID ≠ none ∧ ¬Blank event.eventID ∧ ¬Blank event.paymentID ∧
      ¬Blank event.orderID ∧ Dated event.occurredAt

instance (event : Wire.PaymentEvent) : Decidable (ValidPaymentEvent event) :=
  inferInstanceAs (Decidable (_ ∧ _))

/-- What the handlers of payment events do with a payload: they check it, and pass on its event and
its order. -/
def handlePayment (codec : Codec Wire.PaymentEvent) (call : Uuid → Uuid → Call)
    (payload : List UInt8) : Except Sentinel (Query Call) :=
  match codec.unmarshal payload with
  | none => .error .orderInvalidPaymentEvent
  | some event =>
    if ¬ValidPaymentEvent event then .error .orderInvalidPaymentEvent
    else .ok
      { ids := [event.eventID, event.orderID]
        call := fun read => call (read event.eventID) (read event.orderID) }

/-- `PaymentCreatedHandler.Handle`. -/
def PaymentCreatedHandler.handle (payload : List UInt8) : Except Sentinel (Query Call) :=
  handlePayment protobuf.paymentCreated .applyPaymentCreated payload

/-- `PaymentResultHandler.Handle`. -/
def PaymentResultHandler.handle (subject : String) (payload : List UInt8) :
    Except Sentinel (Query Call) :=
  if subject = paymentSucceededSubject then
    handlePayment protobuf.paymentSucceeded .applyPaymentSucceeded payload
  else if subject = paymentFailedSubject then
    handlePayment protobuf.paymentFailed .applyPaymentFailed payload
  else .error .orderInvalidPaymentEvent

end Orders
