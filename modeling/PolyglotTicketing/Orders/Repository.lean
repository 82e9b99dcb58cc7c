import PolyglotTicketing.Contracts.Payments
import PolyglotTicketing.Orders.Database

/-!
# The repository of Orders

The methods of `apps/orders/internal/order/postgres_repository.go` as transactions. A `return` of
an error rolls the transaction back (the deferred `tx.Rollback`), every other `return` comes after
`tx.Commit`; an error of a statement is handed on by each method, which ends the transaction as
well and is left to the engine.

The four methods that apply an event to an order differ in the states they start from, in the
state they end in and in whether they announce a cancellation: they are instances of
`applyOrderEvent`.

`Call.Validated` holds the checks of `apps/orders/internal/order/service.go`, and `handle` is what
`payment_handler.go` and `payment_result_handler.go` there make of the messages of Payments, whose
identifiers and times are well-formed by their types.
-/

namespace Orders

open Platform Contracts Transaction

/-- The input of `ReserveTicket`. -/
structure TicketReservationInput where
  expiresAt : Int
  ticketID : Uuid
  userID : String
deriving DecidableEq

/-- The result of `ReserveTicket`. -/
structure ReservationResult where
  created : Bool
  order : Order
deriving DecidableEq

/-- Send one statement. -/
def query (s : Stmt) : Tx (Res s) := Program.query s

/-- The status an event carries. -/
def toProtoOrderStatus : Status → ProtoOrderStatus
  | .created => .created
  | .canceled => .canceled
  | .awaitingPayment => .awaitingPayment
  | .complete => .complete

def marshalOrderCreated (eventID : Uuid) (occurredAt : Int) (created : Order) (ticket : Ticket) :
    OrderEvent :=
  .created
    { eventID
      occurredAt
      orderID := created.id
      orderStatus := toProtoOrderStatus created.status
      userID := created.userID
      expiresAt := created.expiresAt
      aggregateVersion := created.aggregateVersion
      ticket := { id := ticket.id, price := ticket.price } }

def marshalOrderCanceled (eventID : Uuid) (occurredAt : Int) (canceled : Order) : OrderEvent :=
  .canceled
    { eventID
      occurredAt
      orderID := canceled.id
      aggregateVersion := canceled.aggregateVersion
      ticket := { id := canceled.ticketID } }

def insertOrderCreatedEvent (created : Order) (ticket : Ticket) : Tx Unit :=
  query (.insertOutboxEvent orderCreatedSubject fun eventID occurredAt =>
    marshalOrderCreated eventID occurredAt created ticket)

def insertOrderCanceledEvent (canceled : Order) : Tx Unit :=
  query (.insertOutboxEvent orderCanceledSubject fun eventID occurredAt =>
    marshalOrderCanceled eventID occurredAt canceled)

def findBlockingOrder (ticketID : Uuid) : Tx (Option Order) :=
  query (.selectBlockingOrder ticketID)

def insertOrder (input : TicketReservationInput) : Tx Order :=
  query (.insertOrder input.expiresAt input.userID input.ticketID .created)

/-- Serializes reservations of a ticket by locking its row of the projection. -/
def reserveTicket (input : TicketReservationInput) : Tx ReservationResult := do
  match ← query (.selectTicketForUpdate input.ticketID) with
  | none => .fail .notFound
  | some projectedTicket =>
    match ← findBlockingOrder projectedTicket.id with
    | some existing =>
      -- A user who reserves again is handed the order that is still open.
      if existing.userID = input.userID ∧ existing.status ≠ .complete then
        return { created := false, order := existing }
      else .fail .reserved
    | none =>
      let created ← insertOrder input
      insertOrderCreatedEvent created projectedTicket
      return { created := true, order := created }

def cancelByIDAndUser (orderID : Uuid) (userID : String) : Tx Order := do
  match ← query (.updateOrderStatus orderID (some userID) [.created, .awaitingPayment]
    .canceled) with
  | some canceled =>
    insertOrderCanceledEvent canceled
    return canceled
  | none =>
    -- No row was updated: there is none, or its status does not allow it.
    match ← query (.selectOrder orderID userID) with
    | none => .fail .orderNotFound
    | some found =>
      if found.status = .canceled then return found else .fail .orderNotCancelable

/-- `false` if the event has been processed before. -/
def recordProcessedOrderEvent (eventID : Uuid) : Tx Bool := query (.insertProcessedEvent eventID)

/-- Record an event and, if the order is in one of the states `sources`, move it to `target`.
With `announces`, an `OrderCanceled` event is written along with the transition. -/
def applyOrderEvent (sources : List Status) (target : Status) (announces : Bool)
    (eventID orderID : Uuid) : Tx Unit := do
  match ← recordProcessedOrderEvent eventID with
  | false => return ()
  | true =>
    -- An event that comes too late for the order is recorded all the same.
    match ← query (.updateOrderStatus orderID none sources target) with
    | none => return ()
    | some updated => if announces then insertOrderCanceledEvent updated else return ()

def applyExpirationComplete : Uuid → Uuid → Tx Unit := applyOrderEvent [.created] .canceled true

def applyPaymentCreated : Uuid → Uuid → Tx Unit :=
  applyOrderEvent [.created] .awaitingPayment false

def applyPaymentSucceeded : Uuid → Uuid → Tx Unit :=
  applyOrderEvent [.created, .awaitingPayment] .complete false

def applyPaymentFailed : Uuid → Uuid → Tx Unit :=
  applyOrderEvent [.created, .awaitingPayment] .canceled true

/-- What to do with a ticket snapshot. -/
inductive TicketEventVersionDecision where
  | apply
  | ignore
deriving DecidableEq

def decideTicketEventVersion (hasStoredVersion : Bool) (storedVersion incomingVersion : Int) :
    Except Err TicketEventVersionDecision :=
  if !hasStoredVersion then
    if incomingVersion = 0 then .ok .apply else .error .ticketEventVersionGap
  else if incomingVersion > storedVersion + 1 then .error .ticketEventVersionGap
  else if incomingVersion ≤ storedVersion then .ok .ignore
  else .ok .apply

/-- A ticket snapshot is applied exactly if its version is the next one. -/
theorem decideTicketEventVersion_apply_iff {stored : Option Ticket} {incoming : Int} :
    decideTicketEventVersion stored.isSome (stored.elim 0 Ticket.aggregateVersion) incoming =
        .ok .apply ↔
      incoming = stored.elim 0 fun t => t.aggregateVersion + 1 := by
  cases stored <;> simp only [decideTicketEventVersion] <;> grind

/-- A ticket snapshot is ignored exactly if its version is not newer than the stored one. -/
theorem decideTicketEventVersion_ignore_iff {stored : Option Ticket} {incoming : Int} :
    decideTicketEventVersion stored.isSome (stored.elim 0 Ticket.aggregateVersion) incoming =
        .ok .ignore ↔
      ∃ t, stored = some t ∧ incoming ≤ t.aggregateVersion := by
  cases stored <;> simp only [decideTicketEventVersion] <;> grind

/-- Records the event and applies a contiguous ticket snapshot. A snapshot of a future version is
rolled back, so that it can be delivered again. -/
def upsertTicketFromEvent (eventID : Uuid) (ticket : Ticket) : Tx Unit := do
  match ← recordProcessedOrderEvent eventID with
  | false => return ()
  | true =>
    let stored ← query (.selectTicketForUpdate ticket.id)
    let storedVersion := stored.elim 0 Ticket.aggregateVersion
    match ← .ofExcept
      (decideTicketEventVersion stored.isSome storedVersion ticket.aggregateVersion) with
    | .ignore => return ()
    | .apply =>
      if stored.isNone then query (.insertTicket ticket) else query (.updateTicket ticket)

/-- The operations of the repository that write. -/
inductive Call where
  | reserveTicket (input : TicketReservationInput)
  | cancelByIDAndUser (orderID : Uuid) (userID : String)
  | applyExpirationComplete (eventID orderID : Uuid)
  | applyPaymentCreated (eventID orderID : Uuid)
  | applyPaymentSucceeded (eventID orderID : Uuid)
  | applyPaymentFailed (eventID orderID : Uuid)
  | upsertTicketFromEvent (eventID : Uuid) (ticket : Ticket)
deriving DecidableEq

/-- What the operations return besides an error. -/
inductive Reply where
  | reservation (r : ReservationResult)
  | order (o : Order)
  | applied
deriving DecidableEq

/-- The transaction that an operation runs. -/
def program : Call → Tx Reply
  | .reserveTicket input => (reserveTicket input).bind fun r => .done (.reservation r)
  | .cancelByIDAndUser orderID userID =>
    (cancelByIDAndUser orderID userID).bind fun o => .done (.order o)
  | .applyExpirationComplete eventID orderID =>
    (applyExpirationComplete eventID orderID).bind fun _ => .done .applied
  | .applyPaymentCreated eventID orderID =>
    (applyPaymentCreated eventID orderID).bind fun _ => .done .applied
  | .applyPaymentSucceeded eventID orderID =>
    (applyPaymentSucceeded eventID orderID).bind fun _ => .done .applied
  | .applyPaymentFailed eventID orderID =>
    (applyPaymentFailed eventID orderID).bind fun _ => .done .applied
  | .upsertTicketFromEvent eventID ticket =>
    (upsertTicketFromEvent eventID ticket).bind fun _ => .done .applied

/-- The call that the handlers make for a message of Payments. -/
def handle : PaymentEvent → Call
  | .created event => .applyPaymentCreated event.eventID event.orderID
  | .succeeded event => .applyPaymentSucceeded event.eventID event.orderID
  | .failed event => .applyPaymentFailed event.eventID event.orderID

/-- Only the handlers make the call. -/
def Call.HandlesPayment : Call → Bool
  | .applyPaymentCreated _ _ => true
  | .applyPaymentSucceeded _ _ => true
  | .applyPaymentFailed _ _ => true
  | _ => false

/-- What `service.go` requires of a call (`validateOrderUser`) before it passes it on. -/
def Call.Validated : Call → Prop
  | .reserveTicket input => ¬Blank input.userID
  | .cancelByIDAndUser _ userID => ¬Blank userID
  | _ => True

instance : (call : Call) → Decidable call.Validated
  | .reserveTicket input => inferInstanceAs (Decidable (¬Blank input.userID))
  | .cancelByIDAndUser _ userID => inferInstanceAs (Decidable (¬Blank userID))
  | .applyExpirationComplete _ _ => inferInstanceAs (Decidable True)
  | .applyPaymentCreated _ _ => inferInstanceAs (Decidable True)
  | .applyPaymentSucceeded _ _ => inferInstanceAs (Decidable True)
  | .applyPaymentFailed _ _ => inferInstanceAs (Decidable True)
  | .upsertTicketFromEvent _ _ => inferInstanceAs (Decidable True)

end Orders
