import PolyglotTicketing.Payments.Database

/-!
# The repository of Payments

The methods of `apps/payments/internal/payment/postgres_repository.go` as transactions, in the way
of `Orders.Repository`.
-/

namespace Payments

open Platform Contracts Transaction

/-- The input of `Create`. -/
structure CreateInput where
  orderID : Uuid
  userID : String
deriving DecidableEq

/-- Send one statement. -/
def query (s : Stmt) : Tx (Res s) := Program.query s

def insertPaymentCreatedEvent (created : Payment) : Tx Unit :=
  query (.insertOutboxEvent paymentCreatedSubject fun eventID occurredAt =>
    .created { eventID, occurredAt, paymentID := created.id, orderID := created.orderID })

/-- The payment of an order, and whether it is new. -/
def create (input : CreateInput) : Tx (Payment × Bool) := do
  match ← query (.selectOrderForUpdate input.orderID) with
  | none => .fail .orderNotFound
  | some order =>
    if order.userID ≠ input.userID then .fail .orderNotFound
    else
      match ← query (.selectPaymentByOrder input.orderID) with
      | some existing => return (existing, false)
      | none =>
        if order.status ≠ .created then .fail .orderNotPayable
        else
          let created ← query (.insertPayment input.orderID)
          insertPaymentCreatedEvent created
          return (created, true)

def statusForOutcome (outcome : ProcessorOutcome) : Except Err Status :=
  match outcome with
  | .success => .ok .succeeded
  | .failure => .ok .failed
  | .other _ => .error (.invalidOutcome outcome)

/-- The event of a resolved payment. -/
def insertPaymentResultEvent (resolved : Payment) : Tx Unit :=
  match resolved.status with
  | .succeeded => query (.insertOutboxEvent paymentSucceededSubject fun eventID occurredAt =>
      .succeeded { eventID, occurredAt, paymentID := resolved.id, orderID := resolved.orderID })
  | .failed => query (.insertOutboxEvent paymentFailedSubject fun eventID occurredAt =>
      .failed { eventID, occurredAt, paymentID := resolved.id, orderID := resolved.orderID })
  | .pending => .fail (.unpublishableStatus .pending)

/-- Claims and resolves one payment; `none` if no payment is pending. -/
def resolveNextPending (outcome : ProcessorOutcome) : Tx (Option Payment) := do
  match ← query .claimPendingPayment with
  | none => return none
  | some pending =>
    let resolvedStatus ← .ofExcept (statusForOutcome outcome)
    query (.updatePaymentStatus pending.id resolvedStatus)
    insertPaymentResultEvent { pending with status := resolvedStatus }
    return some { pending with status := resolvedStatus }

/-- `false` if the event has been processed before. -/
def recordProcessedEvent (eventID : Uuid) : Tx Bool := query (.insertProcessedEvent eventID)

def validateOrderVersion (hasStoredOrder : Bool) (storedVersion incomingVersion : Int) :
    Except Err Unit :=
  if !hasStoredOrder then
    if incomingVersion ≠ 0 then .error .orderEventVersionGap else .ok ()
  else if incomingVersion > storedVersion + 1 then .error .orderEventVersionGap
  else .ok ()

/-- Records the event and a contiguous snapshot of a new order. -/
def upsertOrderFromEvent (eventID : Uuid) (incoming : Order) : Tx Unit := do
  match ← recordProcessedEvent eventID with
  | false => return ()
  | true =>
    let stored ← query (.selectOrderForUpdate incoming.id)
    .ofExcept (validateOrderVersion stored.isSome (stored.elim 0 Order.aggregateVersion)
      incoming.aggregateVersion)
    if stored.isSome then return () else query (.insertOrder incoming)

def cancelOrderFromEvent (eventID orderID : Uuid) (aggregateVersion : Int) : Tx Unit := do
  match ← recordProcessedEvent eventID with
  | false => return ()
  | true =>
    match ← query (.selectOrderForUpdate orderID) with
    | none => .fail .orderEventVersionGap
    | some stored =>
      .ofExcept (validateOrderVersion true stored.aggregateVersion aggregateVersion)
      if aggregateVersion ≤ stored.aggregateVersion then return ()
      else query (.updateOrder orderID .canceled aggregateVersion)

/-- The operations of the repository. -/
inductive Call where
  | create (input : CreateInput)
  | resolveNextPending (outcome : ProcessorOutcome)
  | upsertOrderFromEvent (eventID : Uuid) (incoming : Order)
  | cancelOrderFromEvent (eventID orderID : Uuid) (aggregateVersion : Int)
deriving DecidableEq

/-- Only the handler of order events makes the call. -/
def Call.ProjectsOrder : Call → Bool
  | .upsertOrderFromEvent _ _ => true
  | .cancelOrderFromEvent _ _ _ => true
  | _ => false

/-- What the operations return besides an error. -/
inductive Reply where
  | created (payment : Payment) (created : Bool)
  | resolved (payment : Option Payment)
  | applied
deriving DecidableEq

/-- The transaction that an operation runs. -/
def program : Call → Tx Reply
  | .create input => (create input).bind fun r => .done (.created r.1 r.2)
  | .resolveNextPending outcome => (resolveNextPending outcome).bind fun p => .done (.resolved p)
  | .upsertOrderFromEvent eventID incoming =>
    (upsertOrderFromEvent eventID incoming).bind fun _ => .done .applied
  | .cancelOrderFromEvent eventID orderID aggregateVersion =>
    (cancelOrderFromEvent eventID orderID aggregateVersion).bind fun _ => .done .applied

end Payments
