import PolyglotTicketing.Contracts.StructuredErrors
import PolyglotTicketing.Gateway.Services
import PolyglotTicketing.Orders.Handlers
import Mathlib.Data.List.Sort

/-!
# The gRPC server of Orders

`apps/orders/internal/grpc/server.go`, and the two methods of the repository that only read. The
server answers with what the repository returns, or refuses the call with a structured error.
-/

namespace Orders

open Platform Contracts Relational Transaction
open Gateway (ErrorCode OrderGrpcResponse CreateOrderGrpcResponse)

section Queries

/-- `GetByIDAndUser`. -/
def getByIDAndUser (db : Db) (orderID : Uuid) (userID : String) : Option Order :=
  (db.orders.find? orderID).filter fun o => decide (o.userID = userID)

/-- `ORDER BY expires_at DESC, id DESC` lets `o` come before `o'`. -/
def Order.ListedBefore (o o' : Order) : Prop :=
  o'.expiresAt < o.expiresAt ∨ o.expiresAt = o'.expiresAt ∧ o'.id ≤ o.id

instance : DecidableRel Order.ListedBefore := fun _ _ => inferInstanceAs (Decidable (_ ∨ _))

def listByUser (db : Db) (userID : String) : List Order :=
  (db.orders.rows.filter fun o => decide (o.userID = userID)).insertionSort Order.ListedBefore

end Queries

section Responses

def toOrderStatus : Status → ℤ
  | .created => 1
  | .canceled => 2
  | .awaitingPayment => 3
  | .complete => 4

def toOrderResponse (found : Order) : OrderGrpcResponse where
  expiresAt := some (.ofGo (.new found.expiresAt))
  id := uuidText found.id
  status := toOrderStatus found.status
  ticketID := uuidText found.ticketID
  userID := found.userID

def toCreateOrderResponse (result : ReservationResult) : CreateOrderGrpcResponse where
  toOrderGrpcResponse := toOrderResponse result.order
  created := result.created

end Responses

def structuredError (code : GrpcCode) (errors : List ValidationError) : Refusal :=
  Contracts.structuredError code (errors.map fun e => ⟨e.code, e.field, e.message⟩)

/-- A structured error with one item, which is about no field. -/
def refusal (code : GrpcCode) (errorCode : ErrorCode) (message : String) : Refusal :=
  structuredError code [{ code := errorcodeString errorCode, field := "", message }]

namespace Server

/-- The repository returns the outcome of its transaction. -/
def cancelOrder (repository : Call → Outcome Err Reply) (orderID userID : String) :
    Except Refusal (Option OrderGrpcResponse) :=
  match Service.cancelOrder orderID userID with
  | .error validationErrors => .error (structuredError .invalidArgument validationErrors)
  | .ok query =>
    match query.read.map repository with
    | some (.committed (.order canceled)) => .ok (some (toOrderResponse canceled))
    | some (.failed .orderNotFound) => .error (refusal .notFound .notFound "Order not found.")
    | some (.failed .orderNotCancelable) =>
      .error (refusal .alreadyExists .alreadyExists "Completed orders cannot be canceled.")
    | _ => .error (refusal .internal .internalError "Unable to cancel order.")

def createOrder (repository : Call → Outcome Err Reply) (now : Int) (ticketID userID : String) :
    Except Refusal CreateOrderGrpcResponse :=
  match Service.reserveTicket now ticketID userID with
  | .error validationErrors => .error (structuredError .invalidArgument validationErrors)
  | .ok query =>
    match query.read.map repository with
    | some (.committed (.reservation result)) => .ok (toCreateOrderResponse result)
    | some (.failed .notFound) => .error (refusal .notFound .notFound "Ticket not found.")
    | some (.failed .reserved) =>
      .error (refusal .alreadyExists .alreadyExists "Ticket is currently reserved.")
    | _ => .error (refusal .internal .internalError "Unable to create order.")

/-- The database is `none` while it cannot be reached. -/
def getOrder (db : Option Db) (orderID userID : String) :
    Except Refusal (Option OrderGrpcResponse) :=
  match Service.getOrder orderID userID with
  | .error validationErrors => .error (structuredError .invalidArgument validationErrors)
  | .ok query =>
    match db, query.read with
    | some db, some (orderID, userID) =>
      match getByIDAndUser db orderID userID with
      | some found => .ok (some (toOrderResponse found))
      | none => .error (refusal .notFound .notFound "Order not found.")
    | _, _ => .error (refusal .internal .internalError "Unable to retrieve order.")

def listOrders (db : Option Db) (userID : String) :
    Except Refusal (Option (List OrderGrpcResponse)) :=
  if validateOrderUser userID ≠ [] then
    .error (structuredError .invalidArgument (validateOrderUser userID))
  else
    match db with
    | some db => .ok (some ((listByUser db userID).map toOrderResponse))
    | none => .error (refusal .internal .internalError "Unable to retrieve orders.")

end Server

end Orders
