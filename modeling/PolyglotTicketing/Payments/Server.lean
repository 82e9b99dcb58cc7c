import PolyglotTicketing.Contracts.StructuredErrors
import PolyglotTicketing.Gateway.Services
import PolyglotTicketing.Payments.Handlers

/-!
# The gRPC server of Payments

`apps/payments/internal/grpc/server.go`. The server answers with the payment that the repository
returns, or refuses the call with a structured error.
-/

namespace Payments

open Platform Contracts Transaction
open Gateway (ErrorCode CreatePaymentGrpcResponse PaymentResponse)

/-- The payment as a message. -/
def toPaymentResponse (created : Payment) : PaymentResponse where
  id := uuidText created.id
  orderID := uuidText created.orderID

def structuredError (code : GrpcCode) (validationErrors : List ValidationError) : Refusal :=
  Contracts.structuredError code (validationErrors.map fun e => ⟨e.code, e.field, e.message⟩)

/-- A structured error with one item, which is about no field. -/
def refusal (code : GrpcCode) (errorCode : ErrorCode) (message : String) : Refusal :=
  structuredError code [{ code := errorcodeString errorCode, field := "", message }]

/-- The repository returns the outcome of its transaction. -/
def Server.createPayment (repository : Call → Outcome Err Reply) (orderID userID : String) :
    Except Refusal CreatePaymentGrpcResponse :=
  match Service.createPayment orderID userID with
  | .error validationErrors => .error (structuredError .invalidArgument validationErrors)
  | .ok query =>
    match query.read.map repository with
    | some (.committed (.created created wasCreated)) =>
      .ok { created := wasCreated, payment := some (toPaymentResponse created) }
    | some (.failed .orderNotFound) => .error (refusal .notFound .notFound "Order not found.")
    | some (.failed .orderNotPayable) =>
      .error (refusal .alreadyExists .alreadyExists "Order cannot be paid.")
    | _ => .error (refusal .internal .internalError "Unable to create payment.")

/-- A call that returns a payment has been validated, and its transaction has committed. -/
theorem Server.exists_of_createPayment {repository : Call → Outcome Err Reply}
    {orderID userID : String} {reply : CreatePaymentGrpcResponse}
    (h : Server.createPayment repository orderID userID = .ok reply) :
    ∃ id p, uuidIn orderID = some id ∧
      repository (.create { orderID := id, userID }) = .committed (.created p reply.created) ∧
        reply.payment = some (toPaymentResponse p) := by
  unfold Server.createPayment at h
  split at h
  next => cases h
  next query hquery =>
    rw [Service.createPayment] at hquery
    split at hquery
    next => cases hquery
    next hvalid =>
      obtain rfl := Except.ok.inj hquery
      unfold Wire.Query.read at h
      split at h
      next p wasCreated hresult =>
        rw [Option.map_eq_some_iff] at hresult
        obtain ⟨call, hcall, hresult⟩ := hresult
        split at hcall
        next haccepted =>
          obtain rfl := Option.some.inj hcall
          obtain rfl := Except.ok.inj h
          obtain ⟨id, hid⟩ := Option.ne_none_iff_exists'.mp (haccepted orderID (by simp))
          refine ⟨id, p, hid, ?_, rfl⟩
          dsimp only at hresult
          rwa [hid, Option.getD_some] at hresult
        next => cases hcall
      all_goals cases h

end Payments
