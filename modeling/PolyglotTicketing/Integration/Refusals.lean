import PolyglotTicketing.Contracts.StructuredErrors
import PolyglotTicketing.Gateway.ApiContract

/-!
# What a service refuses, the client is told

The errors of a refused call on their way from the service to the client: written as JSON by a
service in Go or in TypeScript, carried as the details of a gRPC status, parsed and checked by the
gateway, made an exception, and answered by its filter.
-/

namespace Integration

open Contracts Gateway Interaction JavaScript

/-- The response to a request that a service has refused for these reasons. -/
def refused (code : GrpcCode) (errors : List ErrorItem) : HttpResponse where
  status := httpStatusFromGrpcCode (.finite code.number)
  body := .errors
    (if code = .internal then serverErrorResponse (.finite 500)
    else ⟨errors.map fun error => some error.toValue⟩)
  cookie := none

/-- The filter passes the errors on, unless the service has failed. -/
theorem respond_itemsValue (code : GrpcCode) {errors : List ErrorItem} (hne : errors ≠ []) :
    respond (.error (.httpException (itemsValue errors)
      (httpStatusFromGrpcCode (.finite code.number)) [])) = some (refused code errors) := by
  by_cases hcode : code = .internal
  · subst hcode
    have hlarge : ¬(getHttpStatus (.httpException (itemsValue errors)
        (httpStatusFromGrpcCode (.finite GrpcCode.internal.number)) [])).Below 500 := by
      rw [getHttpStatus]
      decide +kernel
    rw [respond, apiErrorFilter_of_not_below hlarge]
    rfl
  · have hsmall : (httpStatusFromGrpcCode (.finite code.number)).Below 500 := by
      cases code <;> first | exact absurd rfl hcode | decide +kernel
    rw [respond, apiErrorFilter_itemsValue hne hsmall, refused, if_neg hcode]
    rfl

section Shown

variable {M : Type} {round : ℚ → Number} {grpc : Grpc M} {validator : Validator}
  {accepts : Text → Bool} {env : Environment (Request M) Reply Thrown} {request : HttpRequest}
  {calls : List (Exchange (Request M) Reply Thrown)} {response : HttpResponse}

/-- A refused call is the last one, and its exception is what the response is made of. -/
theorem response_of_refused
    (hserve : serve (parse round) grpc validator accepts env request = (calls, some response))
    {x : Exchange (Request M) Reply Thrown} (hx : x ∈ calls) {r : Refusal} {errors : List ErrorItem}
    (hthrown : x.answer = .error r.error) (hne : errors ≠ [])
    (hthrows : ∀ invalidArgumentError,
      throwGatewayGrpcError (parse round) r.error invalidArgumentError =
        .httpException (itemsValue errors) (httpStatusFromGrpcCode (.finite r.code.number)) []) :
    response = refused r.code errors := by
  have hcalls : x ∈ (serve (parse round) grpc validator accepts env request).1 := by
    rw [hserve]
    exact hx
  obtain ⟨invalidArgumentError, hresponse⟩ := serve_of_thrown hcalls hthrown
  rw [hserve, hthrows, respond_itemsValue r.code hne] at hresponse
  exact Option.some.inj hresponse

theorem response_of_StructuredGrpcError
    (hserve : serve (parse round) grpc validator accepts env request = (calls, some response))
    {x : Exchange (Request M) Reply Thrown} (hx : x ∈ calls) {code : GrpcCode}
    {errors : List ErrorItem} (hthrown : x.answer = .error (StructuredGrpcError code errors).error)
    (hne : errors ≠ []) : response = refused code errors :=
  response_of_refused hserve hx hthrown hne fun _ => throwGatewayGrpcError_StructuredGrpcError hne _

end Shown

/-- Whatever a request is, the gateway makes its calls until one is refused, and its response then
has the status that belongs to the code and exactly the errors that the service has written, text
by text and in their order. Only where the service has failed, nothing of it is shown. -/
theorem refusals_shown {M : Type} (round : ℚ → Number) (grpc : Grpc M) (validator : Validator)
    (accepts : Text → Bool) (env : Environment (Request M) Reply Thrown) (request : HttpRequest) :
    ∃ calls response,
      serve (parse round) grpc validator accepts env request = (calls, some response) ∧
        ∀ x ∈ calls,
          (∀ code error errors,
            x.answer = .error (structuredError code (error :: errors)).error →
              response = refused code ((error :: errors).map ValidationError.toItem)) ∧
          ∀ code error errors,
            x.answer = .error (StructuredGrpcError code (error :: errors)).error →
              response = refused code (error :: errors) := by
  obtain ⟨calls, response, hserve⟩ := exists_response (parse round) grpc validator accepts env
    request
  refine ⟨calls, response, hserve, fun x hx => ⟨fun code error errors h => ?_,
    fun code error errors h => ?_⟩⟩
  · exact response_of_refused hserve hx h (by simp) fun _ =>
      throwGatewayGrpcError_structuredError (List.cons_ne_nil error errors) _
  · exact response_of_StructuredGrpcError hserve hx h (List.cons_ne_nil error errors)

end Integration
