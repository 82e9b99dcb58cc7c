import PolyglotTicketing.Gateway.ErrorContract
import PolyglotTicketing.Gateway.JsonPrint

/-!
# Structured errors

A service refuses a gRPC call with a status whose details are JSON: `structuredError` of
`server.go` in Orders, Payments and Tickets writes it with `json.Marshal`, `StructuredGrpcError` in
Identity with `JSON.stringify`. The gateway reads it with `JSON.parse`.

`throwGatewayGrpcError_printErrors` is the way of the errors from the one to the other, for all
texts that they can contain.
-/

namespace Contracts

open Gateway

/-- The status codes of gRPC with which the services refuse a call. -/
inductive GrpcCode where
  | invalidArgument
  | notFound
  | alreadyExists
  | permissionDenied
  | internal
  | unauthenticated
deriving DecidableEq

def GrpcCode.number : GrpcCode → ℚ
  | .invalidArgument => 3
  | .notFound => 5
  | .alreadyExists => 6
  | .permissionDenied => 7
  | .internal => 13
  | .unauthenticated => 16

/-- The status of a call that a service has refused. -/
structure Refusal where
  code : GrpcCode
  details : String
deriving DecidableEq

/-- What the call throws in the gateway. -/
def Refusal.error (r : Refusal) : Thrown :=
  .value (.object [("code", .number (.finite r.code.number)), ("details", .string r.details)])

/-- An item of the details. -/
def printItem (E : Escaping) (code : String) (field : Option String) (message : String) :
    List Char :=
  printObject E ([("code", quote E code)] ++
    ((field.map fun field => ("field", quote E field)).toList ++ [("message", quote E message)]))

/-- `{ errors }`, of whose elements these are the texts. -/
def printErrors (E : Escaping) (errors : List (List Char)) : String :=
  String.ofList (printObject E [("errors", printArray errors)])

/-- The names of the codes in Go. -/
def errorCodeName : ErrorCode → String
  | .unspecified => "ERROR_CODE_UNSPECIFIED"
  | .invalidArgument => "ERROR_CODE_INVALID_ARGUMENT"
  | .invalidName => "ERROR_CODE_INVALID_NAME"
  | .invalidEmail => "ERROR_CODE_INVALID_EMAIL"
  | .invalidPassword => "ERROR_CODE_INVALID_PASSWORD"
  | .invalidTitle => "ERROR_CODE_INVALID_TITLE"
  | .invalidPrice => "ERROR_CODE_INVALID_PRICE"
  | .invalidCredentials => "ERROR_CODE_INVALID_CREDENTIALS"
  | .emailNotVerified => "ERROR_CODE_EMAIL_NOT_VERIFIED"
  | .invalidVerificationToken => "ERROR_CODE_INVALID_VERIFICATION_TOKEN"
  | .alreadyExists => "ERROR_CODE_ALREADY_EXISTS"
  | .unauthenticated => "ERROR_CODE_UNAUTHENTICATED"
  | .forbidden => "ERROR_CODE_FORBIDDEN"
  | .notFound => "ERROR_CODE_NOT_FOUND"
  | .rateLimited => "ERROR_CODE_RATE_LIMITED"
  | .serviceUnavailable => "ERROR_CODE_SERVICE_UNAVAILABLE"
  | .internalError => "ERROR_CODE_INTERNAL_ERROR"

/-- `errorcode.String`, which leaves out the prefix of the name. -/
def errorcodeString (code : ErrorCode) : String :=
  let name := if code = .unspecified then errorCodeName .internalError else errorCodeName code
  String.ofList (name.toList.drop "ERROR_CODE_".length)

/-- The services and the gateway call the codes by the same names. -/
theorem errorcodeString_eq (code : ErrorCode) : errorcodeString code = toPublicErrorCode code := by
  cases code <;> rfl

/-- `ValidationError` of the services in Go. -/
structure ValidationError where
  code : String
  field : String
  message : String
deriving DecidableEq

/-- The field is left out where it is empty. -/
def ValidationError.toItem (e : ValidationError) : ErrorItem where
  message := e.message
  code := e.code
  field := if e.field = "" then none else some e.field

/-- The marshaling of texts does not fail. -/
def structuredError (code : GrpcCode) (errors : List ValidationError) : Refusal where
  code
  details := printErrors goEscaping (errors.map fun e =>
    printItem goEscaping e.code (if e.field = "" then none else some e.field) e.message)

def StructuredGrpcError (code : GrpcCode) (errors : List ErrorItem) : Refusal where
  code
  details := printErrors jsEscaping (errors.map fun item =>
    printItem jsEscaping item.code item.field item.message)

section Reading

variable {round : ℚ → Number} {E : Escaping}

/-- The members of an item. -/
def itemMembers (item : ErrorItem) : List (String × Json) :=
  [("code", .string item.code)] ++
    ((item.field.map fun field => ("field", .string field)).toList ++
      [("message", .string item.message)])

theorem reads_printItem (item : ErrorItem) :
    Reads round (printItem E item.code item.field item.message) (.object (itemMembers item)) := by
  have hmember : ∀ name text : String,
      ReadsMember round (name, quote E text) (name, .string text) :=
    fun _ text => ⟨rfl, reads_quote text⟩
  obtain ⟨message, code, field⟩ := item
  apply reads_object
  · cases field with
    | none => exact .cons (hmember _ _) (.cons (hmember _ _) .nil)
    | some field => exact .cons (hmember _ _) (.cons (hmember _ _) (.cons (hmember _ _) .nil))
  · cases field <;> simp [itemMembers]

theorem represents_itemMembers (item : ErrorItem) :
    Represents (.object (itemMembers item)) item := by
  obtain ⟨message, code, field⟩ := item
  refine ⟨_, rfl, ?_⟩
  cases field with
  | none => simp [itemMembers, List.lookup_cons]
  | some field => simp [itemMembers, List.lookup_cons]

/-- `JSON.parse` reads the items that were written, in their order. -/
theorem encodes_printErrors (items : List ErrorItem) : ∃ j,
    parse round (printErrors E (items.map fun item =>
      printItem E item.code item.field item.message)) = some j ∧ Encodes j items := by
  have hreads : List.Forall₂ (Reads round)
      (items.map fun item => printItem E item.code item.field item.message)
      (items.map fun item => .object (itemMembers item)) := by
    rw [List.forall₂_map_left_iff, List.forall₂_map_right_iff]
    exact List.forall₂_same.mpr fun item _ => reads_printItem item
  have hmember : ReadsMember round ("errors", _) ("errors", _) := ⟨rfl, reads_array hreads⟩
  refine ⟨_, parse_of_reads (reads_object (.cons hmember .nil) (by simp)), _, _, rfl, rfl, ?_⟩
  rw [List.forall₂_map_left_iff]
  exact List.forall₂_same.mpr fun item _ => represents_itemMembers item

variable {code : GrpcCode} {items : List ErrorItem} {r : Refusal}

/-- The exception that the gateway makes of a refusal, in each of its calls. -/
theorem throwGatewayGrpcError_printErrors (hdetails : r.details = printErrors E (items.map
      fun item => printItem E item.code item.field item.message))
    (hitems : items ≠ []) (invalidArgumentError : Option ErrorItem) :
    throwGatewayGrpcError (parse round) r.error invalidArgumentError =
      .httpException (itemsValue items) (httpStatusFromGrpcCode (.finite r.code.number)) [] := by
  have hread : ∃ j, parse round r.details = some j ∧ Encodes j items := by
    rw [hdetails]
    exact encodes_printErrors items
  obtain ⟨j, hparse, hencodes⟩ := hread
  exact throwGatewayGrpcError_encodes rfl rfl hparse hencodes hitems _

theorem throwGatewayGrpcError_structuredError {errors : List ValidationError} (hne : errors ≠ [])
    (invalidArgumentError : Option ErrorItem) :
    throwGatewayGrpcError (parse round) (structuredError code errors).error invalidArgumentError =
      .httpException (itemsValue (errors.map ValidationError.toItem))
        (httpStatusFromGrpcCode (.finite code.number)) [] := by
  refine throwGatewayGrpcError_printErrors (E := goEscaping) ?_ (by simpa using hne) _
  rw [structuredError, List.map_map]
  rfl

theorem throwGatewayGrpcError_StructuredGrpcError (hne : items ≠ [])
    (invalidArgumentError : Option ErrorItem) :
    throwGatewayGrpcError (parse round) (StructuredGrpcError code items).error
        invalidArgumentError =
      .httpException (itemsValue items) (httpStatusFromGrpcCode (.finite code.number)) [] :=
  throwGatewayGrpcError_printErrors rfl hne _

end Reading

end Contracts
