import PolyglotTicketing.Gateway.Value

/-!
# Errors of the API gateway

The translation of errors in `apps/api-gateway/src/errors`: `throwGatewayGrpcError` turns what a
call of a service has thrown into an exception of the gateway, and `ApiErrorFilter` turns what a
handler has thrown into the status and the body of the response.
-/

namespace Gateway

/-- The code of an error (`common.v1.ErrorCode`). -/
inductive ErrorCode where
  | unspecified
  | invalidArgument
  | invalidName
  | invalidEmail
  | invalidPassword
  | invalidTitle
  | invalidPrice
  | invalidCredentials
  | emailNotVerified
  | invalidVerificationToken
  | alreadyExists
  | unauthenticated
  | forbidden
  | notFound
  | rateLimited
  | serviceUnavailable
  | internalError
deriving DecidableEq

/-- The name of a code, where it is not `UNSPECIFIED`. -/
def toPublicErrorCode : ErrorCode → String
  | .unspecified => "INTERNAL_ERROR"
  | .invalidArgument => "INVALID_ARGUMENT"
  | .invalidName => "INVALID_NAME"
  | .invalidEmail => "INVALID_EMAIL"
  | .invalidPassword => "INVALID_PASSWORD"
  | .invalidTitle => "INVALID_TITLE"
  | .invalidPrice => "INVALID_PRICE"
  | .invalidCredentials => "INVALID_CREDENTIALS"
  | .emailNotVerified => "EMAIL_NOT_VERIFIED"
  | .invalidVerificationToken => "INVALID_VERIFICATION_TOKEN"
  | .alreadyExists => "ALREADY_EXISTS"
  | .unauthenticated => "UNAUTHENTICATED"
  | .forbidden => "FORBIDDEN"
  | .notFound => "NOT_FOUND"
  | .rateLimited => "RATE_LIMITED"
  | .serviceUnavailable => "SERVICE_UNAVAILABLE"
  | .internalError => "INTERNAL_ERROR"

/-- An item of an error response. -/
structure ErrorItem where
  message : String
  code : String
  field : Option String
deriving DecidableEq

/-- The item as an object. -/
def ErrorItem.toValue (item : ErrorItem) : Value :=
  .object ([("message", .string item.message), ("code", .string item.code)] ++
    (item.field.map fun field => ("field", Value.string field)).toList)

/-- The body `{ errors }` of a response, with the slots of its array. -/
structure ErrorResponse where
  errors : List (Option Value)

/-- What a handler throws. An `HttpException` has properties as any other object does. -/
inductive Thrown where
  | httpException (response : Value) (status : Number) (properties : List (String × Value))
  | value (v : Value)

/-- The exception as a value. -/
def Thrown.toValue : Thrown → Value
  | .httpException _ _ properties => .object properties
  | .value v => v

/-- `isErrorItem`, which `grpc-error.ts` and `api-error.filter.ts` both have. -/
def isErrorItem (value : Value) : Bool :=
  value.isObject && value.has "message" && (value.get "message").isString && value.has "code" &&
    (value.get "code").isString && (!value.has "field" || (value.get "field").isString)

/-- The property `errors` of a value, if it is a non-empty array of error items. `every` does not
look at empty slots. -/
def errorItems (value : Value) : Option (List (Option Value)) :=
  if value.isObject && value.has "errors" then
    match value.get "errors" with
    | .array slots =>
      if 0 < slots.length ∧ slots.all (fun slot => slot.all isErrorItem) then some slots else none
    | _ => none
  else none

section Grpc

/-- The numbers that gRPC has for its status codes. -/
def httpStatusFromGrpcCode (code : Number) : Number :=
  if code = .finite 3 then .finite 400
  else if code = .finite 16 then .finite 401
  else if code = .finite 7 then .finite 403
  else if code = .finite 5 then .finite 404
  else if code = .finite 6 then .finite 409
  else if code = .finite 8 then .finite 429
  else if code = .finite 14 then .finite 503
  else .finite 500

/-- The code of a gRPC error: `isGrpcStatusError` asks for a number. -/
def isGrpcStatusError (error : Value) : Option Number :=
  if error.isObject && error.has "code" then
    match error.get "code" with
    | .number code => some code
    | _ => none
  else none

/-- The item that `new ApiError` makes of an element of its argument. -/
def ApiError.item (error : Value) : Value :=
  .object ([("message", error.get "message"), ("code", error.get "code")] ++
    match error.get "field" with
    | .undefined => []
    | field => [("field", field)])

/-- `new ApiError(status, errors)`. `map` keeps empty slots. -/
def ApiError (status : Number) (errors : List (Option Value)) : Thrown :=
  .httpException (.object [("errors", .array (errors.map (Option.map ApiError.item)))]) status []

variable (parse : String → Option Json)

/-- The items in the details of a gRPC error, where `parse` is `JSON.parse`, and `none` what it
throws. -/
def getGrpcErrorResponse (error : Value) : Option (List (Option Value)) :=
  match error.get "details" with
  | .string details => (parse details).bind fun parsed => errorItems parsed.toValue
  | _ => none

/-- What `throwGatewayGrpcError` throws. -/
def throwGatewayGrpcError (error : Thrown) (invalidArgumentError : Option ErrorItem) : Thrown :=
  let serviceUnavailable := ApiError (.finite 503)
    [some (ErrorItem.toValue
      { code := toPublicErrorCode .serviceUnavailable
        message := "A required service is unavailable."
        field := none })]
  match isGrpcStatusError error.toValue with
  | some code =>
    match getGrpcErrorResponse parse error.toValue, invalidArgumentError with
    -- The service has said what is wrong.
    | some errors, _ => ApiError (httpStatusFromGrpcCode code) errors
    -- The caller says what an invalid argument means for its request.
    | none, some invalidArgumentError =>
      if code = .finite 3 then ApiError (.finite 400) [some invalidArgumentError.toValue]
      else serviceUnavailable
    | none, none => serviceUnavailable
  | none => serviceUnavailable

end Grpc

section Filter

def getHttpStatus : Thrown → Number
  | .httpException _ status _ => status
  | .value _ => .finite 500

def getCodeForStatus (status : Number) : String :=
  if status = .finite 400 then toPublicErrorCode .invalidArgument
  else if status = .finite 401 then toPublicErrorCode .unauthenticated
  else if status = .finite 403 then toPublicErrorCode .forbidden
  else if status = .finite 404 then toPublicErrorCode .notFound
  else if status = .finite 409 then toPublicErrorCode .alreadyExists
  else if status = .finite 429 then toPublicErrorCode .rateLimited
  else toPublicErrorCode .internalError

/-- The texts of the slots of an array that hold a text. -/
def texts (slots : List (Option Value)) : List String :=
  slots.filterMap fun slot =>
    match slot with
    | some (.string s) => some s
    | _ => none

/-- The messages of a response with properties. -/
def wording (response : Value) : List String :=
  if response.has "message" then
    match response.get "message" with
    | .array slots => texts slots
    | .string message => [message]
    | _ => ["Request failed."]
  else ["Request failed."]

/-- `getMessages`. It is `none` where `in` throws a `TypeError`. -/
def getMessages (response : Value) : Option (List String) :=
  match response with
  | .string s => some [s]
  | .null => some ["Request failed."]
  | response => if response.acceptsIn then some (wording response) else none

/-- The body for a status of 500 or more. -/
def serverErrorResponse (status : Number) : ErrorResponse :=
  let unavailable := status = .finite 503 ∨ status = .finite 502
  { errors := [some (ErrorItem.toValue
      { message :=
          if unavailable then "A required service is unavailable."
          else "An unexpected error occurred."
        code :=
          if unavailable then toPublicErrorCode .serviceUnavailable
          else toPublicErrorCode .internalError
        field := none })] }

/-- `getErrorResponse`, which `none` leaves with a `TypeError`. -/
def getErrorResponse (exception : Thrown) (status : Number) : Option ErrorResponse :=
  match exception with
  | .httpException response _ _ =>
    if status.Below 500 then
      match errorItems response with
      | some errors => some ⟨errors⟩
      | none =>
        (getMessages response).map fun messages =>
          ⟨messages.map fun message =>
            some (ErrorItem.toValue ⟨message, getCodeForStatus status, none⟩)⟩
    else some (serverErrorResponse status)
  | .value _ => some (serverErrorResponse status)

/-- The status and the body that `ApiErrorFilter` hands to the response object: a status that it
accepts, and a body that is not JSON yet. -/
def apiErrorFilter (exception : Thrown) : Option (Number × ErrorResponse) :=
  let status := getHttpStatus exception
  (getErrorResponse exception status).map fun body => (status, body)

end Filter

end Gateway
