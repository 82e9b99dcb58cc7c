import PolyglotTicketing.Contracts.StructuredErrors
import PolyglotTicketing.Gateway.Services
import PolyglotTicketing.Identity.SessionCookie

/-!
# The service Identity

`IdentityService` of `apps/identity/src/identity` as a program that calls Better Auth and the table
of its sessions. What Better Auth throws can be any value: the mappers of `mappers` look for a
status and for a code in it, and make one of a few errors of it.

The package `protovalidate` is a parameter, which finds violations by the paths of their fields.
-/

namespace Identity

open Contracts Gateway Interaction JavaScript

section BetterAuth

/-- A user of Better Auth. -/
structure User where
  id : String
  name : String
  email : String
  emailVerified : Bool

/-- What Better Auth returns for a sign-in. -/
structure SignInResult where
  headers : Headers
  token : String
  user : User

/-- The calls of `identityAuthContext`. The headers of a session are its header `cookie`. -/
inductive AuthCall where
  | signUpEmail (body : SignUpDto)
  | signInEmail (body : SignInDto) (headers : List (Text × Text))
  | getSessionExpiry (sessionToken userID : String)
  | signOut (headers : Option Text)
  | getSession (headers : Option Text)
  | verifyEmail (token : String)

/-- What they return. A `Date` is its time. -/
abbrev AuthReply : AuthCall → Type
  | .signUpEmail _ => User
  | .signInEmail _ _ => SignInResult
  | .getSessionExpiry _ _ => Option ℤ
  | .signOut _ => Unit
  | .getSession _ => Option User
  | .verifyEmail _ => Unit

/-- What answers the calls. -/
abbrev BetterAuth := Environment AuthCall AuthReply Value

end BetterAuth

section Errors

/-- `name in value && typeof value[name] === 'string'`, of an object. -/
def stringAt (value : Value) (name : String) : Option String :=
  if value.isObject && value.has name then
    match value.get name with
    | .string s => some s
    | _ => none
  else none

/-- The same of a number. -/
def numberAt (value : Value) (name : String) : Option Number :=
  if value.isObject && value.has name then
    match value.get name with
    | .number n => some n
    | _ => none
  else none

/-- `error.body.code`. -/
def bodyCode (error : Value) : Option String :=
  if error.isObject && error.has "body" then stringAt (error.get "body") "code" else none

def createInvalidNameError : ErrorItem where
  code := toPublicErrorCode .invalidName
  field := some "name"
  message := "Name is required."

def createInvalidEmailError : ErrorItem where
  code := toPublicErrorCode .invalidEmail
  field := some "email"
  message := "Email must be valid."

def createInvalidPasswordError : ErrorItem where
  code := toPublicErrorCode .invalidPassword
  field := some "password"
  message := "Password must be between 8 and 128 characters."

def createInvalidArgumentError : ErrorItem where
  code := toPublicErrorCode .invalidArgument
  field := none
  message := "Signup data is invalid."

def createEmailAlreadyExistsError : ErrorItem where
  code := toPublicErrorCode .alreadyExists
  field := some "email"
  message := "A user with this email already exists."

/-- An error of the service itself. -/
def internalError (message : String) : ErrorItem where
  code := toPublicErrorCode .internalError
  field := none
  message

def createSignupValidationInternalError : ErrorItem :=
  internalError "Unable to validate signup data."

def createSignupInternalError : ErrorItem := internalError "Unable to complete signup."

def createEmailNotVerifiedError : ErrorItem where
  code := toPublicErrorCode .emailNotVerified
  field := none
  message := "Verify your email before signing in."

def createInvalidCredentialsError : ErrorItem where
  code := toPublicErrorCode .invalidCredentials
  field := none
  message := "Email or password is incorrect."

def createSigninInternalError : ErrorItem := internalError "Unable to complete signin."

def createSigninValidationInternalError : ErrorItem :=
  internalError "Unable to validate signin data."

def createSignOutInternalError : ErrorItem := internalError "Unable to complete signout."

def createCurrentUserUnauthenticatedError : ErrorItem where
  code := toPublicErrorCode .unauthenticated
  field := none
  message := "Authentication is required."

def createCurrentUserInternalError : ErrorItem := internalError "Unable to get the current user."

def invalidVerificationTokenError : ErrorItem where
  code := toPublicErrorCode .invalidVerificationToken
  field := none
  message := "The email verification link is invalid or has expired."

def verificationInternalError : ErrorItem := internalError "Unable to verify email."

section SignUp

def getHttpStatusCode (error : Value) : Option Number :=
  match numberAt error "statusCode" with
  | some statusCode => some statusCode
  | none => numberAt error "status"

/-- `statusCode >= 400 && statusCode < 500`. -/
def isClientError : Number → Bool
  | .finite statusCode => 400 ≤ statusCode && statusCode < 500
  | _ => false

def getGrpcStatusCode (error : Value) : GrpcCode :=
  match getHttpStatusCode error with
  | some statusCode =>
    if statusCode = .finite 409 then .alreadyExists
    else if isClientError statusCode then .invalidArgument
    else .internal
  | none => .internal

def getErrorItem (error : Value) : ErrorItem :=
  let errorCode := bodyCode error
  if errorCode = some "INVALID_EMAIL" then createInvalidEmailError
  else if errorCode = some "INVALID_PASSWORD" ∨ errorCode = some "PASSWORD_TOO_SHORT" ∨
      errorCode = some "PASSWORD_TOO_LONG" then createInvalidPasswordError
  else if getHttpStatusCode error = some (.finite 409) then createEmailAlreadyExistsError
  else if (getHttpStatusCode error).isSome then createInvalidArgumentError
  else createSignupInternalError

def mapBetterAuthError (error : Value) : Refusal :=
  StructuredGrpcError (getGrpcStatusCode error) [getErrorItem error]

end SignUp

def mapBetterAuthSignInError (error : Value) : Refusal :=
  let errorCode := bodyCode error <|> stringAt error "code"
  if errorCode = some "EMAIL_NOT_VERIFIED" then
    StructuredGrpcError .unauthenticated [createEmailNotVerifiedError]
  else if errorCode = some "INVALID_EMAIL_OR_PASSWORD" then
    StructuredGrpcError .unauthenticated [createInvalidCredentialsError]
  else StructuredGrpcError .internal [createSigninInternalError]

def mapBetterAuthSignOutError : Refusal :=
  StructuredGrpcError .internal [createSignOutInternalError]

def mapEmailVerificationError (error : Value) : Refusal :=
  let code := stringAt error "code" <|> bodyCode error
  if code = some "INVALID_TOKEN" ∨ code = some "TOKEN_EXPIRED" then
    StructuredGrpcError .unauthenticated [invalidVerificationTokenError]
  else StructuredGrpcError .internal [verificationInternalError]

end Errors

section Validation

/-- What `protovalidate` says of a message, with the paths of the fields that violate its rules. -/
inductive Validated where
  | valid
  | invalid (violation : String) (violations : List String)
  | error

/-- `protovalidate`, with the rules of the messages. -/
structure Protovalidate where
  signUp : SignUpDto → Validated
  signIn : SignInDto → Validated

/-- `SignUpValidationResult` and `SignInValidationResult`. -/
inductive ValidationResult where
  | valid
  | invalid (errors : List ErrorItem)
  | error

def mapProtovalidateViolation (field : String) : ErrorItem :=
  if field = "name" then createInvalidNameError
  else if field = "email" then createInvalidEmailError
  else if field = "password" then createInvalidPasswordError
  else createInvalidArgumentError

/-- The result of a validator. -/
def Validated.toResult : Validated → ValidationResult
  | .valid => .valid
  | .invalid violation violations =>
    .invalid ((violation :: violations).map mapProtovalidateViolation)
  | .error => .error

def validateSignUpRequest (validator : Protovalidate) (request : SignUpDto) : ValidationResult :=
  (validator.signUp request).toResult

def validateSignInRequest (validator : Protovalidate) (request : SignInDto) : ValidationResult :=
  (validator.signIn request).toResult

end Validation

/-- A method of the service returns, or it throws a `StructuredGrpcError`. -/
abbrev Method (α : Type) := Program AuthCall AuthReply Value (Except Refusal α)

/-- A call of Better Auth. -/
def ask (call : AuthCall) : Program AuthCall AuthReply Value (AuthReply call) :=
  Program.perform call

/-- `throw new StructuredGrpcError(code, errors)`. -/
def refuse {α : Type} (code : GrpcCode) (errors : List ErrorItem) : Method α :=
  .done (.error (StructuredGrpcError code errors))

/-- `try { … } catch (error) { throw map(error); }`. -/
def guarded {α : Type} (map : Value → Refusal) (p : Program AuthCall AuthReply Value α) :
    Method α :=
  (p.bind fun a => .done (.ok a)).tryCatch fun error => .done (.error (map error))

/-- The nanoseconds have the sign of the time, but the seconds are rounded down. -/
def toTimestamp (milliseconds : ℤ) : Wire.Timestamp where
  seconds := milliseconds / 1000
  nanos := milliseconds.tmod 1000 * 1000000

/-- `new Error(message)`. -/
def newError (message : String) : Value := .object [("message", .string message)]

namespace IdentityService

variable {M : Type} (validator : Protovalidate) (grpc : Grpc M)

def signUp (request : SignUpDto) : Method SignUpResponse :=
  match validateSignUpRequest validator request with
  | .invalid errors => refuse .invalidArgument errors
  | .error => refuse .internal [createSignupValidationInternalError]
  | .valid =>
    guarded mapBetterAuthError do
      let user ← ask (.signUpEmail request)
      return { email := user.email, userID := user.id }

/-- An empty cookie is as good as none. -/
def signIn (request : SignInDto) (metadata : M) : Method IdentitySignInResponse :=
  match validateSignInRequest validator request with
  | .invalid errors => refuse .invalidArgument errors
  | .error => refuse .internal [createSigninValidationInternalError]
  | .valid =>
    guarded mapBetterAuthSignInError do
      let signInResult ← ask (.signInEmail request (createAuthRequestHeaders grpc metadata))
      match extractSessionCookieValue signInResult.headers with
      | none | some [] =>
        .throw (newError "Better Auth did not return the created session cookie.")
      | some sessionCookieValue =>
        let sessionExpiresAt ← ask (.getSessionExpiry signInResult.token signInResult.user.id)
        match sessionExpiresAt with
        | none => .throw (newError "Better Auth did not return the created session.")
        | some sessionExpiresAt =>
          return {
            email := signInResult.user.email
            emailVerified := signInResult.user.emailVerified
            name := signInResult.user.name
            sessionExpiresAt := some (.ofNode (toTimestamp sessionExpiresAt))
            sessionToken := sessionCookieValue
            userID := signInResult.user.id }

def signOut (metadata : M) : Method Unit :=
  guarded (fun _ => mapBetterAuthSignOutError)
    (ask (.signOut (createSessionRequestHeaders grpc metadata)))

/-- What comes after the call is not guarded. -/
def currentUser (metadata : M) : Method IdentityCurrentUserResponse :=
  let getSession : Method (Option User) :=
    guarded (fun _ => StructuredGrpcError .internal [createCurrentUserInternalError])
      (ask (.getSession (createSessionRequestHeaders grpc metadata)))
  getSession.bind fun
    | .error r => .done (.error r)
    | .ok none => refuse .unauthenticated [createCurrentUserUnauthenticatedError]
    | .ok (some user) =>
      .done (.ok
        { email := user.email
          emailVerified := user.emailVerified
          name := user.name
          userID := user.id })

def verifyEmail (request : VerifyEmailDto) : Method VerifyEmailResponse :=
  guarded mapEmailVerificationError do
    ask (.verifyEmail request.token)
    return { verified := true }

end IdentityService

end Identity
