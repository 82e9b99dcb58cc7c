import PolyglotTicketing.Gateway.Services

/-!
# The API of the gateway

What the gateway does with a request: `SessionAuthGuard`, the validation of bodies, the controllers
of `apps/api-gateway/src`, and `ApiErrorFilter` for everything that is thrown. The package
`class-validator`, which reads the decorators of the bodies, is a parameter, and so is the check of
a cookie's value in `express`.
-/

namespace Gateway

open JavaScript Interaction

/-- An error that `ValidationPipe` finds. -/
structure ValidationError where
  property : String
  constraints : Option (List (String × String))

def getValidationMessage (validationError : ValidationError) : String :=
  match validationError.constraints.getD [] with
  | [] => "Request data is invalid."
  | (_, message) :: _ => message

def getValidationCode (field : String) : String :=
  if field = "name" then toPublicErrorCode .invalidName
  else if field = "email" then toPublicErrorCode .invalidEmail
  else if field = "password" then toPublicErrorCode .invalidPassword
  else if field = "title" then toPublicErrorCode .invalidTitle
  else if field = "price" then toPublicErrorCode .invalidPrice
  else toPublicErrorCode .invalidArgument

def ValidationError.toErrorItem (validationError : ValidationError) : ErrorItem :=
  let isUnexpectedField := validationError.constraints.any fun constraints =>
    (constraints.lookup "whitelistValidation").isSome
  { message :=
      if isUnexpectedField then "Unexpected field." else getValidationMessage validationError
    code :=
      if isUnexpectedField then toPublicErrorCode .invalidArgument
      else getValidationCode validationError.property
    field := some validationError.property }

def createValidationApiError (validationErrors : List ValidationError) : Thrown :=
  ApiError (.finite 400) (validationErrors.map fun error => some error.toErrorItem.toValue)

/-- The validation of an argument. It makes a DTO of it, or finds an error. -/
structure Validation (α : Type) where
  validate : Value → Except (List ValidationError) α
  ne_nil : ∀ {v errors}, validate v = .error errors → errors ≠ []

/-- What `class-validator` makes of the classes in the directories `dtos`. -/
structure Validator where
  signUp : Validation SignUpDto
  signIn : Validation SignInDto
  verifyEmail : Validation VerifyEmailDto
  createTicket : Validation CreateTicketDto
  updateTicket : Validation CreateTicketDto
  createOrder : Validation CreateOrderDto
  createPayment : Validation CreatePaymentDto

/-- The routes, with the parameters and the bodies of their requests. -/
inductive Route where
  | signUp (body : Value)
  | signIn (body : Value)
  | signOut
  | currentUser
  | verifyEmail (query : Value)
  | listTickets
  | getTicket (id : String)
  | updateTicket (id : String) (body : Value)
  | createTicket (body : Value)
  | createOrder (body : Value)
  | cancelOrder (id : String)
  | listOrders
  | getOrder (id : String)
  | createPayment (body : Value)

structure HttpRequest where
  headers : IncomingHttpHeaders
  route : Route

/-- The user of a session. -/
structure AuthenticatedUser where
  email : String
  emailVerified : Bool
  id : String
  name : String

def toCurrentUserResponse (response : IdentityCurrentUserResponse) : AuthenticatedUser where
  email := response.email
  emailVerified := response.emailVerified
  id := response.userID
  name := response.name

/-- The body of a response. Times stand for their texts. -/
inductive Body where
  | empty
  | signedUp (response : SignUpResponse)
  | signedIn (expiresAt : ℤ) (user : AuthenticatedUser)
  | user (user : AuthenticatedUser)
  | verified (response : VerifyEmailResponse)
  | ticket (ticket : Option Ticket)
  | tickets (tickets : List Ticket)
  | order (order : OrderResponse)
  | orders (orders : List OrderResponse)
  | payment (payment : PaymentResponse)
  | errors (response : ErrorResponse)

/-- The session cookie that a response sets, with the time at which it expires. -/
structure SetCookie where
  value : Text
  expires : ℤ

structure HttpResponse where
  status : Number
  body : Body
  cookie : Option SetCookie

/-- A response without a cookie. -/
def answer (status : ℚ) (body : Body) : HttpResponse := ⟨.finite status, body, none⟩

/-- `new UnauthorizedException()`. -/
def UnauthorizedException : Thrown :=
  .httpException (.object [("message", .string "Unauthorized"),
    ("statusCode", .number (.finite 401))]) (.finite 401) []

/-- The decorator `CurrentUser`. -/
def CurrentUser (user : Option AuthenticatedUser) : Except Thrown AuthenticatedUser :=
  match user with
  | none => .error UnauthorizedException
  | some user => .ok user

section Controllers

variable {M : Type} (parse : String → Option Json) (grpc : Grpc M) (validator : Validator)
  (accepts : Text → Bool)

/-- `ValidationPipe`, for an argument with a class. -/
def pipe {α : Type} (validation : Validation α) (argument : Value) : Handler M α :=
  .ofExcept ((validation.validate argument).mapError createValidationApiError)

/-- The user that the guard stores in the request. -/
def SessionAuthGuard.canActivate (headers : IncomingHttpHeaders) : Handler M AuthenticatedUser := do
  let currentUser ← AuthService.currentUser parse grpc headers
  return toCurrentUserResponse currentUser

/-- A handler that needs a session. -/
def withSession (headers : IncomingHttpHeaders)
    (handler : AuthenticatedUser → Handler M HttpResponse) : Handler M HttpResponse := do
  let user ← SessionAuthGuard.canActivate parse grpc headers
  let user ← .ofExcept (CurrentUser (some user))
  handler user

namespace AuthController

def signUp (body : Value) : Handler M HttpResponse := do
  let dto ← pipe validator.signUp body
  let response ← AuthService.signUp parse dto
  return answer 201 (.signedUp response)

/-- `express` refuses a cookie with an invalid `Date` or with a value that is not `accepts`. -/
def signIn (headers : IncomingHttpHeaders) (body : Value) : Handler M HttpResponse := do
  let dto ← pipe validator.signIn body
  let result ← AuthService.signIn parse grpc dto headers
  let expiresAt ← .ofExcept (toISOString result.sessionExpiresAt)
  if accepts result.sessionToken then
    .done
      { status := .finite 201
        body := .signedIn expiresAt
          { email := result.email
            emailVerified := result.emailVerified
            id := result.userID
            name := result.name }
        cookie := some { value := result.sessionToken, expires := expiresAt } }
  else .throw (newError "argument val is invalid")

def signOut (headers : IncomingHttpHeaders) : Handler M HttpResponse := do
  AuthService.signOut parse grpc headers
  return { status := .finite 204, body := .empty, cookie := some { value := [], expires := 0 } }

def currentUser (headers : IncomingHttpHeaders) : Handler M HttpResponse := do
  let response ← AuthService.currentUser parse grpc headers
  return answer 200 (.user (toCurrentUserResponse response))

def verifyEmail (query : Value) : Handler M HttpResponse := do
  let dto ← pipe validator.verifyEmail query
  let response ← AuthService.verifyEmail parse dto
  return answer 200 (.verified response)

end AuthController

namespace TicketsController

def listTickets : Handler M HttpResponse := do
  let tickets ← TicketsService.listTickets parse
  return answer 200 (.tickets tickets)

def getTicket (id : String) : Handler M HttpResponse := do
  let ticket ← TicketsService.getTicket parse id
  return answer 200 (.ticket ticket)

def updateTicket (id : String) (body : Value) (user : AuthenticatedUser) :
    Handler M HttpResponse := do
  let dto ← pipe validator.updateTicket body
  let ticket ← TicketsService.updateTicket parse id dto user.id
  return answer 200 (.ticket ticket)

def createTicket (body : Value) (user : AuthenticatedUser) : Handler M HttpResponse := do
  let dto ← pipe validator.createTicket body
  let ticket ← TicketsService.createTicket parse dto user.id
  return answer 201 (.ticket (some ticket))

end TicketsController

namespace OrdersController

def createOrder (body : Value) (user : AuthenticatedUser) : Handler M HttpResponse := do
  let dto ← pipe validator.createOrder body
  let (created, order) ← OrdersService.createOrder parse dto.ticketID user.id
  return answer (if created then 201 else 200) (.order order)

def cancelOrder (id : String) (user : AuthenticatedUser) : Handler M HttpResponse := do
  let order ← OrdersService.cancelOrder parse id user.id
  return answer 200 (.order order)

def listOrders (user : AuthenticatedUser) : Handler M HttpResponse := do
  let orders ← OrdersService.listOrders parse user.id
  return answer 200 (.orders orders)

def getOrder (id : String) (user : AuthenticatedUser) : Handler M HttpResponse := do
  let order ← OrdersService.getOrder parse id user.id
  return answer 200 (.order order)

end OrdersController

def PaymentsController.createPayment (body : Value) (user : AuthenticatedUser) :
    Handler M HttpResponse := do
  let dto ← pipe validator.createPayment body
  let (created, payment) ← PaymentsService.createPayment parse dto.orderID user.id
  return answer (if created then 201 else 200) (.payment payment)

/-- The handler of a request. -/
def handler (request : HttpRequest) : Handler M HttpResponse :=
  let withSession := withSession parse grpc request.headers
  match request.route with
  | .signUp body => AuthController.signUp parse validator body
  | .signIn body => AuthController.signIn parse grpc validator accepts request.headers body
  | .signOut => AuthController.signOut parse grpc request.headers
  | .currentUser => AuthController.currentUser parse grpc request.headers
  | .verifyEmail query => AuthController.verifyEmail parse validator query
  | .listTickets => TicketsController.listTickets parse
  | .getTicket id => TicketsController.getTicket parse id
  | .updateTicket id body => withSession (TicketsController.updateTicket parse validator id body)
  | .createTicket body => withSession (TicketsController.createTicket parse validator body)
  | .createOrder body => withSession (OrdersController.createOrder parse validator body)
  | .cancelOrder id => withSession (OrdersController.cancelOrder parse id)
  | .listOrders => withSession (OrdersController.listOrders parse)
  | .getOrder id => withSession (OrdersController.getOrder parse id)
  | .createPayment body => withSession (PaymentsController.createPayment parse validator body)

/-- What is answered when a handler is at its end. It is `none` if `ApiErrorFilter` throws. -/
def respond (result : Except Thrown HttpResponse) : Option HttpResponse :=
  match result with
  | .ok response => some response
  | .error exception =>
    (apiErrorFilter exception).map fun (status, body) => ⟨status, .errors body, none⟩

/-- The calls that a request leads to, and the response. -/
def serve (env : Environment (Request M) Reply Thrown) (request : HttpRequest) :
    List (Exchange (Request M) Reply Thrown) × Option HttpResponse :=
  let result := (handler parse grpc validator accepts request).run env []
  (result.1, respond result.2)

end Controllers

end Gateway
