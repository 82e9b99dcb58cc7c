import PolyglotTicketing.Contracts.Wire
import PolyglotTicketing.Gateway.AuthMetadata
import PolyglotTicketing.Gateway.Errors
import PolyglotTicketing.Interaction.Program

/-!
# The clients of the gateway

`AuthService`, `OrdersService`, `PaymentsService` and `TicketsService` of `apps/api-gateway/src` as
programs that call the services behind the gateway. Each method makes one gRPC call and turns the
reply into a response. Whatever is thrown on the way, by the call or by the method itself, goes
through `throwGatewayGrpcError`.

The loaders fill in no defaults: a field that is not in a message is missing in the reply. Messages
inside of replies, lists and the numbers of a time can be missing here. Any other field has its
default value then, which the methods treat alike; only a response to the client would lack the
property.
-/

namespace Gateway

open JavaScript Interaction
open Wire (Timestamp)

structure SignUpDto where
  name : String
  email : String
  password : String

structure SignInDto where
  email : String
  password : String

structure VerifyEmailDto where
  token : String

structure CreateTicketDto where
  title : String
  price : ℤ

structure CreateOrderDto where
  ticketID : String

structure CreatePaymentDto where
  orderID : String

/-- What the loader makes of a `google.protobuf.Timestamp`. -/
structure LoadedTimestamp where
  seconds : Option ℤ
  nanos : Option ℤ

/-- The numbers of a time that a service in Go sends, which leaves out zeros. -/
def LoadedTimestamp.ofGo (timestamp : Timestamp) : LoadedTimestamp where
  seconds := if timestamp.seconds = 0 then none else some timestamp.seconds
  nanos := if timestamp.nanos = 0 then none else some timestamp.nanos

/-- The numbers of a time that Identity sends. -/
def LoadedTimestamp.ofNode (timestamp : Timestamp) : LoadedTimestamp where
  seconds := some timestamp.seconds
  nanos := some timestamp.nanos

structure SignUpResponse where
  userID : String
  email : String

structure IdentitySignInResponse where
  userID : String
  name : String
  email : String
  emailVerified : Bool
  sessionToken : Text
  sessionExpiresAt : Option LoadedTimestamp

structure IdentityCurrentUserResponse where
  userID : String
  name : String
  email : String
  emailVerified : Bool

structure VerifyEmailResponse where
  verified : Bool

structure Ticket where
  id : String
  title : String
  price : ℤ
  userID : String

structure OrderGrpcResponse where
  expiresAt : Option LoadedTimestamp
  id : String
  status : ℤ
  ticketID : String
  userID : String

structure CreateOrderGrpcResponse extends OrderGrpcResponse where
  created : Bool

structure PaymentResponse where
  id : String
  orderID : String

structure CreatePaymentGrpcResponse where
  created : Bool
  payment : Option PaymentResponse

/-- The gRPC calls of the gateway. Those of sign-in and of sessions have metadata of type `M`. -/
inductive Request (M : Type) where
  | signUp (dto : SignUpDto)
  | signIn (dto : SignInDto) (metadata : M)
  | signOut (metadata : M)
  | currentUser (metadata : M)
  | verifyEmail (dto : VerifyEmailDto)
  | createTicket (dto : CreateTicketDto) (userID : String)
  | updateTicket (id : String) (dto : CreateTicketDto) (userID : String)
  | getTicket (id : String)
  | listTickets
  | createOrder (ticketID userID : String)
  | cancelOrder (orderID userID : String)
  | getOrder (orderID userID : String)
  | listOrders (userID : String)
  | createPayment (orderID userID : String)

variable {M : Type}

/-- Their replies. -/
abbrev Reply : Request M → Type
  | .signUp _ => SignUpResponse
  | .signIn _ _ => IdentitySignInResponse
  | .signOut _ => Unit
  | .currentUser _ => IdentityCurrentUserResponse
  | .verifyEmail _ => VerifyEmailResponse
  | .createTicket _ _ => Ticket
  | .updateTicket _ _ _ => Option Ticket
  | .getTicket _ => Option Ticket
  | .listTickets => Option (List Ticket)
  | .createOrder _ _ => CreateOrderGrpcResponse
  | .cancelOrder _ _ => Option OrderGrpcResponse
  | .getOrder _ _ => Option OrderGrpcResponse
  | .listOrders _ => Option (List OrderGrpcResponse)
  | .createPayment _ _ => CreatePaymentGrpcResponse

/-- The user for whom a call is made. -/
def Request.userID? : Request M → Option String
  | .createTicket _ userID => some userID
  | .updateTicket _ _ userID => some userID
  | .createOrder _ userID => some userID
  | .cancelOrder _ userID => some userID
  | .getOrder _ userID => some userID
  | .listOrders userID => some userID
  | .createPayment _ userID => some userID
  | _ => none

/-- A program of the gateway. -/
abbrev Handler (M α : Type) := Program (Request M) Reply Thrown α

/-- A gRPC call. -/
def rpc (r : Request M) : Handler M (Reply r) := Program.perform r

/-- `new Error(message)`, or one of its subclasses. -/
def newError (message : String) : Thrown := .value (.object [("message", .string message)])

/-- Reading a property of a message that is missing. -/
def typeError : Thrown := newError "Cannot read properties of null"

/-- The time of a `Date` in milliseconds, unless the `Date` is invalid, as it is without seconds or
nanoseconds. The sum is the exact one. That of doubles differs from it by less than a microsecond,
so that it can lie in the next millisecond. -/
def toDate (timestamp : LoadedTimestamp) : Option ℤ := do
  let seconds ← timestamp.seconds
  let nanos ← timestamp.nanos
  let nanoseconds := seconds * 1000000000 + nanos
  if nanoseconds.natAbs ≤ 8640000000000000 * 1000000 then some (nanoseconds.tdiv 1000000) else none

/-- The time of `toDate(timestamp).toISOString()`, which throws for an invalid `Date`. -/
def toISOString (timestamp : Option LoadedTimestamp) : Except Thrown ℤ :=
  match timestamp with
  | none => .error typeError
  | some timestamp =>
    match toDate timestamp with
    | none => .error (newError "Invalid time value")
    | some time => .ok time

/-- A response with an order. Its time stands for the text of the time. -/
structure OrderResponse where
  expiresAt : ℤ
  id : String
  status : String
  ticketID : String
  userID : String

def toOrderStatus (status : ℤ) : Except Thrown String :=
  if status = 1 then .ok "Created"
  else if status = 2 then .ok "Canceled"
  else if status = 3 then .ok "AwaitingPayment"
  else if status = 4 then .ok "Complete"
  else .error (newError ("Unsupported order status: " ++ toString status))

def toOrderResponse (response : OrderGrpcResponse) : Except Thrown OrderResponse := do
  let expiresAt ← toISOString response.expiresAt
  let status ← toOrderStatus response.status
  .ok
    { expiresAt, id := response.id, status
      ticketID := response.ticketID, userID := response.userID }

/-- `toOrderResponse(response.order)`. -/
def toOptionalOrderResponse : Option OrderGrpcResponse → Except Thrown OrderResponse
  | none => .error typeError
  | some order => toOrderResponse order

def toListOrdersResponse (response : Option (List OrderGrpcResponse)) :
    Except Thrown (List OrderResponse) :=
  (response.getD []).mapM toOrderResponse

def toPaymentResponse (response : Option PaymentResponse) : Except Thrown PaymentResponse :=
  match response with
  | none => .error typeError
  | some payment => .ok payment

section Services

variable (parse : String → Option Json)

/-- `try { … } catch (error) { throwGatewayGrpcError(error, invalidArgumentError) }`. -/
def guarded {α : Type} (invalidArgumentError : Option ErrorItem) (p : Handler M α) : Handler M α :=
  p.tryCatch fun error => .throw (throwGatewayGrpcError parse error invalidArgumentError)

/-- An item for an invalid argument. -/
def invalidArgument (message : String) : Option ErrorItem :=
  some { code := toPublicErrorCode .invalidArgument, message, field := none }

namespace OrdersService

def cancelOrder (id userID : String) : Handler M OrderResponse :=
  guarded parse (invalidArgument "Order ID is invalid.") do
    let response ← rpc (.cancelOrder id userID)
    .ofExcept (toOptionalOrderResponse response)

/-- The order, and whether it is a new one. -/
def createOrder (ticketID userID : String) : Handler M (Bool × OrderResponse) :=
  guarded parse (invalidArgument "Order data is invalid.") do
    let response ← rpc (.createOrder ticketID userID)
    let order ← .ofExcept (toOrderResponse response.toOrderGrpcResponse)
    return (response.created, order)

def listOrders (userID : String) : Handler M (List OrderResponse) :=
  guarded parse
      (some { code := toPublicErrorCode .internalError
              message := "Unable to retrieve orders."
              field := none }) do
    let response ← rpc (.listOrders userID)
    .ofExcept (toListOrdersResponse response)

def getOrder (id userID : String) : Handler M OrderResponse :=
  guarded parse (invalidArgument "Order ID is invalid.") do
    let response ← rpc (.getOrder id userID)
    .ofExcept (toOptionalOrderResponse response)

end OrdersService

/-- The payment, and whether it is a new one. -/
def PaymentsService.createPayment (orderID userID : String) : Handler M (Bool × PaymentResponse) :=
  guarded parse (invalidArgument "Order ID is invalid.") do
    let response ← rpc (.createPayment orderID userID)
    let payment ← .ofExcept (toPaymentResponse response.payment)
    return (response.created, payment)

namespace TicketsService

def createTicket (dto : CreateTicketDto) (userID : String) : Handler M Ticket :=
  guarded parse (invalidArgument "Ticket data is invalid.")
    (rpc (.createTicket dto userID))

def listTickets : Handler M (List Ticket) :=
  guarded parse none do
    let tickets ← rpc .listTickets
    return tickets.getD []

def updateTicket (id : String) (dto : CreateTicketDto) (userID : String) :
    Handler M (Option Ticket) :=
  guarded parse (invalidArgument "Ticket data is invalid.")
    (rpc (.updateTicket id dto userID))

def getTicket (id : String) : Handler M (Option Ticket) :=
  guarded parse none (rpc (.getTicket id))

end TicketsService

variable (grpc : Grpc M)

/-- Metadata that has been made, or the exception of `Metadata.set`. -/
def ofMetadata (metadata : Option M) : Handler M M :=
  match metadata with
  | none => .throw (newError "Metadata string value contains illegal characters")
  | some metadata => .done metadata

namespace AuthService

def signUp (dto : SignUpDto) : Handler M SignUpResponse :=
  guarded parse (invalidArgument "Signup data is invalid.") (rpc (.signUp dto))

def signIn (dto : SignInDto) (headers : IncomingHttpHeaders) : Handler M IdentitySignInResponse :=
  guarded parse (invalidArgument "Signin data is invalid.") do
    let metadata ← ofMetadata (createAuthRequestMetadata grpc headers)
    rpc (.signIn dto metadata)

def signOut (headers : IncomingHttpHeaders) : Handler M Unit :=
  guarded parse none do
    let metadata ← ofMetadata (createSessionRequestMetadata grpc (headers "cookie".toList))
    rpc (.signOut metadata)

def currentUser (headers : IncomingHttpHeaders) : Handler M IdentityCurrentUserResponse :=
  guarded parse none do
    let metadata ← ofMetadata (createSessionRequestMetadata grpc (headers "cookie".toList))
    rpc (.currentUser metadata)

def verifyEmail (dto : VerifyEmailDto) : Handler M VerifyEmailResponse :=
  guarded parse none (rpc (.verifyEmail dto))

end AuthService

end Services

end Gateway
