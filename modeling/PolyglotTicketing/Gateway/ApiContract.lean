import PolyglotTicketing.Gateway.Api
import PolyglotTicketing.Gateway.ErrorContract

/-!
# The contract of the API

* `calls_authorized`: the gateway acts for a user only, and once only, after Identity has named the
  user for the session of the request.
* `answers_contract`: whatever the services answer, the gateway answers in its public format.
-/

namespace Gateway

open JavaScript Interaction

section Exceptions

/-- The statuses of errors. -/
def errorStatuses : List Number :=
  [.finite 400, .finite 401, .finite 403, .finite 404, .finite 409, .finite 429, .finite 500,
    .finite 503]

/-- An exception that the gateway throws: `ApiErrorFilter` can answer it. -/
structure Contracted (e : Thrown) : Prop where
  presentable : Presentable e
  status : getHttpStatus e ∈ errorStatuses

/-- Anything but an `HttpException` is answered with status 500. -/
theorem contracted_value (v : Value) : Contracted (.value v) :=
  ⟨trivial, by simp [getHttpStatus, errorStatuses]⟩

theorem contracted_itemsValue {items : List ErrorItem} (hitems : items ≠ []) {status : Number}
    (hstatus : status ∈ errorStatuses) :
    Contracted (.httpException (itemsValue items) status []) := by
  refine ⟨?_, hstatus⟩
  rw [Presentable, errorItems_itemsValue hitems]
  intro _ slot hslot
  obtain ⟨item, -, rfl⟩ := List.mem_map.mp hslot
  exact ⟨_, rfl, item.isPublic.only⟩

theorem httpStatusFromGrpcCode_mem (code : Number) :
    httpStatusFromGrpcCode code ∈ errorStatuses := by
  unfold httpStatusFromGrpcCode
  split_ifs <;> simp [errorStatuses]

/-- Whatever has been thrown, `throwGatewayGrpcError` makes an exception of the gateway of it. -/
theorem contracted_throwGatewayGrpcError (parse : String → Option Json) (error : Thrown)
    (invalidArgumentError : Option ErrorItem) :
    Contracted (throwGatewayGrpcError parse error invalidArgumentError) := by
  have hstatus :
      getHttpStatus (throwGatewayGrpcError parse error invalidArgumentError) ∈ errorStatuses := by
    unfold throwGatewayGrpcError
    split
    next code hcode =>
      split
      next => exact httpStatusFromGrpcCode_mem code
      next =>
        split
        next => simp [ApiError, getHttpStatus, errorStatuses]
        next => simp [ApiError, getHttpStatus, errorStatuses]
      next => simp [ApiError, getHttpStatus, errorStatuses]
    next => simp [ApiError, getHttpStatus, errorStatuses]
  obtain ⟨status, items, hitems, heq⟩ :=
    @throwGatewayGrpcError_cases parse error invalidArgumentError
  rw [heq] at hstatus ⊢
  exact contracted_itemsValue hitems hstatus

theorem contracted_createValidationApiError {errors : List ValidationError} (h : errors ≠ []) :
    Contracted (createValidationApiError errors) := by
  have heq : createValidationApiError errors =
      .httpException (itemsValue (errors.map ValidationError.toErrorItem)) (.finite 400) [] := by
    simp [createValidationApiError, ApiError, itemsValue, ApiError.item_toValue]
  rw [heq]
  exact contracted_itemsValue (by simpa using h) (by simp [errorStatuses])

/-- The answer to a server error shows nothing of the exception but the status. -/
theorem apiErrorFilter_of_not_below {e : Thrown} (h : ¬(getHttpStatus e).Below 500) :
    apiErrorFilter e = some (getHttpStatus e, serverErrorResponse (getHttpStatus e)) := by
  cases e with
  | value v => rfl
  | httpException response status properties =>
    rw [getHttpStatus] at h
    simp [apiErrorFilter, getHttpStatus, getErrorResponse, h]

end Exceptions

section Methods

variable {M α : Type} (parse : String → Option Json)

/-- An exception that the gateway throws, and what becomes of an exception that a call has
thrown. -/
structure Relays (past : List (Exchange (Request M) Reply Thrown)) (e : Thrown) : Prop where
  contracted : Contracted e
  relays : ∀ x ∈ past, ∀ thrown, x.answer = .error thrown →
    ∃ invalidArgumentError, e = throwGatewayGrpcError parse thrown invalidArgumentError

variable {parse} in
/-- No call has thrown anything. -/
theorem relays_of_ok {past : List (Exchange (Request M) Reply Thrown)} {e : Thrown}
    (he : Contracted e) (hpast : ∀ x ∈ past, ∃ reply, x.answer = .ok reply) :
    Relays parse past e := by
  refine ⟨he, fun x hx thrown hthrown => ?_⟩
  obtain ⟨reply, hreply⟩ := hpast x hx
  rw [hreply] at hthrown
  cases hthrown

theorem relays_throwGatewayGrpcError {past : List (Exchange (Request M) Reply Thrown)}
    (hpast : ∀ x ∈ past, ∃ reply, x.answer = .ok reply) {r : Request M}
    {answer : Except Thrown (Reply r)} {e : Thrown}
    (he : ∀ thrown, answer = .error thrown → e = thrown)
    (invalidArgumentError : Option ErrorItem) :
    Relays parse (past ++ [⟨r, answer⟩])
      (throwGatewayGrpcError parse e invalidArgumentError) := by
  refine ⟨contracted_throwGatewayGrpcError parse e invalidArgumentError, ?_⟩
  intro x hx thrown hthrown
  rcases List.mem_append.mp hx with hx | hx
  · obtain ⟨reply, hreply⟩ := hpast x hx
    rw [hreply] at hthrown
    cases hthrown
  · obtain rfl := List.mem_singleton.mp hx
    exact ⟨invalidArgumentError, by rw [he thrown hthrown]⟩

/-- The method makes this call and no other. What it throws is an exception of the gateway, and it
returns only if the call does, with what it makes of the reply. -/
def Makes (r : Request M) (f : Reply r → Except Thrown α) (method : Handler M α) : Prop :=
  ∀ past, (∀ x ∈ past, ∃ reply, x.answer = .ok reply) →
    method.Triple (fun past' r' => past' = past ∧ r' = r)
      (fun past' end' => ∃ answer, past' = past ++ [⟨r, answer⟩] ∧
        match end' with
        | .ok a => ∃ reply, answer = .ok reply ∧ f reply = .ok a
        | .error e => Relays parse past' e) past

/-- A method that makes a call and looks at the reply. -/
theorem makes_guarded {r : Request M} (f : Reply r → Except Thrown α)
    (invalidArgumentError : Option ErrorItem) :
    Makes parse r f (guarded parse invalidArgumentError
      ((rpc r).bind fun reply => Program.ofExcept (f reply))) := by
  intro past hpast
  apply Program.triple_tryCatch
  apply Program.triple_bind
  refine Program.triple_perform ⟨rfl, rfl⟩ fun answer => ?_
  cases answer with
  | error e =>
    exact ⟨_, rfl, relays_throwGatewayGrpcError parse hpast (fun _ => Except.error.inj) _⟩
  | ok reply =>
    apply Program.triple_ofExcept
    cases hf : f reply with
    | ok a => exact ⟨_, rfl, reply, rfl, hf⟩
    | error e =>
      exact ⟨_, rfl, relays_throwGatewayGrpcError parse hpast (fun _ h => by cases h) _⟩

/-- A call whose reply is the response. -/
theorem rpc_bind_ok (r : Request M) :
    ((rpc r).bind fun reply => Program.ofExcept (.ok reply)) = rpc r := by
  rw [rpc, Program.perform, Program.bind]
  congr 1
  ext answer
  cases answer with
  | ok reply => rfl
  | error e => rfl

theorem makes_rpc {r : Request M} (invalidArgumentError : Option ErrorItem) :
    Makes parse r .ok (guarded parse invalidArgumentError (rpc r)) := by
  rw [← rpc_bind_ok r]
  exact makes_guarded parse .ok invalidArgumentError

theorem makes_cancelOrder (id userID : String) :
    Makes (M := M) parse (.cancelOrder id userID) toOptionalOrderResponse
      (OrdersService.cancelOrder parse id userID) :=
  makes_guarded parse (r := .cancelOrder id userID) toOptionalOrderResponse _

theorem makes_getOrder (id userID : String) :
    Makes (M := M) parse (.getOrder id userID) toOptionalOrderResponse
      (OrdersService.getOrder parse id userID) :=
  makes_guarded parse (r := .getOrder id userID) toOptionalOrderResponse _

theorem makes_listOrders (userID : String) :
    Makes (M := M) parse (.listOrders userID) toListOrdersResponse
      (OrdersService.listOrders parse userID) :=
  makes_guarded parse (r := .listOrders userID) toListOrdersResponse _

theorem makes_createOrder (ticketID userID : String) :
    Makes (M := M) parse (.createOrder ticketID userID)
      (fun response => (toOrderResponse response.toOrderGrpcResponse).bind fun order =>
        .ok (response.created, order))
      (OrdersService.createOrder parse ticketID userID) := by
  have h := makes_guarded parse (M := M) (r := .createOrder ticketID userID)
    (fun response => (toOrderResponse response.toOrderGrpcResponse).bind fun order =>
      .ok (response.created, order)) (invalidArgument "Order data is invalid.")
  simp only [Program.ofExcept_bind] at h
  exact h

theorem makes_createPayment (orderID userID : String) :
    Makes (M := M) parse (.createPayment orderID userID)
      (fun response => (toPaymentResponse response.payment).bind fun payment =>
        .ok (response.created, payment))
      (PaymentsService.createPayment parse orderID userID) := by
  have h := makes_guarded parse (M := M) (r := .createPayment orderID userID)
    (fun response => (toPaymentResponse response.payment).bind fun payment =>
      .ok (response.created, payment)) (invalidArgument "Order ID is invalid.")
  simp only [Program.ofExcept_bind] at h
  exact h

theorem makes_listTickets :
    Makes (M := M) parse .listTickets (fun tickets => .ok (tickets.getD []))
      (TicketsService.listTickets parse) :=
  makes_guarded parse (r := .listTickets) (fun tickets => .ok (tickets.getD [])) _

end Methods

section Sessions

variable {M α : Type} (parse : String → Option Json) (grpc : Grpc M)
  {headers : IncomingHttpHeaders}

/-- A call of Identity with metadata, unless none can be made. -/
inductive MakesWith (metadata : Option M) (r : M → Request M) (method : Handler M α) : Prop
  | makes {m : M} {f : Reply (r m) → Except Thrown α} (hmetadata : metadata = some m)
      (h : Makes parse (r m) f method)
  | throws {e : Thrown} (he : Contracted e) (h : method = .throw e)

/-- A method that makes metadata first. -/
theorem makesWith_guarded {metadata : Option M} {r : M → Request M} {call : M → Handler M α}
    {invalidArgumentError : Option ErrorItem} (f : (m : M) → Reply (r m) → Except Thrown α)
    (h : ∀ m, Makes parse (r m) (f m) (guarded parse invalidArgumentError (call m))) :
    MakesWith parse metadata r
      (guarded parse invalidArgumentError ((ofMetadata metadata).bind call)) := by
  cases metadata with
  | some m => exact .makes rfl (h m)
  | none => exact .throws (contracted_throwGatewayGrpcError parse _ invalidArgumentError) rfl

theorem makesWith_signIn (dto : SignInDto) :
    MakesWith parse (createAuthRequestMetadata grpc headers) (.signIn dto)
      (AuthService.signIn parse grpc dto headers) :=
  makesWith_guarded parse (fun _ => .ok) fun _ => makes_rpc parse _

theorem makesWith_signOut :
    MakesWith parse (createSessionRequestMetadata grpc (headers "cookie".toList)) .signOut
      (AuthService.signOut parse grpc headers) :=
  makesWith_guarded parse (fun _ => .ok) fun _ => makes_rpc parse _

theorem makesWith_currentUser :
    MakesWith parse (createSessionRequestMetadata grpc (headers "cookie".toList)) .currentUser
      (AuthService.currentUser parse grpc headers) :=
  makesWith_guarded parse (fun _ => .ok) fun _ => makes_rpc parse _

end Sessions

section Routes

variable {M α : Type} (parse : String → Option Json) (grpc : Grpc M) (validator : Validator)
  (accepts : Text → Bool) (headers : IncomingHttpHeaders)

/-- A call that a request may lead to, after the calls of `past`. The metadata is that of the
request, and the user is the one that Identity has just named for its session. -/
structure Permitted (past : List (Exchange (Request M) Reply Thrown)) (r : Request M) : Prop where
  session : ∀ metadata, r = .currentUser metadata ∨ r = .signOut metadata →
    createSessionRequestMetadata grpc (headers "cookie".toList) = some metadata
  context : ∀ dto metadata, r = .signIn dto metadata →
    createAuthRequestMetadata grpc headers = some metadata
  user : ∀ userID, r.userID? = some userID → ∃ metadata currentUser,
    createSessionRequestMetadata grpc (headers "cookie".toList) = some metadata ∧
      past = [⟨.currentUser metadata, .ok currentUser⟩] ∧ userID = currentUser.userID

/-- A service has answered that it has created what was asked for. -/
def creates : Exchange (Request M) Reply Thrown → Bool
  | ⟨.createOrder _ _, .ok reply⟩ => reply.created
  | ⟨.createPayment _ _, .ok reply⟩ => reply.created
  | _ => false

/-- The status of a route whose calls have succeeded. -/
def Route.status (calls : List (Exchange (Request M) Reply Thrown)) : Route → ℚ
  | .signUp _ => 201
  | .signIn _ => 201
  | .signOut => 204
  | .createTicket _ => 201
  -- There may have been an order or a payment before.
  | .createOrder _ => if calls.any creates then 201 else 200
  | .createPayment _ => if calls.any creates then 201 else 200
  | _ => 200

/-- A response to a request for the route that has succeeded, with these calls. -/
def HttpResponse.Succeeds (response : HttpResponse) (route : Route)
    (calls : List (Exchange (Request M) Reply Thrown)) : Prop :=
  response.status = .finite (route.status calls) ∧ ∀ body, response.body ≠ .errors body

/-- How a handler may end: it has made at most two calls, it returns only if all of them did, and
what it throws is an exception of the gateway. -/
def Ended (route : Route) (past : List (Exchange (Request M) Reply Thrown))
    (end' : Except Thrown HttpResponse) : Prop :=
  past.length ≤ 2 ∧
    match end' with
    | .ok response => (∀ x ∈ past, ∃ reply, x.answer = .ok reply) ∧ response.Succeeds route past
    | .error e => Relays parse past e

/-- A handler that only has to respond, or to throw an exception of the gateway. -/
def Responds (route : Route) (past : List (Exchange (Request M) Reply Thrown))
    (p : Handler M HttpResponse) : Prop :=
  (∃ response, p = .done response ∧ response.Succeeds route past) ∨
    ∃ e, p = .throw e ∧ Contracted e

variable {past : List (Exchange (Request M) Reply Thrown)} {headers} {route : Route}

/-- A handler that goes on after a method. -/
theorem Makes.triple {r : Request M} {f : Reply r → Except Thrown α} {method : Handler M α}
    (h : Makes parse r f method) {k : α → Handler M HttpResponse}
    (hr : Permitted grpc headers past r) (hlength : past.length ≤ 1)
    (hpast : ∀ x ∈ past, ∃ reply, x.answer = .ok reply)
    (hk : ∀ reply a, f reply = .ok a →
      (k a).Triple (Permitted grpc headers) (Ended parse route) (past ++ [⟨r, .ok reply⟩])) :
    (method.bind k).Triple (Permitted grpc headers) (Ended parse route) past := by
  apply Program.triple_bind
  refine (h past hpast).mono ?_ ?_
  · rintro past' r' ⟨rfl, rfl⟩
    exact hr
  · rintro past' end' ⟨answer, rfl, hend⟩
    cases end' with
    | ok a =>
      obtain ⟨reply, rfl, ha⟩ := hend
      exact hk reply a ha
    | error e => exact ⟨by simpa using hlength, hend⟩

/-- A handler that validates its argument. -/
theorem triple_pipe {validation : Validation α} {argument : Value} {k : α → Handler M HttpResponse}
    (hlength : past.length ≤ 1) (hpast : ∀ x ∈ past, ∃ reply, x.answer = .ok reply)
    (hk : ∀ dto, (k dto).Triple (Permitted grpc headers) (Ended parse route) past) :
    ((pipe validation argument).bind k).Triple (Permitted grpc headers) (Ended parse route)
      past := by
  apply Program.triple_bind
  apply Program.triple_ofExcept
  cases hvalidate : validation.validate argument with
  | ok dto => exact hk dto
  | error errors =>
    refine ⟨by omega, relays_of_ok ?_ hpast⟩
    exact contracted_createValidationApiError (validation.ne_nil hvalidate)

/-- A handler that needs a session. -/
theorem triple_withSession {k : AuthenticatedUser → Handler M HttpResponse}
    (hk : ∀ metadata currentUser,
      createSessionRequestMetadata grpc (headers "cookie".toList) = some metadata →
        (k (toCurrentUserResponse currentUser)).Triple (Permitted grpc headers) (Ended parse route)
          [⟨.currentUser metadata, .ok currentUser⟩]) :
    (withSession parse grpc headers k).Triple (Permitted grpc headers) (Ended parse route) [] := by
  unfold withSession SessionAuthGuard.canActivate AuthService.currentUser
  cases hmetadata : createSessionRequestMetadata grpc (headers "cookie".toList) with
  | none =>
    -- The metadata cannot be made, and Identity is not asked.
    exact ⟨Nat.zero_le 2,
      relays_of_ok (contracted_throwGatewayGrpcError parse _ none) (by simp)⟩
  | some metadata =>
    refine ⟨⟨?_, by simp, by simp [Request.userID?]⟩, fun answer => ?_⟩
    · rintro metadata' (heq | heq)
      · obtain rfl := Request.currentUser.inj heq
        exact hmetadata
      · cases heq
    · cases answer with
      | error e =>
        refine ⟨Nat.le_succ 1, ?_⟩
        exact relays_throwGatewayGrpcError parse (by simp) (fun _ => Except.error.inj) none
      | ok currentUser => exact hk metadata currentUser hmetadata

theorem Responds.triple {p : Handler M HttpResponse} (h : Responds route past p)
    (hlength : past.length ≤ 2) (hall : ∀ x ∈ past, ∃ reply, x.answer = .ok reply) :
    p.Triple (Permitted grpc headers) (Ended parse route) past := by
  rcases h with ⟨response, rfl, hsucceeds⟩ | ⟨e, rfl, he⟩
  · exact ⟨hlength, hall, hsucceeds⟩
  · exact ⟨hlength, relays_of_ok he hall⟩

variable {parse}

/-- A handler with a method for the user of the session. -/
theorem Makes.session {r : Request M} {f : Reply r → Except Thrown α} {method : Handler M α}
    (h : Makes parse r f method) {metadata : M} {currentUser : IdentityCurrentUserResponse}
    (hmetadata : createSessionRequestMetadata grpc (headers "cookie".toList) = some metadata)
    (hr : r.userID? = some currentUser.userID) {k : α → Handler M HttpResponse}
    (hk : ∀ reply a, f reply = .ok a →
      Responds route [⟨.currentUser metadata, .ok currentUser⟩, ⟨r, .ok reply⟩] (k a)) :
    (method.bind k).Triple (Permitted grpc headers) (Ended parse route)
      [⟨.currentUser metadata, .ok currentUser⟩] := by
  refine h.triple parse grpc ⟨?_, ?_, ?_⟩ (Nat.le_refl 1) (by simp)
    fun reply a ha => (hk reply a ha).triple parse grpc ?_ ?_
  · rintro metadata' (rfl | rfl)
    · cases hr
    · cases hr
  · rintro dto metadata' rfl
    cases hr
  · intro userID huser
    exact ⟨metadata, currentUser, hmetadata, rfl, Option.some.inj (huser.symm.trans hr)⟩
  · exact Nat.le_refl 2
  · simp

/-- A handler with a method for everybody. -/
theorem Makes.alone {r : Request M} {f : Reply r → Except Thrown α} {method : Handler M α}
    (h : Makes parse r f method) (hr : Permitted grpc headers [] r)
    {k : α → Handler M HttpResponse}
    (hk : ∀ reply a, f reply = .ok a → Responds route [⟨r, .ok reply⟩] (k a)) :
    (method.bind k).Triple (Permitted grpc headers) (Ended parse route) [] :=
  h.triple parse grpc hr (Nat.zero_le 1) (by simp)
    fun reply a ha => (hk reply a ha).triple parse grpc (Nat.le_succ 1) (by simp)

/-- A handler with a method that makes metadata first. -/
theorem MakesWith.alone {metadata : Option M} {r : M → Request M} {method : Handler M α}
    (h : MakesWith parse metadata r method)
    (hr : ∀ m, metadata = some m → Permitted grpc headers [] (r m))
    {k : α → Handler M HttpResponse} (hk : ∀ past a, Responds route past (k a)) :
    (method.bind k).Triple (Permitted grpc headers) (Ended parse route) [] := by
  cases h with
  | makes hmetadata h => exact h.alone grpc (hr _ hmetadata) fun _ a _ => hk _ a
  | throws he h =>
    rw [h]
    exact ⟨Nat.zero_le 2, relays_of_ok he (by simp)⟩

variable (parse)

theorem responds_answer {status : ℚ} (hstatus : status = route.status past) (body : Body)
    (hbody : ∀ errors, body ≠ .errors errors) :
    Responds route past (.done (answer status body)) :=
  Or.inl ⟨_, rfl, congrArg Number.finite hstatus, hbody⟩

/-- The response to a sign-in, once Identity has answered. -/
theorem responds_signIn (body : Value) (past : List (Exchange (Request M) Reply Thrown))
    (result : IdentitySignInResponse) :
    Responds (.signIn body) past
      ((Program.ofExcept (toISOString result.sessionExpiresAt)).bind fun expiresAt =>
      if accepts result.sessionToken then
        .done
          { status := .finite 201
            body := .signedIn expiresAt
              { email := result.email
                emailVerified := result.emailVerified
                id := result.userID
                name := result.name }
            cookie := some { value := result.sessionToken, expires := expiresAt } }
      else .throw (newError "argument val is invalid")) := by
  cases htime : toISOString result.sessionExpiresAt with
  | error e =>
    refine Or.inr ⟨e, rfl, ?_⟩
    unfold toISOString at htime
    split at htime
    next => cases htime; exact contracted_value _
    next =>
      split at htime
      next => cases htime; exact contracted_value _
      next => cases htime
  | ok expiresAt =>
    show Responds _ past (if accepts result.sessionToken then _ else _)
    split
    next => exact Or.inl ⟨_, rfl, rfl, by simp⟩
    next => exact Or.inr ⟨_, rfl, contracted_value _⟩

/-- The handler of every route. -/
theorem triple_handler (request : HttpRequest) :
    (handler parse grpc validator accepts request).Triple (Permitted grpc request.headers)
      (Ended parse request.route) [] := by
  obtain ⟨headers, route⟩ := request
  cases route with
  | signUp body =>
    refine triple_pipe parse grpc (by simp) (by simp) fun dto => ?_
    exact (makes_rpc parse _).alone grpc ⟨by simp, by simp, by simp [Request.userID?]⟩
      fun _ response _ => responds_answer rfl _ (by simp)
  | signIn body =>
    refine triple_pipe parse grpc (by simp) (by simp) fun dto => ?_
    refine (makesWith_signIn parse grpc dto).alone grpc (fun metadata hmetadata => ?_)
      (responds_signIn accepts body)
    refine ⟨by simp, fun dto' metadata' heq => ?_, by simp [Request.userID?]⟩
    obtain ⟨-, rfl⟩ := Request.signIn.inj heq
    exact hmetadata
  | signOut =>
    refine (makesWith_signOut parse grpc).alone grpc (fun metadata hmetadata => ?_)
      fun _ _ => Or.inl ⟨_, rfl, rfl, by simp⟩
    refine ⟨fun metadata' heq => ?_, by simp, by simp [Request.userID?]⟩
    obtain rfl := Request.signOut.inj (heq.resolve_left (by simp))
    exact hmetadata
  | currentUser =>
    refine (makesWith_currentUser parse grpc).alone grpc (fun metadata hmetadata => ?_)
      fun _ response => responds_answer rfl _ (by simp)
    refine ⟨fun metadata' heq => ?_, by simp, by simp [Request.userID?]⟩
    obtain rfl := Request.currentUser.inj (heq.resolve_right (by simp))
    exact hmetadata
  | verifyEmail query =>
    refine triple_pipe parse grpc (by simp) (by simp) fun dto => ?_
    exact (makes_rpc parse _).alone grpc ⟨by simp, by simp, by simp [Request.userID?]⟩
      fun _ response _ => responds_answer rfl _ (by simp)
  | listTickets =>
    exact (makes_listTickets parse).alone grpc ⟨by simp, by simp, by simp [Request.userID?]⟩
      fun _ tickets _ => responds_answer rfl _ (by simp)
  | getTicket id =>
    exact (makes_rpc parse _).alone grpc ⟨by simp, by simp, by simp [Request.userID?]⟩
      fun _ ticket _ => responds_answer rfl _ (by simp)
  | updateTicket id body =>
    refine triple_withSession parse grpc fun metadata currentUser hmetadata => ?_
    refine triple_pipe parse grpc (by simp) (by simp) fun dto => ?_
    exact (makes_rpc parse _).session grpc hmetadata rfl
      fun _ ticket _ => responds_answer rfl _ (by simp)
  | createTicket body =>
    refine triple_withSession parse grpc fun metadata currentUser hmetadata => ?_
    refine triple_pipe parse grpc (by simp) (by simp) fun dto => ?_
    exact (makes_rpc parse _).session grpc hmetadata rfl
      fun _ ticket _ => responds_answer rfl _ (by simp)
  | createOrder body =>
    refine triple_withSession parse grpc fun metadata currentUser hmetadata => ?_
    refine triple_pipe parse grpc (by simp) (by simp) fun dto => ?_
    refine (makes_createOrder parse _ _).session grpc hmetadata rfl fun reply result hresult => ?_
    obtain ⟨order, -, heq⟩ := exists_of_bind hresult
    obtain rfl := Except.ok.inj heq
    refine responds_answer ?_ _ (by simp)
    simp [Route.status, creates]
  | cancelOrder id =>
    refine triple_withSession parse grpc fun metadata currentUser hmetadata => ?_
    exact (makes_cancelOrder parse _ _).session grpc hmetadata rfl
      fun _ order _ => responds_answer rfl _ (by simp)
  | listOrders =>
    refine triple_withSession parse grpc fun metadata currentUser hmetadata => ?_
    exact (makes_listOrders parse _).session grpc hmetadata rfl
      fun _ orders _ => responds_answer rfl _ (by simp)
  | getOrder id =>
    refine triple_withSession parse grpc fun metadata currentUser hmetadata => ?_
    exact (makes_getOrder parse _ _).session grpc hmetadata rfl
      fun _ order _ => responds_answer rfl _ (by simp)
  | createPayment body =>
    refine triple_withSession parse grpc fun metadata currentUser hmetadata => ?_
    refine triple_pipe parse grpc (by simp) (by simp) fun dto => ?_
    refine (makes_createPayment parse _ _).session grpc hmetadata rfl fun reply result hresult => ?_
    obtain ⟨payment, -, heq⟩ := exists_of_bind hresult
    obtain rfl := Except.ok.inj heq
    refine responds_answer ?_ _ (by simp)
    simp [Route.status, creates]

end Routes

section Contract

variable {M : Type} (parse : String → Option Json) (grpc : Grpc M) (validator : Validator)
  (accepts : Text → Bool) (env : Environment (Request M) Reply Thrown) (request : HttpRequest)

/-- Whatever a request contains and whatever the services answer, the gateway acts for a user only
after Identity has named this user for the session of the request. It calls a service for the user
once at most, and not at all where Identity knows of no session. The metadata of all calls is made
of the headers of the request. -/
theorem calls_authorized :
    (serve parse grpc validator accepts env request).1.length ≤ 2 ∧ ∀ front x back,
      (serve parse grpc validator accepts env request).1 = front ++ x :: back →
        Permitted grpc request.headers front x.request := by
  have h := triple_handler parse grpc validator accepts request
  exact ⟨(h.run env).2.1, fun front x back hcalls => h.call env hcalls (Nat.zero_le _)⟩

/-- Every request has a response. -/
theorem exists_response : ∃ calls response,
    serve parse grpc validator accepts env request = (calls, some response) := by
  have hend := ((triple_handler parse grpc validator accepts request).run env).2
  simp only [serve]
  generalize (handler parse grpc validator accepts request).run env [] = result at hend ⊢
  obtain ⟨calls, result⟩ := result
  cases result with
  | ok response => exact ⟨calls, response, rfl⟩
  | error e =>
    obtain ⟨body, hbody, -⟩ := (wellFormed_iff e).mpr hend.2.contracted.presentable
    exact ⟨calls, ⟨getHttpStatus e, .errors body, none⟩, by simp [respond, hbody]⟩

variable {parse grpc validator accepts env request} in
/-- What a call has thrown is what the response is made of. -/
theorem serve_of_thrown {x : Exchange (Request M) Reply Thrown} {thrown : Thrown}
    (hx : x ∈ (serve parse grpc validator accepts env request).1)
    (hthrown : x.answer = .error thrown) : ∃ invalidArgumentError,
      (serve parse grpc validator accepts env request).2 =
        respond (.error (throwGatewayGrpcError parse thrown invalidArgumentError)) := by
  have hend := ((triple_handler parse grpc validator accepts request).run env).2
  simp only [serve] at hx ⊢
  generalize (handler parse grpc validator accepts request).run env [] = result at hx hend ⊢
  obtain ⟨calls, result⟩ := result
  obtain ⟨-, hend⟩ := hend
  cases result with
  | ok response =>
    obtain ⟨reply, hreply⟩ := hend.1 x hx
    rw [hreply] at hthrown
    cases hthrown
  | error e =>
    obtain ⟨invalidArgumentError, rfl⟩ := hend.relays x hx thrown hthrown
    exact ⟨invalidArgumentError, rfl⟩

/-- Whatever a request contains and whatever the services answer, the gateway has a response. It is
a success, with the status of its route, only if all calls were answered. Otherwise it is in the
public format of errors, has one of the eight statuses and sets no cookie, and one with a server
error shows nothing but the status. -/
theorem answers_contract :
    ∃ calls response, serve parse grpc validator accepts env request = (calls, some response) ∧
      (response.Succeeds request.route calls ∧ (∀ x ∈ calls, ∃ reply, x.answer = .ok reply) ∨
      ∃ body, response.body = .errors body ∧ body.WellFormed ∧
        response.status ∈ errorStatuses ∧ response.cookie = none ∧
          (¬response.status.Below 500 → body = serverErrorResponse response.status)) := by
  have hend := ((triple_handler parse grpc validator accepts request).run env).2
  simp only [serve]
  generalize (handler parse grpc validator accepts request).run env [] = result at hend ⊢
  obtain ⟨calls, result⟩ := result
  obtain ⟨-, hend⟩ := hend
  cases result with
  | ok response => exact ⟨calls, response, rfl, Or.inl ⟨hend.2, hend.1⟩⟩
  | error e =>
    obtain ⟨body, hbody, hwell⟩ := (wellFormed_iff e).mpr hend.contracted.presentable
    refine ⟨calls, ⟨getHttpStatus e, .errors body, none⟩, ?_,
      Or.inr ⟨body, rfl, hwell, hend.contracted.status, rfl, fun hlarge => ?_⟩⟩
    · simp [respond, hbody]
    · rw [apiErrorFilter_of_not_below hlarge] at hbody
      exact (Prod.mk.inj (Option.some.inj hbody)).2.symm

end Contract

end Gateway
