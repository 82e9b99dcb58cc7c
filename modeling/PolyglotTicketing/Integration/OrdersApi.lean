import PolyglotTicketing.Integration.Refusals
import PolyglotTicketing.Integration.Sessions
import PolyglotTicketing.Orders.Privacy

/-!
# Orders behind the gateway

The gateway in front of the server of Orders. Identity and the other services answer as they like.

* `orders_private`: no event on the server of Orders changes what the gateway shows of the orders,
  unless it is the commit of an operation about an order of the user whom Identity names for the
  request.
* `created_order_shown`: an order that the gateway has said to be created is shown to its user from
  then on, and to nobody else.
-/

namespace Integration

open Contracts Gateway Interaction JavaScript Platform Transaction

section Runs

variable {M : Type} {parse : String → Option Json} {grpc : Grpc M}
  {env : Environment (Request M) Reply Thrown}

variable {validator : Validator} {accepts : Text → Bool} {headers : IncomingHttpHeaders}

/-- An order is created only with a reply of Orders that says so. -/
theorem created_of_run {body : Value} {calls : List (Exchange (Request M) Reply Thrown)}
    {response : HttpResponse}
    (hrun : (handler parse grpc validator accepts ⟨headers, .createOrder body⟩).run env [] =
      (calls, .ok response)) (hstatus : response.status = .finite 201) :
    ∃ currentUser dto past reply order, Names grpc env headers currentUser ∧
      env past (.createOrder (CreateOrderDto.ticketID dto) currentUser.userID) = .ok reply ∧
        reply.created = true ∧ toOrderResponse reply.toOrderGrpcResponse = .ok order ∧
          response.body = .order order := by
  obtain ⟨currentUser, past, hnames, hhandler⟩ := exists_of_withSession hrun
  obtain ⟨_, dto, hpipe, hanswer⟩ := Program.exists_of_run_bind hhandler
  obtain ⟨-, rfl⟩ := exists_of_pipe hpipe
  obtain ⟨_, ⟨created, order⟩, hmethod, hend⟩ := Program.exists_of_run_bind hanswer
  obtain ⟨_, reply, hask, hconvert⟩ := Program.exists_of_run_bind (exists_of_guarded hmethod)
  obtain ⟨hreply, rfl⟩ := Program.exists_of_run_perform hask
  obtain ⟨_, order', hconverted, hreturn⟩ := Program.exists_of_run_bind hconvert
  rw [Program.run_ofExcept] at hconverted
  obtain ⟨rfl, horder⟩ := Prod.mk.inj hconverted
  obtain ⟨rfl, rfl⟩ := Prod.mk.inj (Except.ok.inj (Prod.mk.inj hreturn).2)
  obtain rfl := Except.ok.inj (Prod.mk.inj hend).2
  refine ⟨currentUser, dto, _, reply, order', hnames, hreply, ?_, horder, rfl⟩
  by_contra hcreated
  simp [answer, hcreated] at hstatus

theorem created_of_serve {body : Value} {calls : List (Exchange (Request M) Reply Thrown)}
    {response : HttpResponse}
    (hserve : serve parse grpc validator accepts env ⟨headers, .createOrder body⟩ =
      (calls, some response)) (hstatus : response.status = .finite 201) :
    ∃ currentUser dto past reply order, Names grpc env headers currentUser ∧
      env past (.createOrder (CreateOrderDto.ticketID dto) currentUser.userID) = .ok reply ∧
        reply.created = true ∧ toOrderResponse reply.toOrderGrpcResponse = .ok order ∧
          response.body = .order order := by
  refine created_of_run (run_of_serve hserve ?_) hstatus
  rw [hstatus]
  simp [errorStatuses]

end Runs

/-- The answers of the server of Orders, whose database is `db` when an order is read and whose
transactions end as `repository` says. All other calls are answered by `env`. -/
def withOrders {M : Type} (db : Option Orders.Db)
    (repository : Orders.Call → Outcome Orders.Err Orders.Reply) (now : Int)
    (env : Environment (Request M) Reply Thrown) : Environment (Request M) Reply Thrown :=
  fun past r =>
    match r with
    | .createOrder ticketID userID =>
      (Orders.Server.createOrder repository now ticketID userID).mapError Refusal.error
    | .cancelOrder orderID userID =>
      (Orders.Server.cancelOrder repository orderID userID).mapError Refusal.error
    | .getOrder orderID userID =>
      (Orders.Server.getOrder db orderID userID).mapError Refusal.error
    | .listOrders userID => (Orders.Server.listOrders db userID).mapError Refusal.error
    | r => env past r

section Private

variable {M α : Type} (parse : String → Option Json) (grpc : Grpc M) (validator : Validator)
  (accepts : Text → Bool)

/-- The calls of the requests that read orders. -/
def ReadsOrders (r : Request M) : Prop :=
  (∃ metadata, r = .currentUser metadata) ∨ (∃ orderID userID, r = .getOrder orderID userID) ∨
    ∃ userID, r = .listOrders userID

/-- A handler with a method that reads the orders of a user makes no other calls. -/
theorem triple_reads {headers : IncomingHttpHeaders} {r : String → Request M}
    {f : (userID : String) → Reply (r userID) → Except Thrown α} {method : String → Handler M α}
    (h : ∀ userID, Makes parse (r userID) (f userID) (method userID))
    (hr : ∀ userID, ReadsOrders (r userID)) (k : α → HttpResponse) :
    (withSession parse grpc headers fun user =>
      (method user.id).bind fun a => .done (k a)).Triple
        (fun _ r => ReadsOrders r) (fun _ _ => True) [] := by
  unfold withSession SessionAuthGuard.canActivate AuthService.currentUser
  cases hmetadata : createSessionRequestMetadata grpc (headers "cookie".toList) with
  | none => trivial
  | some metadata =>
    refine ⟨Or.inl ⟨metadata, rfl⟩, fun answer => ?_⟩
    cases answer with
    | error e => trivial
    | ok currentUser =>
      have hmethod : ((method currentUser.userID).bind fun a => .done (k a)).Triple
          (fun _ r => ReadsOrders r) (fun _ _ => True)
          [⟨.currentUser metadata, .ok currentUser⟩] := by
        apply Program.triple_bind
        refine (h currentUser.userID _ (by simp)).mono ?_ ?_
        · rintro past r ⟨-, rfl⟩
          exact hr currentUser.userID
        · rintro past (e | a) -
          · trivial
          · trivial
      exact hmethod

/-- The two routes that read orders. -/
def orderRoutes (id : String) : List Route := [.getOrder id, .listOrders]

theorem triple_orderRoutes {headers : IncomingHttpHeaders} {id : String} {route : Route}
    (hroute : route ∈ orderRoutes id) :
    (handler (M := M) parse grpc validator accepts ⟨headers, route⟩).Triple
      (fun _ r => ReadsOrders r) (fun _ _ => True) [] := by
  simp only [orderRoutes, List.mem_cons, List.not_mem_nil, or_false] at hroute
  rcases hroute with rfl | rfl
  · exact triple_reads parse grpc (makes_getOrder parse id)
      (fun userID => Or.inr (Or.inl ⟨id, userID, rfl⟩)) fun order => answer 200 (.order order)
  · exact triple_reads parse grpc (makes_listOrders parse)
      (fun userID => Or.inr (Or.inr ⟨userID, rfl⟩)) fun orders => answer 200 (.orders orders)

variable (repository repository' : Orders.Call → Outcome Orders.Err Orders.Reply) (now now' : Int)
  (env : Environment (Request M) Reply Thrown)

/-- What is shown of the orders depends on those of the user whom Identity names, and on nothing
else. -/
theorem serve_congr {db db' : Orders.Db} {headers : IncomingHttpHeaders} {id : String}
    {route : Route} (hroute : route ∈ orderRoutes id)
    (h : ∀ currentUser, Names grpc env headers currentUser →
      Orders.SeesSame db db' currentUser.userID) :
    serve parse grpc validator accepts (withOrders (some db) repository now env)
        ⟨headers, route⟩ =
      serve parse grpc validator accepts (withOrders (some db') repository' now' env)
        ⟨headers, route⟩ := by
  suffices hrun : (handler parse grpc validator accepts ⟨headers, route⟩).run
      (withOrders (some db) repository now env) [] =
        (handler parse grpc validator accepts ⟨headers, route⟩).run
          (withOrders (some db') repository' now' env) [] by
    rw [serve, serve, hrun]
  apply ((triple_handler parse grpc validator accepts ⟨headers, route⟩).and
    (triple_orderRoutes parse grpc validator accepts hroute)).run_congr Program.answered_nil
  rintro past r hpast ⟨hpermitted, hreads⟩
  -- A call for a user comes after the answer of Identity.
  have huser : ∀ userID, r.userID? = some userID → Orders.SeesSame db db' userID := by
    intro userID hr
    obtain ⟨metadata, currentUser, hmetadata, rfl, rfl⟩ := hpermitted.user userID hr
    exact h currentUser ⟨metadata, hmetadata, (hpast [] _ [] rfl).symm⟩
  rcases hreads with ⟨metadata, rfl⟩ | ⟨orderID, userID, rfl⟩ | ⟨userID, rfl⟩
  · rfl
  · simp only [withOrders, (huser userID rfl).getOrder orderID]
  · simp only [withOrders, (huser userID rfl).listOrders]

/-- Whatever the other services answer and whatever becomes of the transactions of other requests,
an event on the server of Orders leaves the responses to `GET /orders` and `GET /orders/:id` as they
are, unless it is the commit of an operation about an order of the user of the request. -/
theorem orders_private (clock : Int) (events : List (Transaction.Event Int Fresh Orders.Call))
    (e : Transaction.Event Int Fresh Orders.Call) (headers : IncomingHttpHeaders) (id : String) :
    (∃ i s r currentUser, e = .finish i ∧ (Orders.serve clock events).sessions[i]? = some s ∧
      s.phase = .running (.done r) ∧ Names grpc env headers currentUser ∧
        s.call.Concerns (Orders.serve clock events).world.db currentUser.userID) ∨
    ∀ route ∈ orderRoutes id,
      serve parse grpc validator accepts
          (withOrders (some (Orders.serve clock events).world.db) repository now env)
          ⟨headers, route⟩ =
        serve parse grpc validator accepts
          (withOrders (some (Orders.serve clock (events ++ [e])).world.db) repository' now' env)
          ⟨headers, route⟩ := by
  by_cases hall : ∀ currentUser, Names grpc env headers currentUser →
      Orders.SeesSame (Orders.serve clock events).world.db
        (Orders.serve clock (events ++ [e])).world.db currentUser.userID
  · right
    intro route hroute
    exact serve_congr parse grpc validator accepts repository repository' now now' env hroute hall
  · obtain ⟨currentUser, hnot⟩ := not_forall.mp hall
    obtain ⟨hnames, hdiffers⟩ := Classical.not_imp.mp hnot
    obtain ⟨i, s, r, he, hs, hphase, hconcerns⟩ :=
      (Orders.sees_step clock events e currentUser.userID).resolve_right hdiffers
    exact Or.inl ⟨i, s, r, currentUser, he, hs, hphase, hnames, hconcerns⟩

end Private

section Shown

/-- What a transaction of the server returns to the request that began it. -/
def returned (server : Orders.System) (i : ℕ) (call : Orders.Call) :
    Outcome Orders.Err Orders.Reply :=
  match server.sessions[i]? with
  | some s =>
    match s.phase with
    | .ended outcome => if s.call = call then outcome else .aborted
    | _ => .aborted
  | none => .aborted

theorem exists_of_returned {server : Orders.System} {i : ℕ} {call : Orders.Call} {r : Orders.Reply}
    (h : returned server i call = .committed r) :
    ∃ s, server.sessions[i]? = some s ∧ s.call = call ∧ s.phase = .ended (.committed r) := by
  unfold returned at h
  split at h
  next s hs =>
    split at h
    next outcome hphase =>
      split at h
      next hcall => exact ⟨s, hs, hcall, by rw [hphase, h]⟩
      next => cases h
    next => cases h
  next => cases h

/-- The statuses that the gateway shows. -/
def orderStatuses : List String := ["Created", "Canceled", "AwaitingPayment", "Complete"]

theorem exists_toOrderStatus (s : Orders.Status) :
    ∃ status ∈ orderStatuses, toOrderStatus (Orders.toOrderStatus s) = .ok status := by
  cases s <;> simp [Orders.toOrderStatus, toOrderStatus, orderStatuses]

/-- An order that has evolved is shown with another status. -/
theorem toOrderResponse_of_kept {o o' : Orders.Order} {order : OrderResponse}
    (horder : toOrderResponse (Orders.toOrderResponse o) = .ok order) (hid : o'.id = o.id)
    (hticket : o'.ticketID = o.ticketID) (huser : o'.userID = o.userID)
    (hexpires : o'.expiresAt = o.expiresAt) :
    order.id = uuidText o.id ∧ order.userID = o.userID ∧ ∃ status ∈ orderStatuses,
      toOrderResponse (Orders.toOrderResponse o') = .ok { order with status } := by
  obtain ⟨status, hstatus, heq⟩ := exists_toOrderStatus o.status
  obtain ⟨status', hstatus', heq'⟩ := exists_toOrderStatus o'.status
  simp only [toOrderResponse, Orders.toOrderResponse, hid, hticket, huser, hexpires, heq,
    heq'] at horder ⊢
  cases htime : toISOString (some (.ofGo (.new o.expiresAt))) with
  | error e => simp [htime, bind, Except.bind] at horder
  | ok time =>
    rw [htime] at horder
    obtain rfl := Except.ok.inj horder
    exact ⟨rfl, rfl, status', hstatus', rfl⟩

variable {M : Type} (round : ℚ → Number) (grpc : Grpc M) (validator : Validator)
  (accepts : Text → Bool) (repository : Orders.Call → Outcome Orders.Err Orders.Reply) (now : Int)

/-- The response to a request for an order. -/
theorem serve_getOrder (parse : String → Option Json)
    {env : Environment (Request M) Reply Thrown} {headers : IncomingHttpHeaders}
    {currentUser : IdentityCurrentUserResponse}
    (hnames : Names grpc env headers currentUser) (id : String) : ∃ past,
      (serve parse grpc validator accepts env ⟨headers, .getOrder id⟩).2 =
        respond ((((env past (.getOrder id currentUser.userID)).bind
          toOptionalOrderResponse).mapError fun error => throwGatewayGrpcError parse error
            (invalidArgument "Order ID is invalid.")).map
              fun order => answer 200 (.order order)) := by
  obtain ⟨metadata, hmetadata, hanswer⟩ := hnames
  refine ⟨[⟨.currentUser metadata, .ok currentUser⟩], ?_⟩
  show respond ((withSession parse grpc headers (OrdersController.getOrder parse id)).run env
    []).2 = _
  rw [run_withSession hmetadata hanswer]
  show respond (((OrdersService.getOrder parse id currentUser.userID).bind _).run env _).2 = _
  rw [Program.run_bind, show (OrdersService.getOrder parse id currentUser.userID).run env _ = _
    from run_guarded (.getOrder id currentUser.userID) toOptionalOrderResponse _ _]
  cases ((env [⟨.currentUser metadata, .ok currentUser⟩]
    (.getOrder id currentUser.userID)).bind toOptionalOrderResponse).mapError fun error =>
      throwGatewayGrpcError parse error (invalidArgument "Order ID is invalid.") with
  | ok order => rfl
  | error e => rfl

/-- The response to a request for an order that the user does not have. -/
def orderNotFound : HttpResponse :=
  refused .notFound [⟨"Order not found.", "NOT_FOUND", none⟩]

/-- What the gateway shows of an order that it has said to be created. -/
structure ShownTo (order : OrderResponse) (currentUser : IdentityCurrentUserResponse)
    (response : Option HttpResponse) : Prop where
  owner : currentUser.userID = order.userID → ∃ status ∈ orderStatuses,
    response = some (answer 200 (.order { order with status }))
  others : currentUser.userID ≠ order.userID → ¬Blank currentUser.userID →
    response = some orderNotFound

/-- The response to a request for an order that is in the database. -/
theorem shownTo_of_kept {db : Orders.Db} {o : Orders.Order} {order : OrderResponse}
    (hkept : Orders.Kept db o) (huser : ¬Blank o.userID)
    (horder : toOrderResponse (Orders.toOrderResponse o) = .ok order)
    {env : Environment (Request M) Reply Thrown} {headers : IncomingHttpHeaders}
    {currentUser : IdentityCurrentUserResponse} (hnames : Names grpc env headers currentUser) :
    ShownTo order currentUser
      (serve (parse round) grpc validator accepts (withOrders (some db) repository now env)
        ⟨headers, .getOrder order.id⟩).2 := by
  obtain ⟨o', hfind, hid, hticket, howner, hexpires⟩ := hkept
  obtain ⟨horderID, horderUser, status, hstatus, hshown⟩ :=
    toOrderResponse_of_kept horder hid hticket howner hexpires
  have hnames' : Names grpc (withOrders (some db) repository now env) headers currentUser := hnames
  obtain ⟨past, hserve⟩ := serve_getOrder grpc validator accepts (parse round) hnames' order.id
  rw [hserve]
  have hanswer : withOrders (some db) repository now env past
      (.getOrder order.id currentUser.userID) =
        (Orders.Server.getOrder (some db) order.id currentUser.userID).mapError Refusal.error := rfl
  rw [hanswer, horderID]
  constructor
  · intro heq
    have hget : Orders.getByIDAndUser db o.id currentUser.userID = some o' :=
      Orders.getByIDAndUser_eq_some_iff.mpr ⟨hfind, by rw [howner, heq, horderUser]⟩
    rw [Orders.Server.getOrder_uuidText o.id (by rw [heq, horderUser]; exact huser), hget]
    refine ⟨status, hstatus, ?_⟩
    simp [Except.mapError, Except.bind, toOptionalOrderResponse, hshown, respond, Except.map]
  · intro hne hblank
    have hget : Orders.getByIDAndUser db o.id currentUser.userID = none := by
      rw [Option.eq_none_iff_forall_ne_some]
      intro x hx
      obtain ⟨hfind', hx⟩ := Orders.getByIDAndUser_eq_some_iff.mp hx
      obtain rfl := Option.some.inj (hfind.symm.trans hfind')
      exact hne (hx.symm.trans (howner.trans horderUser.symm))
    rw [Orders.Server.getOrder_uuidText o.id hblank, hget]
    simp only [Except.mapError, Except.bind, Except.map, Orders.refusal, Orders.structuredError,
      List.map_singleton]
    rw [throwGatewayGrpcError_structuredError (List.cons_ne_nil _ _),
      respond_itemsValue _ (by simp)]
    simp [orderNotFound, ValidationError.toItem, errorcodeString_eq, toPublicErrorCode]

/-- If the gateway answers with status 201, then the order in the response is in the database of
Orders. From then on, whatever happens, a request for it is answered with the same order when it
comes from the user who has created it, at most with another status, and as if there were no such
order when it comes from anybody else. -/
theorem created_order_shown (clock : Int)
    (events : List (Transaction.Event Int Fresh Orders.Call)) (i : ℕ)
    (env : Environment (Request M) Reply Thrown) (headers : IncomingHttpHeaders) (body : Value) :
    ∃ calls response,
      serve (parse round) grpc validator accepts
        (withOrders (some (Orders.serve clock events).world.db)
          (returned (Orders.serve clock events) i) now env) ⟨headers, .createOrder body⟩ =
        (calls, some response) ∧
      (response.status = .finite 201 → ∃ order, response.body = .order order ∧
        (∃ currentUser, Names grpc env headers currentUser ∧
          currentUser.userID = order.userID) ∧
        ∀ later repository' now' env' headers' currentUser, Names grpc env' headers' currentUser →
          ShownTo order currentUser
            (serve (parse round) grpc validator accepts
              (withOrders (some (Orders.serve clock (events ++ later)).world.db) repository' now'
                env') ⟨headers', .getOrder order.id⟩).2) := by
  obtain ⟨calls, response, hserve⟩ := exists_response (parse round) grpc validator accepts
    (withOrders (some (Orders.serve clock events).world.db)
      (returned (Orders.serve clock events) i) now env) ⟨headers, .createOrder body⟩
  refine ⟨calls, response, hserve, fun hstatus => ?_⟩
  obtain ⟨currentUser, dto, past, reply, order, hnames, hreply, hcreated, horder, hbody⟩ :=
    created_of_serve hserve hstatus
  -- The reply is that of a transaction which has committed the order.
  have hserver : Orders.Server.createOrder (returned (Orders.serve clock events) i) now
      dto.ticketID currentUser.userID = .ok reply := ok_of_mapError hreply
  obtain ⟨huser, input, ⟨created, o⟩, hinput, hreturned, rfl⟩ :=
    Orders.Server.exists_of_createOrder hserver
  obtain ⟨s, hs, hcall, hend⟩ := exists_of_returned hreturned
  obtain rfl : created = true := hcreated
  obtain ⟨hnew, hkept⟩ := Orders.kept_of_committed hs hcall hend
  have howner : o.userID = currentUser.userID := by
    rw [hnew]
    exact hinput
  refine ⟨order, hbody, ⟨currentUser, hnames, ?_⟩, ?_⟩
  · obtain ⟨-, hshown, -⟩ := toOrderResponse_of_kept horder rfl rfl rfl rfl
    exact howner.symm.trans hshown.symm
  · intro later repository' now' env' headers' currentUser' hnames'
    exact shownTo_of_kept round grpc validator accepts repository' now'
      (Orders.kept_run hkept later) (by rw [howner]; exact huser) horder hnames'

end Shown

end Integration
