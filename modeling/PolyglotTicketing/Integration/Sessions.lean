import PolyglotTicketing.Gateway.ApiContract

/-!
# Requests with a session

The runs of handlers that need a session: the guard asks Identity first, and the handler goes on
with the user whom Identity names (`Names`).
-/

namespace Integration

open Gateway Interaction JavaScript

section Runs

variable {M α : Type} {parse : String → Option Json} {grpc : Grpc M}
  {env : Environment (Request M) Reply Thrown}

/-- The run of a method that makes one call. -/
theorem run_guarded (r : Request M) (f : Reply r → Except Thrown α)
    (invalidArgumentError : Option ErrorItem)
    (past : List (Exchange (Request M) Reply Thrown)) :
    (guarded parse invalidArgumentError
        ((rpc r).bind fun reply => Program.ofExcept (f reply))).run env past =
      (past ++ [⟨r, env past r⟩],
        ((env past r).bind f).mapError
          fun error => throwGatewayGrpcError parse error invalidArgumentError) := by
  rw [guarded, Program.run_tryCatch, Program.run_bind, rpc, Program.run_perform]
  cases env past r with
  | error e => rfl
  | ok reply =>
    dsimp only
    rw [Program.run_ofExcept]
    cases hf : f reply with
    | error e => simp [Except.bind, hf, Except.mapError, Program.run]
    | ok a => simp [Except.bind, hf, Except.mapError]

/-- A method returns what is returned inside of `guarded`. -/
theorem exists_of_guarded {p : Handler M α} {invalidArgumentError : Option ErrorItem}
    {past calls : List (Exchange (Request M) Reply Thrown)} {a : α}
    (h : (guarded parse invalidArgumentError p).run env past = (calls, .ok a)) :
    p.run env past = (calls, .ok a) := by
  rw [guarded, Program.run_tryCatch] at h
  cases hend : (p.run env past).2 with
  | ok a' =>
    rw [hend] at h
    obtain ⟨rfl, ha⟩ := Prod.mk.inj h
    exact Prod.ext rfl (hend.trans ha)
  | error e =>
    rw [hend] at h
    cases (Prod.mk.inj h).2

/-- An argument that is not refused is valid. -/
theorem exists_of_pipe {validation : Validation α} {argument : Value}
    {past calls : List (Exchange (Request M) Reply Thrown)} {dto : α}
    (h : (pipe validation argument).run env past = (calls, .ok dto)) :
    validation.validate argument = .ok dto ∧ calls = past := by
  rw [pipe, Program.run_ofExcept] at h
  obtain ⟨rfl, hvalidate⟩ := Prod.mk.inj h
  cases hresult : validation.validate argument with
  | ok dto' =>
    rw [hresult] at hvalidate
    rw [Except.ok.inj hvalidate]
    exact ⟨rfl, rfl⟩
  | error errors =>
    rw [hresult] at hvalidate
    cases hvalidate

/-- The user whom Identity names for the headers of a request. -/
def Names (grpc : Grpc M) (env : Environment (Request M) Reply Thrown)
    (headers : IncomingHttpHeaders) (currentUser : IdentityCurrentUserResponse) : Prop :=
  ∃ metadata, createSessionRequestMetadata grpc (headers "cookie".toList) = some metadata ∧
    env [] (.currentUser metadata) = .ok currentUser

/-- The run of a handler that needs a session, where Identity names a user. -/
theorem run_withSession {headers : IncomingHttpHeaders} {currentUser : IdentityCurrentUserResponse}
    {metadata : M}
    (hmetadata : createSessionRequestMetadata grpc (headers "cookie".toList) = some metadata)
    (hnames : env [] (.currentUser metadata) = .ok currentUser)
    (k : AuthenticatedUser → Handler M HttpResponse) :
    (withSession parse grpc headers k).run env [] =
      (k (toCurrentUserResponse currentUser)).run env
        [⟨.currentUser metadata, .ok currentUser⟩] := by
  have hcanActivate : (SessionAuthGuard.canActivate parse grpc headers).run env [] =
      ([⟨.currentUser metadata, .ok currentUser⟩], .ok (toCurrentUserResponse currentUser)) := by
    rw [SessionAuthGuard.canActivate, AuthService.currentUser, hmetadata]
    show (Program.run env [⟨.currentUser metadata, env [] (.currentUser metadata)⟩] _) = _
    rw [hnames]
    rfl
  show ((SessionAuthGuard.canActivate parse grpc headers).bind _).run env [] = _
  rw [Program.run_bind, hcanActivate]
  rfl

/-- Such a handler returns only if Identity names a user. -/
theorem exists_of_withSession {headers : IncomingHttpHeaders}
    {k : AuthenticatedUser → Handler M HttpResponse}
    {calls : List (Exchange (Request M) Reply Thrown)} {response : HttpResponse}
    (hrun : (withSession parse grpc headers k).run env [] = (calls, .ok response)) :
    ∃ currentUser past, Names grpc env headers currentUser ∧
      (k (toCurrentUserResponse currentUser)).run env past = (calls, .ok response) := by
  cases hmetadata : createSessionRequestMetadata grpc (headers "cookie".toList) with
  | none =>
    rw [withSession, SessionAuthGuard.canActivate, AuthService.currentUser, hmetadata] at hrun
    cases hrun
  | some metadata =>
    cases hnames : env [] (.currentUser metadata) with
    | error e =>
      rw [withSession, SessionAuthGuard.canActivate, AuthService.currentUser, hmetadata] at hrun
      change Program.run env [⟨.currentUser metadata, env [] (.currentUser metadata)⟩] _ = _ at hrun
      rw [hnames] at hrun
      cases hrun
    | ok currentUser =>
      rw [run_withSession hmetadata hnames] at hrun
      exact ⟨currentUser, _, ⟨metadata, hmetadata, hnames⟩, hrun⟩

/-- The calls of a request are answered by the environment. -/
theorem answered_serve (validator : Validator) (accepts : Text → Bool) (request : HttpRequest) :
    Program.Answered env (serve parse grpc validator accepts env request).1 :=
  Program.answered_nil.run (handler parse grpc validator accepts request)

/-- A response is the one that the handler returns, or it is one with errors. -/
theorem run_or_errors_of_serve {validator : Validator} {accepts : Text → Bool}
    {request : HttpRequest} {calls : List (Exchange (Request M) Reply Thrown)}
    {response : HttpResponse}
    (hserve : serve parse grpc validator accepts env request = (calls, some response)) :
    (handler parse grpc validator accepts request).run env [] = (calls, .ok response) ∨
      response.status ∈ errorStatuses ∧ ∃ errors, response.body = .errors errors := by
  have hend := ((triple_handler parse grpc validator accepts request).run env).2
  obtain ⟨hcalls, hresponse⟩ := Prod.mk.inj hserve
  cases hresult : ((handler parse grpc validator accepts request).run env []).2 with
  | ok response' =>
    simp only [hresult, respond] at hresponse
    obtain rfl := Option.some.inj hresponse
    exact Or.inl (Prod.ext hcalls hresult)
  | error e =>
    rw [hresult] at hend
    simp only [hresult, respond, Option.map_eq_some_iff] at hresponse
    obtain ⟨⟨status, errors⟩, hfilter, rfl⟩ := hresponse
    obtain ⟨body, -, heq⟩ := Option.map_eq_some_iff.mp hfilter
    refine Or.inr ⟨?_, errors, rfl⟩
    show status ∈ errorStatuses
    rw [← (Prod.mk.inj heq).1]
    exact hend.2.contracted.status

/-- A response with another status than those of errors is the one that the handler returns. -/
theorem run_of_serve {validator : Validator} {accepts : Text → Bool} {request : HttpRequest}
    {calls : List (Exchange (Request M) Reply Thrown)} {response : HttpResponse}
    (hserve : serve parse grpc validator accepts env request = (calls, some response))
    (hstatus : response.status ∉ errorStatuses) :
    (handler parse grpc validator accepts request).run env [] = (calls, .ok response) :=
  (run_or_errors_of_serve hserve).resolve_right fun h => hstatus h.1

end Runs

end Integration
