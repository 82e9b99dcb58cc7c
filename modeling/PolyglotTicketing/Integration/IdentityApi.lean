import PolyglotTicketing.Identity.Outcomes
import PolyglotTicketing.Integration.Refusals
import PolyglotTicketing.Integration.SessionCookie
import PolyglotTicketing.Integration.Sessions

/-!
# Identity behind the gateway

The gateway in front of Identity, which is in front of Better Auth. The other services answer as
they like, and so does Better Auth.

* `identity_refusals_fixed`: a client that Identity refuses is told one of a few errors.
* `sessions_authenticated`: the cookie of a sign-in is the one that Better Auth has set, and whoever
  a service is called for is the user whom Better Auth has named for the cookie of the request.
-/

namespace Integration

open Contracts Gateway Interaction JavaScript
open Identity (AuthCall AuthReply BetterAuth Method Protovalidate)

section Answers

variable {M : Type}

/-- What a method answers. No method throws anything but a refusal. -/
def answerOf {α : Type} (auth : BetterAuth) (method : Method α) : Except Thrown α :=
  match (method.run auth []).2 with
  | .ok outcome => outcome.mapError Refusal.error
  | .error error => .error (.value error)

/-- The calls that Identity answers. -/
def withIdentity (protovalidate : Protovalidate) (grpc : Grpc M)
    (auth : List (Exchange (Request M) Reply Thrown) → BetterAuth)
    (env : Environment (Request M) Reply Thrown) : Environment (Request M) Reply Thrown :=
  fun past r =>
    match r with
    | .signUp dto => answerOf (auth past) (Identity.IdentityService.signUp protovalidate dto)
    | .signIn dto metadata =>
      answerOf (auth past) (Identity.IdentityService.signIn protovalidate grpc dto metadata)
    | .signOut metadata => answerOf (auth past) (Identity.IdentityService.signOut grpc metadata)
    | .currentUser metadata =>
      answerOf (auth past) (Identity.IdentityService.currentUser grpc metadata)
    | .verifyEmail dto => answerOf (auth past) (Identity.IdentityService.verifyEmail dto)
    | r => env past r

/-- The errors that a client can be told of a call of Identity. -/
def told : Request M → Option Identity.Allowed
  | .signUp _ =>
    some [(.invalidArgument, Identity.violationErrors), (.alreadyExists, Identity.conflictErrors)]
  | .signIn _ _ =>
    some [(.invalidArgument, Identity.violationErrors),
      (.unauthenticated,
        [Identity.createEmailNotVerifiedError, Identity.createInvalidCredentialsError])]
  | .signOut _ => some []
  | .currentUser _ => some [(.unauthenticated, [Identity.createCurrentUserUnauthenticatedError])]
  | .verifyEmail _ => some [(.unauthenticated, [Identity.invalidVerificationTokenError])]
  | _ => none

theorem refuses_of_ends {α : Type} {allowed : Identity.Allowed} {auth : BetterAuth}
    {method : Method α} (h : Identity.Ends allowed (method.run auth []).2) {thrown : Thrown}
    (hthrown : answerOf auth method = .error thrown) :
    ∃ r : Refusal, thrown = r.error ∧ Identity.Refuses allowed r := by
  obtain ⟨outcome, hend, hrefuses⟩ := h
  rw [answerOf, hend] at hthrown
  cases outcome with
  | ok a => cases hthrown
  | error r => exact ⟨r, (Except.error.inj hthrown).symm, hrefuses r rfl⟩

/-- What Identity throws is a refusal for errors that it may tell. -/
theorem withIdentity_refuses {protovalidate : Protovalidate} {grpc : Grpc M}
    {auth : List (Exchange (Request M) Reply Thrown) → BetterAuth}
    {env : Environment (Request M) Reply Thrown} {past : List (Exchange (Request M) Reply Thrown)}
    {r : Request M} {allowed : Identity.Allowed} (htold : told r = some allowed) {thrown : Thrown}
    (hthrown : withIdentity protovalidate grpc auth env past r = .error thrown) :
    ∃ r : Refusal, thrown = r.error ∧ Identity.Refuses allowed r := by
  cases r with
  | signUp dto =>
    obtain rfl := Option.some.inj htold
    exact refuses_of_ends (Identity.ends_signUp protovalidate dto) hthrown
  | signIn dto metadata =>
    obtain rfl := Option.some.inj htold
    exact refuses_of_ends (Identity.ends_signIn protovalidate grpc dto metadata) hthrown
  | signOut metadata =>
    obtain rfl := Option.some.inj htold
    exact refuses_of_ends (Identity.ends_signOut grpc metadata) hthrown
  | currentUser metadata =>
    obtain rfl := Option.some.inj htold
    exact refuses_of_ends (Identity.ends_currentUser grpc metadata) hthrown
  | verifyEmail dto =>
    obtain rfl := Option.some.inj htold
    exact refuses_of_ends (Identity.ends_verifyEmail dto) hthrown
  | _ => cases htold

end Answers

section Sessions

/-- The time of a session comes to the client as it is in the table. -/
theorem toISOString_toTimestamp {time expires : ℤ}
    (h : toISOString (some (.ofNode (Identity.toTimestamp time))) = .ok expires)
    (htime : 0 ≤ time) : expires = time := by
  have hsum : time / 1000 * 1000000000 + time.tmod 1000 * 1000000 = time * 1000000 := by
    rw [Int.tmod_eq_emod_of_nonneg htime]
    omega
  simp only [toISOString, toDate, LoadedTimestamp.ofNode, Identity.toTimestamp,
    Option.bind_eq_bind, Option.bind_some, hsum] at h
  split at h
  next => cases h
  next time' heq =>
    split at heq
    next =>
      rw [← Except.ok.inj h, ← Option.some.inj heq, Int.mul_tdiv_cancel _ (by decide)]
    next => cases heq

variable {M : Type} {parse : String → Option Json} {grpc : Grpc M} {validator : Validator}
  {accepts : Text → Bool} {env : Environment (Request M) Reply Thrown}

/-- A sign-in succeeds only with a reply of Identity, whose cookie it sets. -/
theorem exists_of_signIn {headers : IncomingHttpHeaders} {body : Value}
    {calls : List (Exchange (Request M) Reply Thrown)} {response : HttpResponse}
    (hrun : (handler parse grpc validator accepts ⟨headers, .signIn body⟩).run env [] =
      (calls, .ok response)) :
    ∃ dto metadata reply expires, validator.signIn.validate body = .ok dto ∧
      createAuthRequestMetadata grpc headers = some metadata ∧
      env [] (.signIn dto metadata) = .ok reply ∧
      toISOString reply.sessionExpiresAt = .ok expires ∧
      response.cookie = some ⟨reply.sessionToken, expires⟩ ∧
      response.body =
        .signedIn expires ⟨reply.email, reply.emailVerified, reply.userID, reply.name⟩ := by
  obtain ⟨_, dto, hpipe, hrun⟩ := Program.exists_of_run_bind hrun
  obtain ⟨hvalidate, rfl⟩ := exists_of_pipe hpipe
  obtain ⟨_, reply, hcall, hrun⟩ := Program.exists_of_run_bind hrun
  obtain ⟨_, metadata, hmade, hcall⟩ := Program.exists_of_run_bind (exists_of_guarded hcall)
  cases hmetadata : createAuthRequestMetadata grpc headers with
  | none =>
    rw [hmetadata] at hmade
    cases hmade
  | some metadata' =>
    rw [hmetadata] at hmade
    obtain ⟨rfl, hsame⟩ := Prod.mk.inj hmade
    obtain rfl := Except.ok.inj hsame
    obtain ⟨hreply, rfl⟩ := Program.exists_of_run_perform hcall
    obtain ⟨_, expires, htimes, hrun⟩ := Program.exists_of_run_bind hrun
    rw [Program.run_ofExcept] at htimes
    obtain ⟨rfl, htime⟩ := Prod.mk.inj htimes
    refine ⟨dto, metadata', reply, expires, hvalidate, rfl, hreply, htime, ?_⟩
    split at hrun
    next =>
      obtain rfl := Except.ok.inj (Prod.mk.inj hrun).2
      exact ⟨rfl, rfl⟩
    next => cases hrun

theorem exists_of_answerOf {α : Type} {auth : BetterAuth} {method : Method α} {a : α}
    (h : answerOf auth method = .ok a) : ∃ calls, method.run auth [] = (calls, .ok (.ok a)) := by
  unfold answerOf at h
  split at h
  next outcome hend =>
    cases outcome with
    | ok a' =>
      obtain rfl := Except.ok.inj h
      exact ⟨_, Prod.ext rfl hend⟩
    | error r => cases h
  next => cases h

/-- Identity names the user whom Better Auth names. -/
theorem exists_of_currentUser {auth : BetterAuth} {metadata : M}
    {currentUser : IdentityCurrentUserResponse}
    (h : answerOf auth (Identity.IdentityService.currentUser grpc metadata) = .ok currentUser) :
    ∃ user, auth [] (.getSession (createSessionRequestHeaders grpc metadata)) = .ok (some user) ∧
      user.id = currentUser.userID := by
  obtain ⟨calls, hrun⟩ := exists_of_answerOf h
  rw [Identity.run_currentUser] at hrun
  have hend := Except.ok.inj (Prod.mk.inj hrun).2
  split at hend
  next => cases hend
  next => cases hend
  next user hanswer =>
    obtain rfl := Except.ok.inj hend
    exact ⟨user, hanswer, rfl⟩

/-- The header `cookie` that Identity gives to Better Auth has the session cookie of the request,
with no value if it is a bare name, and nothing else of the request. -/
def SessionHeader (cookie : Option CookieHeader) (header : Option Text) : Prop :=
  (∀ h ∈ cookie, ∀ v, h.Carries v → header = some (SESSION_COOKIE_NAME ++ '=' :: v)) ∧
    (∀ h ∈ cookie, h.Bare → header = some (SESSION_COOKIE_NAME ++ ['='])) ∧
    ((∀ h ∈ cookie, ∀ piece ∈ h.pieces, ¬Mentions SESSION_COOKIE_NAME piece) → header = none)

theorem sessionHeader_of_metadata {cookie : Option CookieHeader} {metadata : M}
    (hmetadata : createSessionRequestMetadata grpc cookie = some metadata) :
    SessionHeader cookie (createSessionRequestHeaders grpc metadata) := by
  -- The metadata has one entry, with what the gateway has found.
  have hfound : ∀ v, getCookieValue cookie SESSION_COOKIE_NAME = some v →
      createSessionRequestHeaders grpc metadata = some (SESSION_COOKIE_NAME ++ '=' :: v) := by
    intro v hv
    rw [createSessionRequestMetadata, hv] at hmetadata
    have hprintable := (grpc.isSome_set plainKey_cookie).mp (Option.isSome_of_eq_some hmetadata)
    obtain ⟨metadata', hset, hentries⟩ := exists_set_cookie grpc _ hprintable
    obtain rfl := Option.some.inj (hset.symm.trans hmetadata)
    simp [createSessionRequestHeaders, hentries]
  refine ⟨?_, ?_, ?_⟩
  · rintro h rfl v hcarries
    exact hfound v (getCookieValue_of_carries hcarries)
  · rintro h rfl hbare
    exact hfound [] (getCookieValue_of_bare hbare)
  · intro hnone
    have hvalue : getCookieValue cookie SESSION_COOKIE_NAME = none := by
      cases cookie with
      | none => rfl
      | some header => exact getCookieValue_of_not_mentions (hnone header rfl)
    rw [createSessionRequestMetadata, hvalue] at hmetadata
    obtain rfl := Option.some.inj hmetadata
    simp [createSessionRequestHeaders, grpc.entries_new]

end Sessions

section Api

variable {M : Type} (round : ℚ → Number) (grpc : Grpc M) (validator : Validator)
  (accepts : Text → Bool) (protovalidate : Protovalidate)
  (auth : List (Exchange (Request M) Reply Thrown) → BetterAuth)
  (env : Environment (Request M) Reply Thrown)

/-- Whatever Better Auth returns or throws, a call of Identity that does not succeed decides the
response to the request. It is the one for a failure of the service, or one with errors of the few
that `told` has for the call: nothing else that Better Auth has said is in it. -/
theorem identity_refusals_fixed (request : HttpRequest) :
    ∃ calls response,
      serve (parse round) grpc validator accepts (withIdentity protovalidate grpc auth env)
        request = (calls, some response) ∧
      ∀ x ∈ calls, ∀ allowed, told x.request = some allowed →
        (∃ reply, x.answer = .ok reply) ∨ response = refused .internal [] ∨
          ∃ code items, (code, items) ∈ allowed ∧ ∃ errors, errors ≠ [] ∧ errors ⊆ items ∧
            response = refused code errors := by
  obtain ⟨calls, response, hserve⟩ := exists_response (parse round) grpc validator accepts
    (withIdentity protovalidate grpc auth env) request
  refine ⟨calls, response, hserve, fun x hx allowed htold => ?_⟩
  -- The answer is the one of the environment.
  obtain ⟨front, back, rfl⟩ := List.append_of_mem hx
  have hanswer : x.answer = withIdentity protovalidate grpc auth env front x.request :=
    answered_serve validator accepts request front x back (congrArg Prod.fst hserve)
  cases hthrown : x.answer with
  | ok reply => exact Or.inl ⟨reply, rfl⟩
  | error thrown =>
    obtain ⟨r, rfl, code, errors, hne, rfl, hrefuses⟩ :=
      withIdentity_refuses htold (hanswer.symm.trans hthrown)
    have hresponse := response_of_StructuredGrpcError hserve hx hthrown hne
    rcases hrefuses with rfl | ⟨items, hallowed, hitems⟩
    · exact Or.inr (Or.inl hresponse)
    · exact Or.inr (Or.inr ⟨code, items, hallowed, errors, hne, hitems, hresponse⟩)

/-- A sign-in that succeeds sets the first session cookie of Better Auth, with the time at which its
table of sessions lets the session end, and shows the user whom Better Auth has signed in. From a
request, Better Auth is shown the session cookie and no other, and a service is called for a user
only if Better Auth has named this user for that cookie. -/
theorem sessions_authenticated :
    (∀ headers body, ∃ calls response,
      serve (parse round) grpc validator accepts (withIdentity protovalidate grpc auth env)
        ⟨headers, .signIn body⟩ = (calls, some response) ∧
      (response.status = .finite 201 →
        ∃ dto authHeaders signInResult sessionCookieValue sessionExpiresAt expires,
          validator.signIn.validate body = .ok dto ∧
          auth [] [] (.signInEmail dto authHeaders) = .ok signInResult ∧
          Identity.extractSessionCookieValue signInResult.headers = some sessionCookieValue ∧
          auth [] [⟨.signInEmail dto authHeaders, .ok signInResult⟩]
            (.getSessionExpiry signInResult.token signInResult.user.id) =
              .ok (some sessionExpiresAt) ∧
          response.cookie = some ⟨sessionCookieValue, expires⟩ ∧
          (0 ≤ sessionExpiresAt → expires = sessionExpiresAt) ∧
          response.body = .signedIn expires ⟨signInResult.user.email,
            signInResult.user.emailVerified, signInResult.user.id, signInResult.user.name⟩)) ∧
    ∀ request front x back,
      (serve (parse round) grpc validator accepts (withIdentity protovalidate grpc auth env)
        request).1 = front ++ x :: back →
      ∀ userID, x.request.userID? = some userID → ∃ header user,
        SessionHeader (request.headers "cookie".toList) header ∧
          auth [] [] (.getSession header) = .ok (some user) ∧ user.id = userID := by
  constructor
  · intro headers body
    obtain ⟨calls, response, hserve⟩ := exists_response (parse round) grpc validator accepts
      (withIdentity protovalidate grpc auth env) ⟨headers, .signIn body⟩
    refine ⟨calls, response, hserve, fun hstatus => ?_⟩
    have hsuccess : response.status ∉ errorStatuses := by
      rw [hstatus]
      simp [errorStatuses]
    obtain ⟨dto, metadata, reply, expires, hvalidate, -, hreply, htime, hcookie, hbody⟩ :=
      exists_of_signIn (run_of_serve hserve hsuccess)
    obtain ⟨calls', hrun⟩ := exists_of_answerOf hreply
    obtain ⟨signInResult, sessionCookieValue, sessionExpiresAt, hsignIn, hvalue, -, hexpiry, rfl⟩ :=
      Identity.exists_of_signIn protovalidate grpc hrun
    exact ⟨dto, _, signInResult, sessionCookieValue, sessionExpiresAt, expires, hvalidate, hsignIn,
      hvalue, hexpiry, hcookie, toISOString_toTimestamp htime, hbody⟩
  · intro request front x back hcalls userID huser
    have htriple := triple_handler (parse round) grpc validator accepts request
    have hpermitted := htriple.call (withIdentity protovalidate grpc auth env) hcalls
      (Nat.zero_le _)
    obtain ⟨metadata, currentUser, hmetadata, rfl, rfl⟩ := hpermitted.user userID huser
    -- The first call is answered by Identity, and the answer is that of Better Auth.
    have hnames : answerOf (auth []) (Identity.IdentityService.currentUser grpc metadata) =
        .ok currentUser := (answered_serve validator accepts request [] _ (x :: back) hcalls).symm
    obtain ⟨user, hsession, hid⟩ := exists_of_currentUser hnames
    exact ⟨_, user, sessionHeader_of_metadata hmetadata, hsession, hid⟩

end Api

end Integration
