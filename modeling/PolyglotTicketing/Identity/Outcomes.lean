import PolyglotTicketing.Identity.Service

/-!
# What comes of a call of Identity

Whatever Better Auth returns or throws, a method of Identity comes to an end (`Ends`), and what it
throws is one of the errors that `Refuses` allows. Nothing else of an error of Better Auth is left
in it.

A sign-in that succeeds has the cookie and the time of the session that Better Auth has made
(`exists_of_signIn`), and the user of a session is the one that Better Auth names for its cookie
(`run_currentUser`).
-/

namespace Identity

open Contracts Gateway Interaction JavaScript

/-- The errors for a violation of the rules of a message. -/
def violationErrors : List ErrorItem :=
  [createInvalidNameError, createInvalidEmailError, createInvalidPasswordError,
    createInvalidArgumentError]

/-- The errors for a sign-up that Better Auth refuses as a conflict. -/
def conflictErrors : List ErrorItem :=
  [createInvalidEmailError, createInvalidPasswordError, createEmailAlreadyExistsError]

/-- The errors that a method may have, by their codes. -/
abbrev Allowed := List (GrpcCode × List ErrorItem)

/-- The service has failed, or the errors are among those that are allowed. -/
def Refuses (allowed : Allowed) (r : Refusal) : Prop :=
  ∃ code errors, errors ≠ [] ∧ r = StructuredGrpcError code errors ∧
    (code = .internal ∨ ∃ items, (code, items) ∈ allowed ∧ errors ⊆ items)

section Refuses

variable {allowed : Allowed}

theorem refuses_internal (error : ErrorItem) :
    Refuses allowed (StructuredGrpcError .internal [error]) :=
  ⟨_, _, List.cons_ne_nil _ _, rfl, Or.inl rfl⟩

theorem refuses_of_mem {code : GrpcCode} {items : List ErrorItem}
    (hallowed : (code, items) ∈ allowed) {error : ErrorItem} (herror : error ∈ items) :
    Refuses allowed (StructuredGrpcError code [error]) :=
  ⟨_, _, List.cons_ne_nil _ _, rfl, Or.inr ⟨items, hallowed, by simpa using herror⟩⟩

theorem mapProtovalidateViolation_mem (field : String) :
    mapProtovalidateViolation field ∈ violationErrors := by
  unfold mapProtovalidateViolation
  split_ifs <;> simp [violationErrors]

/-- The errors of a message that violates its rules. -/
theorem refuses_violations {result : Validated} {errors : List ErrorItem}
    (h : result.toResult = .invalid errors)
    (hallowed : (.invalidArgument, violationErrors) ∈ allowed) :
    Refuses allowed (StructuredGrpcError .invalidArgument errors) := by
  cases result with
  | valid => cases h
  | error => cases h
  | invalid violation violations =>
    obtain rfl := ValidationResult.invalid.inj h
    refine ⟨_, _, by simp, rfl, Or.inr ⟨_, hallowed, ?_⟩⟩
    intro item hitem
    obtain ⟨field, -, rfl⟩ := List.mem_map.mp hitem
    exact mapProtovalidateViolation_mem field

/-- The error of a sign-up that has a status. -/
theorem getErrorItem_mem {error : Value} {statusCode : Number}
    (hstatus : getHttpStatusCode error = some statusCode) :
    getErrorItem error ∈
      if statusCode = .finite 409 then conflictErrors else violationErrors := by
  unfold getErrorItem
  dsimp only
  rw [hstatus]
  by_cases hconflict : statusCode = .finite 409
  · rw [if_pos hconflict]
    split_ifs <;> simp_all [conflictErrors]
  · rw [if_neg hconflict]
    split_ifs <;> simp_all [violationErrors]

/-- An error of a sign-up has the code that belongs to the status of the error of Better Auth. -/
theorem refuses_mapBetterAuthError (error : Value)
    (hviolation : (.invalidArgument, violationErrors) ∈ allowed)
    (hconflict : (.alreadyExists, conflictErrors) ∈ allowed) :
    Refuses allowed (mapBetterAuthError error) := by
  rw [mapBetterAuthError, getGrpcStatusCode]
  cases hstatus : getHttpStatusCode error with
  | none => exact refuses_internal _
  | some statusCode =>
    have hitem := getErrorItem_mem hstatus
    dsimp only
    split_ifs with hequal hclient
    · rw [if_pos hequal] at hitem
      exact refuses_of_mem hconflict hitem
    · rw [if_neg hequal] at hitem
      exact refuses_of_mem hviolation hitem
    · exact refuses_internal _

theorem refuses_mapBetterAuthSignInError (error : Value)
    (hallowed : (.unauthenticated, [createEmailNotVerifiedError, createInvalidCredentialsError]) ∈
      allowed) : Refuses allowed (mapBetterAuthSignInError error) := by
  unfold mapBetterAuthSignInError
  dsimp only
  split_ifs
  · exact refuses_of_mem hallowed (by simp)
  · exact refuses_of_mem hallowed (by simp)
  · exact refuses_internal _

theorem refuses_mapEmailVerificationError (error : Value)
    (hallowed : (.unauthenticated, [invalidVerificationTokenError]) ∈ allowed) :
    Refuses allowed (mapEmailVerificationError error) := by
  unfold mapEmailVerificationError
  dsimp only
  split_ifs
  · exact refuses_of_mem hallowed (by simp)
  · exact refuses_internal _

end Refuses

section Methods

variable {α : Type} {auth : BetterAuth}

/-- What is thrown inside of `guarded` is mapped. -/
theorem run_guarded (map : Value → Refusal) (p : Program AuthCall AuthReply Value α)
    (past : List (Exchange AuthCall AuthReply Value)) :
    (guarded map p).run auth past =
      ((p.run auth past).1, .ok ((p.run auth past).2.mapError map)) := by
  rw [guarded, Program.run_tryCatch, Program.run_bind]
  cases (p.run auth past).2 with
  | ok a => rfl
  | error e => rfl

theorem exists_of_run_guarded {map : Value → Refusal} {p : Program AuthCall AuthReply Value α}
    {calls : List (Exchange AuthCall AuthReply Value)} {a : α}
    (h : (guarded map p).run auth [] = (calls, .ok (.ok a))) : p.run auth [] = (calls, .ok a) := by
  rw [run_guarded] at h
  obtain ⟨rfl, hend⟩ := Prod.mk.inj h
  cases hp : (p.run auth []).2 with
  | ok a' =>
    rw [hp] at hend
    obtain rfl := Except.ok.inj (Except.ok.inj hend)
    exact Prod.ext rfl hp
  | error e =>
    rw [hp] at hend
    cases Except.ok.inj hend

/-- What a method comes to. -/
def Ends (allowed : Allowed) (result : Except Value (Except Refusal α)) : Prop :=
  ∃ outcome, result = .ok outcome ∧ ∀ r, outcome = .error r → Refuses allowed r

theorem ends_guarded {allowed : Allowed} {map : Value → Refusal}
    (hmap : ∀ error, Refuses allowed (map error)) (p : Program AuthCall AuthReply Value α) :
    Ends allowed ((guarded map p).run auth []).2 := by
  rw [run_guarded]
  refine ⟨_, rfl, fun r hr => ?_⟩
  cases hend : (p.run auth []).2 with
  | ok a =>
    rw [hend] at hr
    cases hr
  | error e =>
    rw [hend] at hr
    rw [← Except.error.inj hr]
    exact hmap e

theorem ends_refuse {allowed : Allowed} {code : GrpcCode} {errors : List ErrorItem}
    (h : Refuses allowed (StructuredGrpcError code errors)) :
    Ends allowed ((refuse code errors : Method α).run auth []).2 := by
  refine ⟨_, rfl, fun r hr => ?_⟩
  rw [← Except.error.inj hr]
  exact h

variable {M : Type} (validator : Protovalidate) (grpc : Grpc M)

theorem ends_signUp (request : SignUpDto) :
    Ends [(.invalidArgument, violationErrors), (.alreadyExists, conflictErrors)]
      ((IdentityService.signUp validator request).run auth []).2 := by
  unfold IdentityService.signUp
  split
  next errors hinvalid => exact ends_refuse (refuses_violations hinvalid (by simp))
  next => exact ends_refuse (refuses_internal _)
  next => exact ends_guarded (fun e => refuses_mapBetterAuthError e (by simp) (by simp)) _

theorem ends_signIn (request : SignInDto) (metadata : M) :
    Ends [(.invalidArgument, violationErrors),
        (.unauthenticated, [createEmailNotVerifiedError, createInvalidCredentialsError])]
      ((IdentityService.signIn validator grpc request metadata).run auth []).2 := by
  unfold IdentityService.signIn
  split
  next errors hinvalid => exact ends_refuse (refuses_violations hinvalid (by simp))
  next => exact ends_refuse (refuses_internal _)
  next => exact ends_guarded (fun e => refuses_mapBetterAuthSignInError e (by simp)) _

theorem ends_signOut (metadata : M) :
    Ends [] ((IdentityService.signOut grpc metadata).run auth []).2 :=
  ends_guarded (fun _ => refuses_internal _) _

theorem ends_verifyEmail (request : VerifyEmailDto) :
    Ends [(.unauthenticated, [invalidVerificationTokenError])]
      ((IdentityService.verifyEmail request).run auth []).2 :=
  ends_guarded (fun e => refuses_mapEmailVerificationError e (by simp)) _

/-- The user of a session is the one that Better Auth names for the header `cookie`. -/
theorem run_currentUser (metadata : M) :
    (IdentityService.currentUser grpc metadata).run auth [] =
      ([⟨.getSession (createSessionRequestHeaders grpc metadata),
          auth [] (.getSession (createSessionRequestHeaders grpc metadata))⟩],
        .ok (match auth [] (.getSession (createSessionRequestHeaders grpc metadata)) with
          | .error _ => .error (StructuredGrpcError .internal [createCurrentUserInternalError])
          | .ok none =>
            .error (StructuredGrpcError .unauthenticated [createCurrentUserUnauthenticatedError])
          | .ok (some user) => .ok ⟨user.id, user.name, user.email, user.emailVerified⟩)) := by
  rw [IdentityService.currentUser, Program.run_bind, run_guarded, ask, Program.run_perform]
  cases auth [] (.getSession (createSessionRequestHeaders grpc metadata)) with
  | error e => rfl
  | ok session =>
    cases session with
    | none => rfl
    | some user => rfl

theorem ends_currentUser (metadata : M) :
    Ends [(.unauthenticated, [createCurrentUserUnauthenticatedError])]
      ((IdentityService.currentUser grpc metadata).run auth []).2 := by
  rw [run_currentUser]
  refine ⟨_, rfl, fun r hr => ?_⟩
  split at hr
  next => rw [← Except.error.inj hr]; exact refuses_internal _
  next => rw [← Except.error.inj hr]; exact refuses_of_mem (List.mem_singleton_self _) (by simp)
  next => cases hr

/-- A sign-in succeeds with the first session cookie that Better Auth sets and with the time that
the table of sessions has for it. -/
theorem exists_of_signIn {request : SignInDto} {metadata : M}
    {calls : List (Exchange AuthCall AuthReply Value)} {reply : IdentitySignInResponse}
    (hrun : (IdentityService.signIn validator grpc request metadata).run auth [] =
      (calls, .ok (.ok reply))) :
    ∃ signInResult sessionCookieValue sessionExpiresAt,
      auth [] (.signInEmail request (createAuthRequestHeaders grpc metadata)) =
        .ok signInResult ∧
      extractSessionCookieValue signInResult.headers = some sessionCookieValue ∧
      sessionCookieValue ≠ [] ∧
      auth [⟨.signInEmail request (createAuthRequestHeaders grpc metadata), .ok signInResult⟩]
        (.getSessionExpiry signInResult.token signInResult.user.id) = .ok (some sessionExpiresAt) ∧
      reply =
        { userID := signInResult.user.id
          name := signInResult.user.name
          email := signInResult.user.email
          emailVerified := signInResult.user.emailVerified
          sessionToken := sessionCookieValue
          sessionExpiresAt := some (.ofNode (toTimestamp sessionExpiresAt)) } := by
  unfold IdentityService.signIn at hrun
  split at hrun
  next errors hinvalid => cases hrun
  next => cases hrun
  next =>
    obtain ⟨_, signInResult, hask, hrun⟩ :=
      Program.exists_of_run_bind (exists_of_run_guarded hrun)
    obtain ⟨hsignIn, rfl⟩ := Program.exists_of_run_perform hask
    split at hrun
    next => cases hrun
    next => cases hrun
    next sessionCookieValue hne hcookie =>
      obtain ⟨_, sessionExpiresAt, hask', hrun⟩ := Program.exists_of_run_bind hrun
      obtain ⟨hexpiry, rfl⟩ := Program.exists_of_run_perform hask'
      cases sessionExpiresAt with
      | none => cases hrun
      | some sessionExpiresAt =>
        obtain rfl := Except.ok.inj (Prod.mk.inj hrun).2
        exact ⟨signInResult, sessionCookieValue, sessionExpiresAt, hsignIn, hcookie,
          fun hnil => hne hnil, hexpiry, rfl⟩

end Methods

end Identity
