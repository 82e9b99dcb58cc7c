import PolyglotTicketing.Gateway.SessionMetadata
import PolyglotTicketing.Identity.SessionCookie

/-!
# The way of the session cookie

Identity reads the token off the headers of Better Auth, the client sends it back in the header
`Cookie`, and the API gateway hands it on to Identity in gRPC metadata. `session_cookie_crosses`
says that the token arrives as it is and that nothing else does. A header may hold characters that
gRPC metadata may not: a token with one of them does not arrive.
-/

namespace Integration

open JavaScript Gateway

section Crosses

variable {M : Type} (grpc : Grpc M)

/-- The name of the cookie goes through gRPC metadata. -/
theorem printable_sessionCookie_iff {v : Text} :
    Printable (SESSION_COOKIE_NAME ++ '=' :: v) ↔ Printable v := by
  have hname : Printable (SESSION_COOKIE_NAME ++ ['=']) := by decide +kernel
  constructor
  · exact fun h c hc => h c (List.mem_append_right _ (List.mem_cons_of_mem _ hc))
  · intro h c hc
    rw [List.append_cons, List.mem_append] at hc
    exact hc.elim (hname c) (h c)

/-- What is made of a header depends on the session cookie alone. -/
theorem createSessionRequestMetadata_of_carries {header : CookieHeader} {v : Text}
    (h : header.Carries v) : createSessionRequestMetadata grpc (some header) =
      grpc.set grpc.new "cookie".toList (SESSION_COOKIE_NAME ++ '=' :: v) := by
  rw [createSessionRequestMetadata, getCookieValue_of_carries h]

/-- The token that Identity reads off the headers of Better Auth is the one that was set. A session
cookie of printable characters becomes the only entry of the metadata, one with another character
makes `set` throw. Cookies of other names do not matter: two headers with one session cookie have
the same result, and a header without it leaves the metadata empty. -/
theorem session_cookie_crosses :
    (∀ (v suffix : Text) (front back : List Text) (setCookie : Option Text), ';' ∉ v →
      (∀ c ∈ suffix.head?, c = ';') →
      (∀ header ∈ front, Identity.setCookieName header ≠ Identity.SESSION_COOKIE_NAME) →
        Identity.extractSessionCookieValue
          ⟨some (front ++ (Identity.SESSION_COOKIE_NAME ++ '=' :: v ++ suffix) :: back),
            setCookie⟩ = some v) ∧
    (∀ (header : CookieHeader) (v : Text), header.Carries v → Printable v → ∃ metadata,
      createSessionRequestMetadata grpc (some header) = some metadata ∧
        grpc.entries metadata = [("cookie".toList, SESSION_COOKIE_NAME ++ '=' :: v)]) ∧
    (∀ (header : CookieHeader) (v : Text), header.Carries v → ¬Printable v →
      createSessionRequestMetadata grpc (some header) = none) ∧
    (∀ name value piece : Text, IsName name → name ≠ SESSION_COOKIE_NAME →
      Lists name value piece → ¬Mentions SESSION_COOKIE_NAME piece) ∧
    (∀ (header header' : CookieHeader) (v : Text), header.Carries v → header'.Carries v →
      createSessionRequestMetadata grpc (some header) =
        createSessionRequestMetadata grpc (some header')) ∧
    ∀ cookie : Option CookieHeader,
      (∀ header ∈ cookie, ∀ piece ∈ header.pieces, ¬Mentions SESSION_COOKIE_NAME piece) →
        ∃ metadata, createSessionRequestMetadata grpc cookie = some metadata ∧
          grpc.entries metadata = [] := by
  refine ⟨?_, ?_, ?_, ?_, ?_, ?_⟩
  · intro v suffix front back setCookie hv hsuffix hfront
    exact Identity.extractSessionCookieValue_eq hv hsuffix hfront
  · intro header v hcarries hv
    rw [createSessionRequestMetadata_of_carries grpc hcarries]
    exact exists_set_cookie grpc _ (printable_sessionCookie_iff.mpr hv)
  · intro header v hcarries hv
    rw [createSessionRequestMetadata_of_carries grpc hcarries, Option.eq_none_iff_forall_not_mem]
    intro metadata hset
    have hsome := Option.isSome_iff_exists.mpr ⟨metadata, hset⟩
    exact hv (printable_sessionCookie_iff.mp ((grpc.isSome_set plainKey_cookie).mp hsome))
  · intro name value piece hname hne hlists
    exact not_mentions_of_lists isName_sessionCookie sessionCookie_ne_nil hname hne hlists
  · intro header header' v hcarries hcarries'
    rw [createSessionRequestMetadata_of_carries grpc hcarries,
      createSessionRequestMetadata_of_carries grpc hcarries']
  · intro cookie hcookie
    refine ⟨grpc.new, ?_, grpc.entries_new⟩
    cases cookie with
    | none => rfl
    | some header =>
      rw [createSessionRequestMetadata, getCookieValue_of_not_mentions (hcookie header rfl)]

end Crosses

/-- Metadata as a list of entries. -/
def entriesMetadata : Grpc (List (Text × Text)) where
  new := []
  set := fun metadata key value =>
    if Printable value then
      some ((key, value) :: metadata.filter fun entry => decide (entry.1 ≠ key))
    else none
  entries := id
  entries_new := rfl
  entries_set := by
    intro metadata key value metadata' _ hset
    split at hset
    next => rw [← Option.some.inj hset]; rfl
    next => cases hset
  isSome_set := by
    intro metadata key value _
    split
    next hvalue => simp [hvalue]
    next hvalue => simp [hvalue]

/-- A signed token between two other cookies. -/
theorem session_cookie_crosses_signed : ∃ metadata,
    createSessionRequestMetadata entriesMetadata
        (some (.array ["theme=a=b".toList, " better-auth.session_token=k9.Zg== ;x=1".toList])) =
      some metadata ∧
    entriesMetadata.entries metadata =
      [("cookie".toList, SESSION_COOKIE_NAME ++ '=' :: "k9.Zg==".toList)] := by
  have hcrosses := session_cookie_crosses entriesMetadata
  have htrimmed : Trimmed "k9.Zg==".toList := by decide +kernel
  have htheme : IsName "theme".toList := by decide +kernel
  have hne : "theme".toList ≠ SESSION_COOKIE_NAME := by decide +kernel
  have hprintable : Printable "k9.Zg==".toList := by decide +kernel
  refine hcrosses.2.1 _ "k9.Zg==".toList ⟨htrimmed.last, ["theme=a=b".toList],
    " better-auth.session_token=k9.Zg== ".toList, ["x=1".toList], ?_, ?_, ?_⟩ hprintable
  · decide +kernel
  · intro x hx
    obtain rfl := List.mem_singleton.mp hx
    exact hcrosses.2.2.2.1 "theme".toList "a=b".toList _ htheme hne
      ⟨[], [], by decide, by decide, rfl⟩
  · exact ⟨[' '], [' '], by decide, by decide, by decide +kernel⟩

/-- The gateway does not hand on a session cookie with a letter outside of ASCII. -/
theorem not_session_cookie_crosses :
    ¬∀ (header : CookieHeader) (v : Text), ';' ∉ v → Trimmed v → header.Carries v → ∃ metadata,
      createSessionRequestMetadata entriesMetadata (some header) = some metadata ∧
        entriesMetadata.entries metadata =
          [("cookie".toList, SESSION_COOKIE_NAME ++ '=' :: v)] := by
  intro h
  have htrimmed : Trimmed ['é'] := by decide
  have hcarries : (CookieHeader.text "better-auth.session_token=é".toList).Carries ['é'] := by
    refine ⟨htrimmed.last, [], _, [], ?_, by simp, [], [], ?_, ?_, rfl⟩
    · decide +kernel
    · decide
    · decide
  obtain ⟨metadata, hmetadata, -⟩ := h _ ['é'] (by decide) htrimmed hcarries
  have hnone : createSessionRequestMetadata entriesMetadata
      (some (.text "better-auth.session_token=é".toList)) = none := by decide +kernel
  rw [hnone] at hmetadata
  cases hmetadata

end Integration
