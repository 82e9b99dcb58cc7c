import PolyglotTicketing.Gateway.AuthMetadata
import PolyglotTicketing.Integration.SessionCookie

/-!
# The way of the request context

Better Auth checks where a sign-in comes from. `auth_headers_cross` says that the headers for this
check get from the request to Identity, and that nothing else of the request does.
-/

namespace Integration

open JavaScript Gateway

/-- The request context of a sign-in crosses the gateway.

The gateway makes metadata exactly if the values of the forwarded headers are printable ASCII, and
then the metadata has one entry for each of these headers that the request has once, and no other:
no cookie, no credentials. Identity gets these headers with their values, up to white space around
them, if the metadata arrives as it was sent; the transport may set `user-agent` itself. Two
requests that agree on the forwarded headers are the same to it. -/
theorem auth_headers_cross {M : Type} (grpc : GrpcMetadata M) :
    (∀ headers : IncomingHttpHeaders,
      (createAuthRequestMetadata grpc.toGrpc headers).isSome = true ↔
        ∀ name ∈ FORWARDED_AUTH_HEADERS, ∀ value ∈ textOf (headers name), Printable value) ∧
    (∀ (headers : IncomingHttpHeaders) (metadata : M),
      createAuthRequestMetadata grpc.toGrpc headers = some metadata →
        (grpc.entries metadata).Perm (texts? headers FORWARDED_AUTH_HEADERS) ∧
        createAuthRequestHeaders grpc.toGrpc metadata =
          (texts? headers FORWARDED_AUTH_HEADERS).map
            fun entry => (entry.1, Gateway.normalize entry.2)) ∧
    ∀ headers headers' : IncomingHttpHeaders,
      (∀ name ∈ FORWARDED_AUTH_HEADERS, textOf (headers name) = textOf (headers' name)) →
        createAuthRequestMetadata grpc.toGrpc headers =
          createAuthRequestMetadata grpc.toGrpc headers' := by
  refine ⟨fun headers => ?_, fun headers metadata h => ⟨?_, ?_⟩, fun headers headers' hsame => ?_⟩
  · rw [createAuthRequestMetadata, isSome_foldlM_forward grpc legalKey_of_mem_forwarded]
    simp only [texts?, List.mem_filterMap, Option.map_eq_some_iff]
    constructor
    · intro hprintable name hname value hvalue
      exact hprintable (name, value) ⟨name, hname, value, hvalue, rfl⟩
    · rintro hprintable - ⟨name, hname, value, hvalue, rfl⟩
      exact hprintable name hname value hvalue
  · exact perm_entries_createAuthRequestMetadata grpc headers h
  · rw [createAuthRequestHeaders, texts?, List.map_filterMap]
    apply List.filterMap_congr
    intro name hname
    rw [find?_entries grpc headers h hname, Option.map_map, Option.map_map]
    rfl
  · exact foldlM_forward_congr grpc hsame grpc.new

/-- Metadata as a list of entries. -/
def entriesGrpcMetadata : GrpcMetadata (List (Text × Text)) where
  toGrpc := entriesMetadata
  perm_entries_set := by
    intro metadata key value metadata' _ hset
    simp only [entriesMetadata] at hset
    split at hset
    next => rw [← Option.some.inj hset]; rfl
    next => cases hset
  isSome_set_iff := by
    intro metadata key value _
    simp only [entriesMetadata]
    split
    next hvalue => simp [hvalue]
    next hvalue => simp [hvalue]

/-- The headers of a browser, of which its cookies and its credentials stay in the gateway. -/
def browserHeaders : IncomingHttpHeaders := fun name =>
  ([("cookie".toList, CookieHeader.text "a=b".toList),
    ("authorization".toList, .text "Bearer x".toList),
    ("origin".toList, .text "http://localhost:3001".toList),
    ("referer".toList, .array ["x".toList]),
    ("user-agent".toList, .text "k6 ".toList)] : List (Text × CookieHeader)).lookup name

/-- They become two headers in Identity. -/
theorem auth_headers_cross_browser : ∃ metadata,
    createAuthRequestMetadata entriesGrpcMetadata.toGrpc browserHeaders = some metadata ∧
      createAuthRequestHeaders entriesGrpcMetadata.toGrpc metadata =
        [("origin".toList, "http://localhost:3001".toList),
          ("user-agent".toList, "k6".toList)] := by
  have hcrosses := auth_headers_cross entriesGrpcMetadata
  have hsome :
      (createAuthRequestMetadata entriesGrpcMetadata.toGrpc browserHeaders).isSome = true :=
    (hcrosses.1 browserHeaders).mpr (by decide +kernel)
  obtain ⟨metadata, hmetadata⟩ := Option.isSome_iff_exists.mp hsome
  refine ⟨metadata, hmetadata, ?_⟩
  rw [(hcrosses.2.1 browserHeaders metadata hmetadata).2]
  decide +kernel

end Integration
