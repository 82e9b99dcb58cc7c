import PolyglotTicketing.Gateway.SessionMetadata

/-!
# The request context of a sign-in

`createAuthRequestMetadata` of
`apps/api-gateway/src/identity/metadata/auth-request-metadata.ts` copies some headers of a request
into gRPC metadata, and `createAuthRequestHeaders` of
`apps/identity/src/identity/headers/signin-request-headers.ts` takes them out of it again. The loop
of the former adds one entry for each header that it hands on (`perm_entries_foldlM_forward`), as
long as their values may go into metadata (`isSome_foldlM_forward`).
-/

namespace Gateway

open JavaScript

/-- The headers of a request, by their names in small letters. -/
abbrev IncomingHttpHeaders := Text → Option CookieHeader

/-- The headers that are handed on, which Identity lists a second time. -/
def FORWARDED_AUTH_HEADERS : List Text :=
  ["origin".toList, "referer".toList, "sec-fetch-dest".toList, "sec-fetch-mode".toList,
    "sec-fetch-site".toList, "user-agent".toList]

/-- A key of gRPC metadata for values that are texts: `/^[:0-9a-z_.-]+$/`, without the ending `-bin`
of the keys for binary values. -/
def LegalKey (key : Text) : Prop :=
  key ≠ [] ∧ (∀ c ∈ key, 'a' ≤ c ∧ c ≤ 'z' ∨ '0' ≤ c ∧ c ≤ '9' ∨ c ∈ [':', '_', '.', '-']) ∧
    ¬"-bin".toList <:+ key

instance (key : Text) : Decidable (LegalKey key) :=
  have : Decidable (∀ c ∈ key, 'a' ≤ c ∧ c ≤ 'z' ∨ '0' ≤ c ∧ c ≤ '9' ∨
      c ∈ [':', '_', '.', '-']) := List.decidableBAll _ _
  inferInstanceAs (Decidable (_ ∧ _ ∧ _))

/-- The class `Metadata`, with what is documented of it for all keys of texts. -/
structure GrpcMetadata (M : Type) extends Grpc M where
  perm_entries_set : ∀ {m key value m'}, LegalKey key → set m key value = some m' →
    (entries m').Perm ((key, value) :: (entries m).filter fun entry => decide (entry.1 ≠ key))
  isSome_set_iff : ∀ {m key value}, LegalKey key →
    ((set m key value).isSome = true ↔ Printable value)

/-- A header that a request has once: `typeof value === 'string'`. -/
def textOf : Option CookieHeader → Option Text
  | some (.text value) => some value
  | _ => none

/-- The white space that `Headers` strips off a value. -/
def isHttpWhiteSpace (c : Char) : Bool := c ∈ ['\t', '\n', '\r', ' ']

/-- What `Headers` makes of a value. -/
def normalize (value : Text) : Text :=
  (value.dropWhile isHttpWhiteSpace).rdropWhile isHttpWhiteSpace

section Definitions

variable {M : Type} (grpc : Grpc M)

/-- One round of the loop. -/
def forward (headers : IncomingHttpHeaders) (metadata : M) (headerName : Text) : Option M :=
  match textOf (headers headerName) with
  | some value => grpc.set metadata headerName value
  | none => some metadata

def createAuthRequestMetadata (headers : IncomingHttpHeaders) : Option M :=
  FORWARDED_AUTH_HEADERS.foldlM (forward grpc headers) grpc.new

/-- The headers that are set, of which no two have one name. -/
def createAuthRequestHeaders (metadata : M) : List (Text × Text) :=
  FORWARDED_AUTH_HEADERS.filterMap fun headerName =>
    ((grpc.entries metadata).find? fun entry => decide (entry.1 = headerName)).map fun entry =>
      (headerName, normalize entry.2)

end Definitions

/-- The headers of these names that a request has once. -/
def texts? (headers : IncomingHttpHeaders) (names : List Text) : List (Text × Text) :=
  names.filterMap fun name => (textOf (headers name)).map fun value => (name, value)

theorem texts?_cons (headers : IncomingHttpHeaders) (name : Text) (names : List Text) :
    texts? headers (name :: names) = match textOf (headers name) with
      | some value => (name, value) :: texts? headers names
      | none => texts? headers names := by
  rw [texts?, List.filterMap_cons]
  cases textOf (headers name) <;> rfl

section Forwarding

variable {M : Type} (grpc : GrpcMetadata M) {headers : IncomingHttpHeaders}

/-- The headers that are handed on have different names, which are keys of texts. -/
theorem nodup_forwarded : FORWARDED_AUTH_HEADERS.Nodup := by decide +kernel

theorem legalKey_of_mem_forwarded : ∀ name ∈ FORWARDED_AUTH_HEADERS, LegalKey name := by
  decide +kernel

/-- The loop ends with metadata exactly if all values may go into it. -/
theorem isSome_foldlM_forward {names : List Text} (hlegal : ∀ name ∈ names, LegalKey name)
    (metadata : M) :
    (names.foldlM (forward grpc.toGrpc headers) metadata).isSome = true ↔
      ∀ entry ∈ texts? headers names, Printable entry.2 := by
  induction names generalizing metadata with
  | nil => simp [texts?]
  | cons name names ih =>
    obtain ⟨hname, hrest⟩ := List.forall_mem_cons.mp hlegal
    rw [List.foldlM_cons, texts?_cons, forward]
    cases textOf (headers name) with
    | none => exact ih hrest metadata
    | some value =>
      rw [List.forall_mem_cons, ← grpc.isSome_set_iff (m := metadata) hname]
      show ((grpc.set metadata name value).bind fun next =>
        names.foldlM (forward grpc.toGrpc headers) next).isSome = true ↔ _
      cases grpc.set metadata name value with
      | none => simp
      | some next => simpa using ih hrest next

/-- The loop adds the headers that it hands on to the entries. -/
theorem perm_entries_foldlM_forward {names : List Text} (hlegal : ∀ name ∈ names, LegalKey name)
    (hnodup : names.Nodup) {metadata metadata' : M}
    (hnew : ∀ entry ∈ grpc.entries metadata, entry.1 ∉ names)
    (h : names.foldlM (forward grpc.toGrpc headers) metadata = some metadata') :
    (grpc.entries metadata').Perm (grpc.entries metadata ++ texts? headers names) := by
  induction names generalizing metadata with
  | nil =>
    obtain rfl := Option.some.inj h
    simp [texts?]
  | cons name names ih =>
    obtain ⟨hname, hrest⟩ := List.forall_mem_cons.mp hlegal
    obtain ⟨hnotin, hnodup⟩ := List.nodup_cons.mp hnodup
    rw [List.foldlM_cons, forward] at h
    rw [texts?_cons]
    cases htext : textOf (headers name) with
    | none =>
      rw [htext] at h
      exact ih hrest hnodup (fun entry he hmem => hnew entry he (List.mem_cons_of_mem _ hmem)) h
    | some value =>
      rw [htext] at h
      obtain ⟨next, hset, hfold⟩ := Option.bind_eq_some_iff.mp h
      -- The key is new, so that `set` replaces nothing.
      have hkeep : (grpc.entries metadata).filter (fun entry => decide (entry.1 ≠ name)) =
          grpc.entries metadata := by
        apply List.filter_eq_self.mpr
        intro entry he
        exact decide_eq_true fun heq => hnew entry he (heq ▸ List.mem_cons_self)
      have hentries := grpc.perm_entries_set hname hset
      rw [hkeep] at hentries
      have hnext : ∀ entry ∈ grpc.entries next, entry.1 ∉ names := by
        intro entry he hmem
        rcases List.mem_cons.mp (hentries.mem_iff.mp he) with rfl | hold
        · exact hnotin hmem
        · exact hnew entry hold (List.mem_cons_of_mem _ hmem)
      calc (grpc.entries metadata').Perm (grpc.entries next ++ texts? headers names) :=
            ih hrest hnodup hnext hfold
        _ |>.Perm ((name, value) :: grpc.entries metadata ++ texts? headers names) :=
            hentries.append_right _
        _ |>.Perm (grpc.entries metadata ++ (name, value) :: texts? headers names) :=
            List.perm_middle.symm

/-- The loop looks at no other headers than those with the names. -/
theorem foldlM_forward_congr {headers' : IncomingHttpHeaders} {names : List Text}
    (h : ∀ name ∈ names, textOf (headers name) = textOf (headers' name)) (metadata : M) :
    names.foldlM (forward grpc.toGrpc headers) metadata =
      names.foldlM (forward grpc.toGrpc headers') metadata := by
  induction names generalizing metadata with
  | nil => rfl
  | cons name names ih =>
    obtain ⟨hname, hrest⟩ := List.forall_mem_cons.mp h
    rw [List.foldlM_cons, List.foldlM_cons, forward, forward, hname]
    exact bind_congr fun next => ih hrest next

variable (headers) {metadata : M}

/-- What the gateway hands on. -/
theorem perm_entries_createAuthRequestMetadata
    (h : createAuthRequestMetadata grpc.toGrpc headers = some metadata) :
    (grpc.entries metadata).Perm (texts? headers FORWARDED_AUTH_HEADERS) := by
  have hentries := perm_entries_foldlM_forward grpc legalKey_of_mem_forwarded nodup_forwarded
    (by simp [grpc.entries_new]) h
  rwa [grpc.entries_new, List.nil_append] at hentries

/-- Under the name of a header there is its value, if it is handed on. -/
theorem find?_entries (h : createAuthRequestMetadata grpc.toGrpc headers = some metadata)
    {name : Text} (hname : name ∈ FORWARDED_AUTH_HEADERS) :
    (grpc.entries metadata).find? (fun entry => decide (entry.1 = name)) =
      (textOf (headers name)).map fun value => (name, value) := by
  have hentries := perm_entries_createAuthRequestMetadata grpc headers h
  have hmem : ∀ value, (name, value) ∈ grpc.entries metadata ↔
      textOf (headers name) = some value := by
    intro value
    rw [hentries.mem_iff, texts?, List.mem_filterMap]
    constructor
    · rintro ⟨name', -, heq⟩
      obtain ⟨value', hvalue, heq⟩ := Option.map_eq_some_iff.mp heq
      obtain ⟨rfl, rfl⟩ := Prod.mk.inj heq
      exact hvalue
    · intro hvalue
      exact ⟨name, hname, by rw [hvalue, Option.map_some]⟩
  cases hfind : (grpc.entries metadata).find? (fun entry => decide (entry.1 = name)) with
  | some entry =>
    have hname : entry.1 = name := by simpa using List.find?_some hfind
    subst hname
    rw [(hmem entry.2).mp (List.mem_of_find?_eq_some hfind), Option.map_some]
  | none =>
    cases htext : textOf (headers name) with
    | none => rfl
    | some value =>
      have hnot := List.find?_eq_none.mp hfind _ ((hmem value).mpr htext)
      simp at hnot

end Forwarding

end Gateway
