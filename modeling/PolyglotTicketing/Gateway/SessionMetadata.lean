import PolyglotTicketing.JavaScript.Text

/-!
# The session cookie in the API gateway

`createSessionRequestMetadata` of
`apps/api-gateway/src/identity/metadata/session-request-metadata.ts` makes gRPC metadata of the
header `Cookie` of a request, and `createSessionRequestHeaders` of
`apps/identity/src/identity/headers/session-request-headers.ts` takes the header out of it again.
The class `Metadata` of `@grpc/grpc-js` is a parameter.

`getCookieValue_of_carries` and `getCookieValue_of_not_mentions` say what the gateway finds in a
header, in terms of its parts between the semicolons. A part mentions a cookie if it has its name,
and lists it if it has a value as well.
-/

namespace Gateway

open JavaScript

/-- The name of the session cookie. -/
def SESSION_COOKIE_NAME : Text := "better-auth.session_token".toList

/-- The header `Cookie` of a request, of the type `string | string[]`. -/
inductive CookieHeader where
  | text (value : Text)
  | array (values : List Text)

/-- The characters that a text in gRPC metadata may have: `/^[ -~]*$/`. -/
def Printable (value : Text) : Prop := ∀ c ∈ value, ' ' ≤ c ∧ c ≤ '~'

instance (value : Text) : Decidable (Printable value) := List.decidableBAll _ value

/-- A key of small letters. -/
def PlainKey (key : Text) : Prop := key ≠ [] ∧ ∀ c ∈ key, 'a' ≤ c ∧ c ≤ 'z'

instance (key : Text) : Decidable (PlainKey key) :=
  have : Decidable (∀ c ∈ key, 'a' ≤ c ∧ c ≤ 'z') := List.decidableBAll _ _
  inferInstanceAs (Decidable (_ ∧ _))

/-- The class `Metadata`, with what is documented of it for keys of small letters. -/
structure Grpc (M : Type) where
  /-- `new Metadata()`. -/
  new : M
  /-- The method `set`, which is `none` if it throws. -/
  set : M → Text → Text → Option M
  /-- The entries, one for each key and value. -/
  entries : M → List (Text × Text)
  entries_new : entries new = []
  /-- The value takes the place of all values under the key. -/
  entries_set : ∀ {m key value m'}, PlainKey key → set m key value = some m' →
    (entries m').Perm ((key, value) :: (entries m).filter fun entry => decide (entry.1 ≠ key))
  /-- A text with other characters than printable ones of ASCII makes it throw. -/
  isSome_set : ∀ {m key value}, PlainKey key → ((set m key value).isSome = true ↔ Printable value)

/-- The value of a cookie that has the name. -/
def valueOf (cookieName cookie : Text) : Option Text :=
  match split (trim cookie) '=' with
  | [] => none
  | name :: valueParts => if name = cookieName then some (join valueParts '=') else none

def getCookieValue (cookieHeader : Option CookieHeader) (cookieName : Text) : Option Text :=
  let cookieValue := cookieHeader.map fun
    | .array values => join values ';'
    | .text value => value
  -- Without a header, and with an empty one, `!cookieValue` holds.
  match cookieValue with
  | none => none
  | some cookieValue =>
    if cookieValue.isEmpty then none
    else (split cookieValue ';').findSome? (valueOf cookieName)

def createSessionRequestMetadata {M : Type} (grpc : Grpc M) (cookie : Option CookieHeader) :
    Option M :=
  match getCookieValue cookie SESSION_COOKIE_NAME with
  | none => some grpc.new
  | some sessionCookieValue =>
    grpc.set grpc.new "cookie".toList (SESSION_COOKIE_NAME ++ '=' :: sessionCookieValue)

/-- The header `cookie` that is set, if one is. -/
def createSessionRequestHeaders {M : Type} (grpc : Grpc M) (metadata : M) : Option Text :=
  ((grpc.entries metadata).find? fun entry => decide (entry.1 = "cookie".toList)).map Prod.snd

/-- The parts of a header between the semicolons. -/
def CookieHeader.pieces : CookieHeader → List Text
  | .text value => split value ';'
  | .array values => values.flatMap fun value => split value ';'

/-- A text that can be the name of a cookie. -/
structure IsName (name : Text) : Prop where
  equal : '=' ∉ name
  head : ∀ c ∈ name.head?, isWhiteSpace c = false

instance (name : Text) : Decidable (IsName name) :=
  have : Decidable (∀ c ∈ name.head?, isWhiteSpace c = false) :=
    Option.decidableForallMem _
  decidable_of_iff (_ ∧ _) ⟨fun h => ⟨h.1, h.2⟩, fun h => ⟨h.equal, h.head⟩⟩

/-- A part of a header is the cookie `name=value`, with white space around it. -/
def Lists (name value piece : Text) : Prop :=
  ∃ before after, White before ∧ White after ∧ piece = before ++ (name ++ '=' :: value) ++ after

/-- A part of a header has the name of the cookie, with a value or without one. -/
def Mentions (name piece : Text) : Prop :=
  ∃ before rest after, White before ∧ White after ∧
    piece = before ++ (name ++ rest) ++ after ∧ (rest = [] ∨ ∃ value, rest = '=' :: value)

/-- The session cookie with the value `v` is the first part of the header to have its name. The
value does not end with white space, which would be white space around the cookie. -/
def CookieHeader.Carries (header : CookieHeader) (v : Text) : Prop :=
  (∀ c ∈ v.getLast?, isWhiteSpace c = false) ∧
    ∃ front piece back, header.pieces = front ++ piece :: back ∧
      (∀ x ∈ front, ¬Mentions SESSION_COOKIE_NAME x) ∧ Lists SESSION_COOKIE_NAME v piece

/-- The first part of the header to have the name of the session cookie has nothing else. -/
def CookieHeader.Bare (header : CookieHeader) : Prop :=
  ∃ front before after back, White before ∧ White after ∧
    header.pieces = front ++ (before ++ SESSION_COOKIE_NAME ++ after) :: back ∧
      ∀ x ∈ front, ¬Mentions SESSION_COOKIE_NAME x

section Value

variable {cookieName : Text}

/-- White space has no equals sign. -/
theorem equal_not_mem_of_white {s : Text} (h : White s) : '=' ∉ s := by
  intro hmem
  have hwhite := h '=' hmem
  revert hwhite
  decide +kernel

/-- A cookie of another name does not mention the cookie. -/
theorem not_mentions_of_lists {name value piece : Text} (hcookie : IsName cookieName)
    (hempty : cookieName ≠ []) (hname : IsName name) (hne : name ≠ cookieName)
    (h : Lists name value piece) : ¬Mentions cookieName piece := by
  obtain ⟨before, after, hbefore, hafter, rfl⟩ := h
  rintro ⟨before', rest, after', hbefore', hafter', heq, rfl | ⟨value', rfl⟩⟩
  · -- A piece without a value has no equals sign.
    have hmem : '=' ∈ before ++ (name ++ '=' :: value) ++ after := by simp
    rw [heq] at hmem
    simp only [List.append_nil, List.mem_append] at hmem
    rcases hmem with (hmem | hmem) | hmem
    · exact equal_not_mem_of_white hbefore' hmem
    · exact hcookie.equal hmem
    · exact equal_not_mem_of_white hafter' hmem
  · -- Both names are what comes after the white space and before the first equals sign.
    have hdrop := congrArg (fun s : Text => s.dropWhile isWhiteSpace) heq
    simp only [List.append_assoc, dropWhile_white hbefore, dropWhile_white hbefore'] at hdrop
    rw [dropWhile_of_head (s := name ++ _) ?_, dropWhile_of_head (s := cookieName ++ _) ?_] at hdrop
    · have hfirst := congrArg (fun s => (split s '=').head?) hdrop
      simp only [List.cons_append, split_append_cons hname.equal,
        split_append_cons hcookie.equal, List.head?_cons, Option.some.injEq] at hfirst
      exact hne hfirst
    · rw [List.head?_append_of_ne_nil _ hempty]
      exact hcookie.head
    · cases name with
      | nil => simp [isWhiteSpace]
      | cons c name => exact hname.head

/-- A part that lists the cookie has its value. -/
theorem valueOf_of_lists {v piece : Text} (hcookie : IsName cookieName)
    (hempty : cookieName ≠ []) (hlast : ∀ c ∈ v.getLast?, isWhiteSpace c = false)
    (h : Lists cookieName v piece) :
    valueOf cookieName piece = some v := by
  obtain ⟨before, after, hbefore, hafter, rfl⟩ := h
  -- Beginning with a name and ending with the value, the cookie is what `trim` leaves.
  have htrimmed : Trimmed (cookieName ++ '=' :: v) := by
    constructor
    · rw [List.head?_append_of_ne_nil _ hempty]
      exact hcookie.head
    · rw [List.getLast?_append_of_ne_nil _ (List.cons_ne_nil _ _)]
      cases v with
      | nil => simp [isWhiteSpace]
      | cons c v => exact hlast
  rw [valueOf, trim_padded hbefore hafter htrimmed, split_append_cons hcookie.equal]
  simp [join_split]

/-- A part that is the name alone has an empty value. -/
theorem valueOf_of_bare {before after : Text} (hequal : '=' ∉ cookieName)
    (htrimmed : Trimmed cookieName) (hbefore : White before) (hafter : White after) :
    valueOf cookieName (before ++ cookieName ++ after) = some [] := by
  have hsplit : split cookieName '=' = [cookieName] := List.splitOn_eq_singleton hequal
  rw [valueOf, trim_padded hbefore hafter htrimmed, hsplit]
  simp [join]

/-- Nothing is found in a part that does not mention the cookie. -/
theorem valueOf_of_not_mentions {piece : Text} (h : ¬Mentions cookieName piece) :
    valueOf cookieName piece = none := by
  rw [valueOf]
  split
  next => rfl
  next name valueParts hsplit =>
    rw [if_neg]
    rintro rfl
    -- The part is its first part and the rest, with the white space that `trim` has stripped off.
    obtain ⟨before, after, hbefore, hafter, hpiece⟩ := exists_padding piece
    rw [of_split_eq_cons hsplit] at hpiece
    refine h ⟨before, _, after, hbefore, hafter, hpiece, ?_⟩
    split
    next => exact Or.inl rfl
    next => exact Or.inr ⟨_, rfl⟩

/-- Nothing is found in an empty header. -/
theorem findSome?_valueOf_nil (hname : cookieName ≠ []) :
    (split [] ';').findSome? (valueOf cookieName) = none := by
  simp [split, valueOf, trim, hname.symm]

/-- The gateway looks for the cookie in the parts of the header, one after the other. -/
theorem getCookieValue_eq (hname : cookieName ≠ []) (header : CookieHeader) :
    getCookieValue (some header) cookieName = header.pieces.findSome? (valueOf cookieName) := by
  -- The check of the empty header makes no difference: it has one part, which is empty.
  have hsplit : ∀ value : Text, (if value.isEmpty then none
      else (split value ';').findSome? (valueOf cookieName)) =
        (split value ';').findSome? (valueOf cookieName) := by
    intro value
    cases value with
    | nil => rw [findSome?_valueOf_nil hname]; rfl
    | cons c value => rfl
  cases header with
  | text value => exact hsplit value
  | array values =>
    by_cases hnil : values = []
    · subst hnil
      rfl
    · rw [CookieHeader.pieces, ← split_join hnil]
      exact hsplit (join values ';')

end Value

section Session

variable {M : Type} (grpc : Grpc M) {header : CookieHeader} {v : Text}

theorem isName_sessionCookie : IsName SESSION_COOKIE_NAME := by decide +kernel

theorem sessionCookie_ne_nil : SESSION_COOKIE_NAME ≠ [] := by decide +kernel

/-- The header of the metadata has a name of small letters. -/
theorem plainKey_cookie : PlainKey "cookie".toList := by decide +kernel

/-- The first part to have a value decides. -/
theorem getCookieValue_of_first {front back : List Text} {piece : Text}
    (hpieces : header.pieces = front ++ piece :: back)
    (hfront : ∀ x ∈ front, ¬Mentions SESSION_COOKIE_NAME x)
    (hvalue : valueOf SESSION_COOKIE_NAME piece = some v) :
    getCookieValue (some header) SESSION_COOKIE_NAME = some v := by
  have hskip : front.findSome? (valueOf SESSION_COOKIE_NAME) = none :=
    List.findSome?_eq_none_iff.mpr fun x hx => valueOf_of_not_mentions (hfront x hx)
  rw [getCookieValue_eq sessionCookie_ne_nil, hpieces, List.findSome?_append, hskip,
    Option.none_or, List.findSome?_cons, hvalue]

/-- The session cookie of the header is what the gateway finds. -/
theorem getCookieValue_of_carries (h : header.Carries v) :
    getCookieValue (some header) SESSION_COOKIE_NAME = some v := by
  obtain ⟨hlast, front, piece, back, hpieces, hfront, hlists⟩ := h
  exact getCookieValue_of_first hpieces hfront
    (valueOf_of_lists isName_sessionCookie sessionCookie_ne_nil hlast hlists)

/-- The gateway finds an empty value behind a bare name. -/
theorem getCookieValue_of_bare (h : header.Bare) :
    getCookieValue (some header) SESSION_COOKIE_NAME = some [] := by
  obtain ⟨front, before, after, back, hbefore, hafter, hpieces, hfront⟩ := h
  have htrimmed : Trimmed SESSION_COOKIE_NAME := by decide +kernel
  exact getCookieValue_of_first hpieces hfront
    (valueOf_of_bare isName_sessionCookie.equal htrimmed hbefore hafter)

/-- The gateway finds nothing in a header without the session cookie. -/
theorem getCookieValue_of_not_mentions
    (h : ∀ piece ∈ header.pieces, ¬Mentions SESSION_COOKIE_NAME piece) :
    getCookieValue (some header) SESSION_COOKIE_NAME = none := by
  rw [getCookieValue_eq sessionCookie_ne_nil]
  exact List.findSome?_eq_none_iff.mpr fun piece hpiece => valueOf_of_not_mentions (h piece hpiece)

/-- Metadata with a header `cookie` of these characters can be made. -/
theorem exists_set_cookie (value : Text) (h : Printable value) : ∃ metadata,
    grpc.set grpc.new "cookie".toList value = some metadata ∧
      grpc.entries metadata = [("cookie".toList, value)] := by
  have hset : (grpc.set grpc.new "cookie".toList value).isSome = true :=
    (grpc.isSome_set plainKey_cookie).mpr h
  obtain ⟨metadata, hset⟩ := Option.isSome_iff_exists.mp hset
  refine ⟨metadata, hset, ?_⟩
  have hentries := grpc.entries_set plainKey_cookie hset
  rw [grpc.entries_new] at hentries
  exact List.perm_singleton.mp hentries

end Session

end Gateway
