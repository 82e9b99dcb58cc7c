import PolyglotTicketing.JavaScript.Text

/-!
# The session cookie in Identity

`extractSessionCookieValue` of `apps/identity/src/identity/session-cookie.ts`, which reads the value
of the session cookie off the headers of a response of Better Auth.
-/

namespace Identity

open JavaScript

/-- The name of the session cookie. -/
def SESSION_COOKIE_NAME : Text := "better-auth.session_token".toList

/-- What is used of the headers of a response. -/
structure Headers where
  /-- The result of `getSetCookie()`, if the runtime has the method. -/
  getSetCookie : Option (List Text)
  /-- The result of `get('set-cookie')`. -/
  setCookie : Option Text

def getSetCookieHeaders (headers : Headers) : List Text :=
  headers.getSetCookie.getD <|
    match headers.setCookie with
    | none => []
    | some value => if value.isEmpty then [] else [value]

def extractSessionCookieValue (headers : Headers) : Option Text :=
  let sessionCookie := (getSetCookieHeaders headers).find? fun value =>
    (SESSION_COOKIE_NAME ++ ['=']).isPrefixOf value
  match sessionCookie with
  | none => none
  | some sessionCookie =>
    -- `!sessionCookie` holds of the empty text too, which no header that is found can be.
    if sessionCookie.isEmpty then none
    else
      let cookieValue := sessionCookie.drop (SESSION_COOKIE_NAME.length + 1)
      match cookieValue.idxOf? ';' with
      | none => some cookieValue
      | some separatorIndex => some (cookieValue.take separatorIndex)

/-- The name of the cookie that a header sets. -/
def setCookieName (header : Text) : Text := header.takeWhile fun c => decide (c ≠ '=')

/-- A header that begins like one of the session cookie sets the session cookie. -/
theorem setCookieName_of_begins {header : Text}
    (h : (SESSION_COOKIE_NAME ++ ['=']).isPrefixOf header = true) :
    setCookieName header = SESSION_COOKIE_NAME := by
  obtain ⟨rest, rfl⟩ := List.isPrefixOf_iff_prefix.mp h
  have hname : SESSION_COOKIE_NAME.all (fun c => decide (c ≠ '=')) = true := by decide +kernel
  rw [setCookieName, List.append_assoc, List.takeWhile_append_of_pos (List.all_eq_true.mp hname)]
  simp

/-- The first semicolon ends the value. -/
theorem idxOf?_append_semicolon {v : Text} (hv : ';' ∉ v) (rest : Text) :
    (v ++ ';' :: rest).idxOf? ';' = some v.length := by
  refine List.idxOf?_eq_some_iff.mpr ⟨by simp, by simp, fun j hj heq => ?_⟩
  rw [List.getElem_append_left hj] at heq
  exact hv (heq ▸ List.getElem_mem hj)

/-- The value of the first header that sets the session cookie is read, up to its attributes. -/
theorem extractSessionCookieValue_eq {v suffix : Text} {front back : List Text}
    {setCookie : Option Text} (hv : ';' ∉ v) (hsuffix : ∀ c ∈ suffix.head?, c = ';')
    (hfront : ∀ header ∈ front, setCookieName header ≠ SESSION_COOKIE_NAME) :
    extractSessionCookieValue
        ⟨some (front ++ (SESSION_COOKIE_NAME ++ '=' :: v ++ suffix) :: back), setCookie⟩ =
      some v := by
  -- The headers before it set other cookies, and are skipped.
  have hskip : front.find? (fun value => (SESSION_COOKIE_NAME ++ ['=']).isPrefixOf value) =
      none := by
    refine List.find?_eq_none.mpr fun header hheader hbegins => ?_
    exact hfront header hheader (setCookieName_of_begins hbegins)
  have hbegins : (SESSION_COOKIE_NAME ++ ['=']).isPrefixOf
      (SESSION_COOKIE_NAME ++ '=' :: v ++ suffix) = true :=
    List.isPrefixOf_iff_prefix.mpr ⟨v ++ suffix, by simp⟩
  have hdrop : (SESSION_COOKIE_NAME ++ '=' :: v ++ suffix).drop (SESSION_COOKIE_NAME.length + 1) =
      v ++ suffix := by
    rw [List.append_assoc, List.drop_append]
    simp
  have hnonempty : (SESSION_COOKIE_NAME ++ '=' :: v ++ suffix).isEmpty = false := by simp
  simp only [extractSessionCookieValue, getSetCookieHeaders, Option.getD_some, List.find?_append,
    hskip, Option.none_or, List.find?_cons_of_pos hbegins, hnonempty, hdrop]
  -- Without attributes the value ends with the header, else before the first semicolon.
  cases suffix with
  | nil =>
    have hnone : v.idxOf? ';' = none := List.idxOf?_eq_none_iff.mpr hv
    simp [hnone]
  | cons c suffix =>
    obtain rfl := hsuffix c rfl
    simp [idxOf?_append_semicolon hv]

end Identity
