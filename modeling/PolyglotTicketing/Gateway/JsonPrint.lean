import PolyglotTicketing.Gateway.JsonText
import Mathlib.Data.List.Forall2

/-!
# Writing JSON

Programs write JSON in ways that differ in the characters of a string that they escape. An
`Escaping` is such a way, with the fact that what it writes is read as the character it was, and
`goEscaping` and `jsEscaping` are those of `json.Marshal` and of `JSON.stringify`.

`Reads` says that a text is read as a value whatever comes after it. There is a rule for each kind
of value that the programs write, from which `parse_of_reads` leads to `JSON.parse`.
-/

namespace Gateway

open Platform

section Escapes

/-- A way to write the characters of a string. -/
structure Escaping where
  escape : Char → List Char
  reads : ∀ c s, readString (escape c ++ s) = (readString s).map fun r => (c :: r.1, r.2)

/-- `\\u` and four digits. -/
def unicodeEscape (c : Char) : List Char := '\\' :: 'u' :: hexDigits 4 c.toNat

/-- The escapes that have a letter or a sign of their own. -/
def shortEscape : Char → Option Char
  | '"' => some '"'
  | '\\' => some '\\'
  | '\x08' => some 'b'
  | '\x0c' => some 'f'
  | '\n' => some 'n'
  | '\r' => some 'r'
  | '\t' => some 't'
  | _ => none

/-- A character of a string, where `escaped` are the characters that are written as numbers. -/
def escapeWith (escaped : Char → Bool) (c : Char) : List Char :=
  match shortEscape c with
  | some d => ['\\', d]
  | none => if escaped c then unicodeEscape c else [c]

/-- `json.Marshal` also escapes what is special to HTML and to JavaScript. -/
def goEscaped (c : Char) : Bool :=
  decide (c < ' ') || c ∈ ['<', '>', '&', '\u2028', '\u2029']

def jsEscaped (c : Char) : Bool := decide (c < ' ')

/-- A string that begins with a character. -/
theorem readString_of_char {c : Char} {s s' : List Char}
    (h : readUnits s = (readUnits s').map fun r => (.char c :: r.1, r.2)) :
    readString s = (readString s').map fun r => (c :: r.1, r.2) := by
  rw [readString, readString, h, Option.map_map, Option.map_map]
  rfl

theorem readString_short {c d : Char} (h : shortEscape c = some d) (s : List Char) :
    readString ('\\' :: d :: s) = (readString s).map fun r => (c :: r.1, r.2) := by
  unfold shortEscape at h
  split at h
  case h_8 => cases h
  all_goals
    obtain rfl := Option.some.inj h
    apply readString_of_char
    rw [readUnits]

theorem readString_plain {c : Char} (h : shortEscape c = none) (hc : ¬c < ' ') (s : List Char) :
    readString (c :: s) = (readString s).map fun r => (c :: r.1, r.2) := by
  have hquote : c ≠ '"' := by
    rintro rfl
    simp [shortEscape] at h
  have hslash : c ≠ '\\' := by
    rintro rfl
    simp [shortEscape] at h
  apply readString_of_char
  rw [readUnits]
  · rw [if_neg (by simp [hslash, hc])]
  · simp [hquote]
  all_goals simp [hslash]

theorem unescape_toNat (c : Char) : unescape c.toNat = c := by
  rw [unescape, if_pos (show c.toNat.isValidChar from c.valid), Char.ofNat_toNat]

/-- A character is no half of a surrogate pair. -/
theorem not_isHigh_toNat (c : Char) : ¬IsHigh c.toNat := by
  rintro ⟨hle, hge⟩
  rcases c.valid with hlt | ⟨hlt, -⟩
  · exact absurd (show c.toNat < 0xd800 from hlt) (by omega)
  · exact absurd (show 0xdfff < c.toNat from hlt) (by omega)

theorem joinUnits_toNat (c : Char) (units : List CodeUnit) :
    joinUnits (.escaped c.toNat :: units) = c :: joinUnits units := by
  rcases units with _ | ⟨d | n, units⟩
  · simp [joinUnits, unescape_toNat]
  · simp [joinUnits, unescape_toNat]
  · rw [joinUnits, if_neg fun h => not_isHigh_toNat c h.1, unescape_toNat]

theorem readString_unicode {c : Char} (hc : c.toNat < 16 ^ 4) (s : List Char) :
    readString (unicodeEscape c ++ s) = (readString s).map fun r => (c :: r.1, r.2) := by
  have hlength := length_hexDigits 4 c.toNat
  have hhex : (hexDigits 4 c.toNat).all isHex = true :=
    List.all_eq_true.mpr fun _ => isHex_of_mem_hexDigits
  have hnumber : hexNumber (hexDigits 4 c.toNat) = c.toNat := by
    rw [hexNumber_hexDigits, Nat.mod_eq_of_lt hc]
  rw [unicodeEscape]
  obtain ⟨w, x, y, z, hdigits⟩ := List.length_eq_four.mp hlength
  rw [hdigits] at hhex hnumber ⊢
  show readString ('\\' :: 'u' :: w :: x :: y :: z :: s) = _
  rw [readString, readUnits, if_pos hhex, hnumber, readString, Option.map_map, Option.map_map]
  congr 1
  funext r
  exact congrArg (fun text => (text, r.2)) (joinUnits_toNat c r.1)

theorem readString_escapeWith {escaped : Char → Bool} {c : Char} (hspace : c < ' ' → escaped c)
    (hsmall : escaped c → c.toNat < 16 ^ 4) (s : List Char) :
    readString (escapeWith escaped c ++ s) = (readString s).map fun r => (c :: r.1, r.2) := by
  unfold escapeWith
  split
  next d hshort => exact readString_short hshort s
  next hshort =>
    split
    next hescaped => exact readString_unicode (hsmall hescaped) s
    next hescaped => exact readString_plain hshort (fun hc => hescaped (hspace hc)) s

theorem toNat_lt_of_lt_space {c : Char} (h : c < ' ') : c.toNat < 16 ^ 4 :=
  Nat.lt_trans (show c.toNat < ' '.toNat from h) (by decide)

/-- Strings as `json.Marshal` writes them. -/
def goEscaping : Escaping where
  escape := escapeWith goEscaped
  reads c := readString_escapeWith (fun h => by simp [goEscaped, h]) fun h => by
    simp only [goEscaped, Bool.or_eq_true, decide_eq_true_eq, List.mem_cons, List.not_mem_nil,
      or_false] at h
    obtain h | rfl | rfl | rfl | rfl | rfl := h
    · exact toNat_lt_of_lt_space h
    all_goals decide

/-- Strings as `JSON.stringify` writes them. -/
def jsEscaping : Escaping where
  escape := escapeWith jsEscaped
  reads c := readString_escapeWith (fun h => by simp [jsEscaped, h]) fun h =>
    toNat_lt_of_lt_space (by simpa [jsEscaped] using h)

end Escapes

section Texts

variable (E : Escaping)

/-- A string. -/
def quote (s : String) : List Char := '"' :: s.toList.flatMap E.escape ++ ['"']

/-- The texts with commas between them. -/
def commas : List (List Char) → List Char
  | [] => []
  | [text] => text
  | text :: texts => text ++ ',' :: commas texts

theorem commas_cons_cons (text text' : List Char) (texts : List (List Char)) :
    commas (text :: text' :: texts) = text ++ ',' :: commas (text' :: texts) := rfl

/-- An array, of whose elements these are the texts. -/
def printArray (elements : List (List Char)) : List Char := '[' :: commas elements ++ [']']

/-- A member of an object, of whose value this is the text. -/
def printMember (member : String × List Char) : List Char :=
  quote E member.1 ++ ':' :: member.2

/-- An object, of the values of whose members these are the texts. -/
def printObject (members : List (String × List Char)) : List Char :=
  '{' :: commas (members.map (printMember E)) ++ ['}']

end Texts

section Rules

variable {E : Escaping} {round : ℚ → Number}

theorem readString_quoted (s rest : List Char) :
    readString (s.flatMap E.escape ++ '"' :: rest) = some (s, rest) := by
  induction s with
  | nil => rw [List.flatMap_nil, List.nil_append, readString, readUnits, Option.map_some, joinUnits]
  | cons c s ih => rw [List.flatMap_cons, List.append_assoc, E.reads, ih, Option.map_some]

/-- A text that is read as a value, whatever comes after it. -/
structure Reads (round : ℚ → Number) (text : List Char) (value : Json) : Prop where
  head : ∃ c ∈ ['"', '[', '{'], ∃ s, text = c :: s
  read : ∀ fuel rest, 2 * text.length + 2 ≤ fuel →
    readValue round fuel (text ++ rest) = some (value, rest)

theorem skipSpace_cons {c : Char} (hc : c ∉ [' ', '\t', '\n', '\r']) (s : List Char) :
    skipSpace (c :: s) = c :: s := by
  rw [skipSpace, List.dropWhile_cons_of_neg (by simpa using hc)]

theorem next_comma {bracket : Char} (s : List Char) : next bracket (',' :: s) = .comma s := by
  rw [next, skipSpace_cons (by decide)]
  exact if_pos rfl

theorem next_close {bracket : Char} (hbracket : bracket ∈ [']', '}']) (s : List Char) :
    next bracket (bracket :: s) = .close s := by
  have hskip : bracket ∉ [' ', '\t', '\n', '\r'] := by
    rintro hmem
    simp only [List.mem_cons, List.not_mem_nil, or_false] at hbracket
    obtain rfl | rfl := hbracket <;> simp at hmem
  rw [next, skipSpace_cons hskip]
  simp only [if_true]
  refine if_neg ?_
  rintro rfl
  simp at hbracket

/-- Nothing that begins a value comes after an element or a member. -/
theorem next_of_mem {bracket c : Char} (hbracket : bracket ∈ [']', '}'])
    (hc : c ∈ ['"', '[', '{']) (s : List Char) : next bracket (c :: s) = .other := by
  simp only [List.mem_cons, List.not_mem_nil, or_false] at hbracket hc
  rw [next, skipSpace_cons (by rcases hc with rfl | rfl | rfl <;> decide)]
  dsimp only
  rw [if_neg (by rcases hc with rfl | rfl | rfl <;> decide), if_neg]
  rcases hbracket with rfl | rfl <;> rcases hc with rfl | rfl | rfl <;> decide

theorem expect_cons {c : Char} (hc : c ∈ ['"', ':']) (s : List Char) :
    expect c (c :: s) = some s := by
  simp only [List.mem_cons, List.not_mem_nil, or_false] at hc
  rw [expect, skipSpace_cons (by rcases hc with rfl | rfl <;> decide)]
  exact if_pos rfl

/-- A string, as every program writes it. -/
theorem reads_quote (s : String) : Reads round (quote E s) (.string s) where
  head := ⟨'"', by simp, _, rfl⟩
  read fuel rest hfuel := by
    cases fuel with
    | zero => omega
    | succ fuel =>
      show readValue round (fuel + 1) ('"' :: (s.toList.flatMap E.escape ++ ['"']) ++ rest) = _
      rw [readValue, List.cons_append, skipSpace_cons (by decide), List.append_assoc]
      show (readString (s.toList.flatMap E.escape ++ '"' :: rest)).map _ = _
      rw [readString_quoted, Option.map_some, String.ofList_toList]

theorem readElements_commas {texts : List (List Char)} {values : List Json}
    (h : List.Forall₂ (Reads round) texts values) (hne : texts ≠ []) (fuel : ℕ) (rest : List Char)
    (hfuel : 2 * (commas texts).length + 3 ≤ fuel) :
    readElements round fuel (commas texts ++ ']' :: rest) = some (values, rest) := by
  induction h generalizing fuel with
  | nil => exact absurd rfl hne
  | @cons text value texts values htext htexts ih =>
    cases fuel with
    | zero => omega
    | succ fuel =>
      rw [readElements]
      cases htexts with
      | nil =>
        rw [commas] at hfuel ⊢
        rw [htext.read fuel _ (by omega), Option.bind_some]
        simp only [next_close (by decide : ']' ∈ [']', '}'])]
      | @cons text' value' texts values htext' htexts =>
        rw [commas_cons_cons, List.length_append, List.length_cons] at hfuel
        rw [commas_cons_cons, List.append_assoc, htext.read fuel _ (by omega), Option.bind_some]
        simp only [List.cons_append, next_comma]
        rw [ih (by simp) fuel (by omega), Option.map_some]

/-- An array of texts that are read. -/
theorem reads_array {texts : List (List Char)} {values : List Json}
    (h : List.Forall₂ (Reads round) texts values) :
    Reads round (printArray texts) (.array values) where
  head := ⟨'[', by simp, _, rfl⟩
  read fuel rest hfuel := by
    rw [printArray, List.length_append, List.length_cons, List.length_singleton] at hfuel
    cases fuel with
    | zero => omega
    | succ fuel =>
      have hstart (s : List Char) : start ('[' :: s) = .array s := rfl
      rw [printArray, readValue, List.cons_append, List.cons_append, List.append_assoc,
        List.singleton_append, skipSpace_cons (by decide), hstart]
      cases h with
      | nil =>
        have hclose : next ']' (']' :: rest) = .close rest := next_close (by decide) rest
        simp only [commas, List.nil_append, hclose]
      | @cons text value texts values htext htexts =>
        have hread := readElements_commas (.cons htext htexts) (by simp) fuel rest (by omega)
        obtain ⟨c, hc, s, rfl⟩ := htext.head
        have hother : next ']' (commas ((c :: s) :: texts) ++ ']' :: rest) = .other := by
          cases texts <;> exact next_of_mem (by decide) hc _
        simp only [hother, hread, Option.map_some]

/-- A member that is written is read as the value of its name. -/
def ReadsMember (round : ℚ → Number) (member : String × List Char) (value : String × Json) : Prop :=
  member.1 = value.1 ∧ Reads round member.2 value.2

theorem setMember_of_not_mem {members : List (String × Json)} {name : String}
    (h : name ∉ members.map Prod.fst) (value : Json) :
    setMember members name value = members ++ [(name, value)] := by
  refine if_neg ?_
  simpa using h

/-- A member, up to its value. -/
theorem readMembers_printMember {member : String × List Char} {value : String × Json}
    (h : ReadsMember round member value) {before : List (String × Json)}
    (hname : value.1 ∉ before.map Prod.fst) {fuel : ℕ} {rest : List Char}
    (hfuel : 2 * (printMember E member).length + 2 ≤ fuel) :
    readMembers round (fuel + 1) before (printMember E member ++ rest) =
      match next '}' rest with
      | .comma s => readMembers round fuel (before ++ [value]) s
      | .close s => some (before ++ [value], s)
      | .other => none := by
  obtain ⟨name, text⟩ := member
  obtain ⟨name', json⟩ := value
  obtain ⟨rfl, htext⟩ := h
  rw [printMember, quote, List.length_append, List.length_cons] at hfuel
  rw [readMembers, printMember, quote]
  simp only [List.cons_append, List.append_assoc, List.nil_append]
  rw [expect_cons (by decide), Option.bind_some, readString_quoted, Option.bind_some]
  dsimp only
  rw [expect_cons (by decide), Option.bind_some, htext.read fuel rest (by omega),
    Option.bind_some, String.ofList_toList]
  cases hnext : next '}' rest with
  | comma s => simp only [setMember_of_not_mem hname]
  | close s => simp only [setMember_of_not_mem hname]
  | other => simp only

theorem readMembers_commas {members : List (String × List Char)} {values : List (String × Json)}
    (h : List.Forall₂ (ReadsMember round) members values) (hne : members ≠ [])
    (before : List (String × Json)) (hnodup : ((before ++ values).map Prod.fst).Nodup)
    (fuel : ℕ) (rest : List Char)
    (hfuel : 2 * (commas (members.map (printMember E))).length + 3 ≤ fuel) :
    readMembers round fuel before (commas (members.map (printMember E)) ++ '}' :: rest) =
      some (before ++ values, rest) := by
  induction h generalizing before fuel with
  | nil => exact absurd rfl hne
  | @cons member value members values hmember hmembers ih =>
    cases fuel with
    | zero => omega
    | succ fuel =>
      have hname : value.1 ∉ before.map Prod.fst := by
        intro hmem
        rw [List.map_append, List.nodup_append] at hnodup
        exact hnodup.2.2 _ hmem _ (by simp) rfl
      cases hmembers with
      | nil =>
        rw [List.map_singleton, commas] at hfuel ⊢
        rw [readMembers_printMember hmember hname (by omega), next_close (by decide)]
      | @cons member' value' members values hmember' hmembers =>
        rw [List.map_cons, List.map_cons, commas_cons_cons, ← List.map_cons, List.length_append,
          List.length_cons] at hfuel
        rw [List.map_cons, List.map_cons, commas_cons_cons, ← List.map_cons, List.append_assoc,
          readMembers_printMember hmember hname (by omega), List.cons_append, next_comma]
        dsimp only
        rw [ih (by simp) _ (by simpa using hnodup) fuel (by omega), List.append_assoc,
          List.singleton_append]

/-- An object of members that are read, each of a name of its own. -/
theorem reads_object {members : List (String × List Char)} {values : List (String × Json)}
    (h : List.Forall₂ (ReadsMember round) members values)
    (hnodup : (values.map Prod.fst).Nodup) :
    Reads round (printObject E members) (.object values) where
  head := ⟨'{', by simp, _, rfl⟩
  read fuel rest hfuel := by
    rw [printObject, List.length_append, List.length_cons, List.length_singleton] at hfuel
    cases fuel with
    | zero => omega
    | succ fuel =>
      have hstart (s : List Char) : start ('{' :: s) = .object s := rfl
      rw [printObject, readValue, List.cons_append, List.cons_append, List.append_assoc,
        List.singleton_append, skipSpace_cons (by decide), hstart]
      cases h with
      | nil =>
        have hclose : next '}' ('}' :: rest) = .close rest := next_close (by decide) rest
        simp only [List.map_nil, commas, List.nil_append, hclose]
      | @cons member value members values hmember hmembers =>
        have hread := readMembers_commas (E := E) (.cons hmember hmembers) (by simp) []
          hnodup fuel rest (by omega)
        have hother : next '}' (commas ((member :: members).map (printMember E)) ++ '}' :: rest) =
            .other := by
          cases members <;> exact next_of_mem (by decide) (by decide) _
        simp only [hother, hread, List.nil_append, Option.map_some]

/-- A text that is read as a value is one that `JSON.parse` accepts. -/
theorem parse_of_reads {text : List Char} {value : Json} (h : Reads round text value) :
    parse round (String.ofList text) = some value := by
  have hread := h.read (2 * text.length + 2) [] (Nat.le_refl _)
  rw [List.append_nil] at hread
  rw [parse, String.toList_ofList, hread]
  exact if_pos rfl

end Rules

end Gateway
