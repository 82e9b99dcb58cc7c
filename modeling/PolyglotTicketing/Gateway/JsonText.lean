import PolyglotTicketing.Gateway.Value
import PolyglotTicketing.Platform.UuidText
import Mathlib.Data.List.TakeDrop

/-!
# JSON as text

`parse` is `JSON.parse`: the grammar of JSON, read from left to right. Numbers get their value from
a parameter, which rounds. Half of a surrogate pair without the other half is read as U+FFFD, as
no `String` can hold it.

The functions that read recurse on a number, `fuel`, which `readValue_fuel` shows to be large enough
for every text.
-/

namespace Gateway

open Platform

section Read

/-- The white space of JSON. -/
def skipSpace (s : List Char) : List Char :=
  s.dropWhile fun c => c ∈ [' ', '\t', '\n', '\r']

/-- A part of a string: a character, or the code unit of UTF-16 that an escape stands for. -/
inductive CodeUnit where
  | char (c : Char)
  | escaped (n : ℕ)

/-- The rest of a string, up to its closing quotation mark, and what comes after it. -/
def readUnits : List Char → Option (List CodeUnit × List Char)
  | '"' :: s => some ([], s)
  | '\\' :: 'u' :: a :: b :: c :: d :: s =>
    if [a, b, c, d].all isHex then
      (readUnits s).map fun r => (.escaped (hexNumber [a, b, c, d]) :: r.1, r.2)
    else none
  | '\\' :: '"' :: s => (readUnits s).map fun r => (.char '"' :: r.1, r.2)
  | '\\' :: '\\' :: s => (readUnits s).map fun r => (.char '\\' :: r.1, r.2)
  | '\\' :: '/' :: s => (readUnits s).map fun r => (.char '/' :: r.1, r.2)
  | '\\' :: 'b' :: s => (readUnits s).map fun r => (.char '\x08' :: r.1, r.2)
  | '\\' :: 'f' :: s => (readUnits s).map fun r => (.char '\x0c' :: r.1, r.2)
  | '\\' :: 'n' :: s => (readUnits s).map fun r => (.char '\n' :: r.1, r.2)
  | '\\' :: 'r' :: s => (readUnits s).map fun r => (.char '\r' :: r.1, r.2)
  | '\\' :: 't' :: s => (readUnits s).map fun r => (.char '\t' :: r.1, r.2)
  | c :: s =>
    if c = '\\' ∨ c < ' ' then none else (readUnits s).map fun r => (.char c :: r.1, r.2)
  | [] => none

/-- The first half of a surrogate pair. -/
def IsHigh (n : ℕ) : Prop := 0xd800 ≤ n ∧ n ≤ 0xdbff

instance (n : ℕ) : Decidable (IsHigh n) := inferInstanceAs (Decidable (_ ∧ _))

/-- The second half of a surrogate pair. -/
def IsLow (n : ℕ) : Prop := 0xdc00 ≤ n ∧ n ≤ 0xdfff

instance (n : ℕ) : Decidable (IsLow n) := inferInstanceAs (Decidable (_ ∧ _))

/-- The character of a code point. -/
def unescape (n : ℕ) : Char := if n.isValidChar then Char.ofNat n else '\ufffd'

/-- The characters of a string, in which two escapes can be one character. -/
def joinUnits : List CodeUnit → List Char
  | [] => []
  | .char c :: units => c :: joinUnits units
  | .escaped high :: .escaped low :: units =>
    if IsHigh high ∧ IsLow low then
      unescape (0x10000 + (high - 0xd800) * 0x400 + (low - 0xdc00)) :: joinUnits units
    else unescape high :: joinUnits (.escaped low :: units)
  | .escaped n :: units => unescape n :: joinUnits units

/-- A string up to its closing quotation mark, and what comes after it. -/
def readString (s : List Char) : Option (List Char × List Char) :=
  (readUnits s).map fun r => (joinUnits r.1, r.2)

example : readString "\\ud83d\\ude00\\ud83d\"".toList = some (['😀', '\ufffd'], []) := by
  decide +kernel

/-- The digits at the beginning of a text. -/
def readDigits (s : List Char) : List Char × List Char := s.span Char.isDigit

/-- The number that decimal digits stand for. -/
def decimal (digits : List Char) : ℕ :=
  digits.foldl (fun n c => 10 * n + (c.toNat - '0'.toNat)) 0

/-- The fraction of a number, if it has one. -/
def readFraction : List Char → Option (ℚ × List Char)
  | '.' :: s =>
    let digits := readDigits s
    if digits.1 = [] then none
    else some (mkRat (decimal digits.1) (10 ^ digits.1.length), digits.2)
  | s => some (0, s)

/-- Whether a number has a minus sign, and what comes after its sign. -/
def readSign : List Char → Bool × List Char
  | '-' :: s => (true, s)
  | '+' :: s => (false, s)
  | s => (false, s)

/-- A power of ten. -/
def scale (n : ℕ) (negative : Bool) : ℚ := if negative then mkRat 1 (10 ^ n) else (10 ^ n : ℕ)

/-- The exponent of a number, if it has one, as the factor it stands for. -/
def readExponent : List Char → Option (ℚ × List Char)
  | e :: s =>
    if e ∈ ['e', 'E'] then
      let sign := readSign s
      let digits := readDigits sign.2
      if digits.1 = [] then none else some (scale (decimal digits.1) sign.1, digits.2)
    else some (1, e :: s)
  | [] => some (1, [])

/-- A number without its sign. It has no leading zeros. -/
def readUnsigned (s : List Char) : Option (ℚ × List Char) :=
  let digits := readDigits s
  if digits.1 = [] ∨ digits.1.head? = some '0' ∧ digits.1 ≠ ['0'] then none
  else
    (readFraction digits.2).bind fun fraction =>
      (readExponent fraction.2).map fun factor =>
        (((decimal digits.1 : ℚ) + fraction.1) * factor.1, factor.2)

def readNumber : List Char → Option (ℚ × List Char)
  | '-' :: s => (readUnsigned s).map fun r => (-r.1, r.2)
  | s => readUnsigned s

/-- A member takes the place of one of the same name. -/
def setMember (members : List (String × Json)) (name : String) (value : Json) :
    List (String × Json) :=
  if members.any fun member => member.1 = name then
    members.map fun member => if member.1 = name then (name, value) else member
  else members ++ [(name, value)]

/-- What a text begins with, which decides what kind of value it is. -/
inductive Start where
  | null (s : List Char)
  | boolean (b : Bool) (s : List Char)
  | string (s : List Char)
  | array (s : List Char)
  | object (s : List Char)
  | number (s : List Char)

def start : List Char → Start
  | 'n' :: 'u' :: 'l' :: 'l' :: s => .null s
  | 't' :: 'r' :: 'u' :: 'e' :: s => .boolean true s
  | 'f' :: 'a' :: 'l' :: 's' :: 'e' :: s => .boolean false s
  | '"' :: s => .string s
  | '[' :: s => .array s
  | '{' :: s => .object s
  | s => .number s

/-- What comes after an element or a member. -/
inductive Next where
  | comma (s : List Char)
  | close (s : List Char)
  | other

def next (bracket : Char) (s : List Char) : Next :=
  match skipSpace s with
  | c :: s => if c = ',' then .comma s else if c = bracket then .close s else .other
  | [] => .other

/-- The text after a character that has to come next. -/
def expect (c : Char) (s : List Char) : Option (List Char) :=
  match skipSpace s with
  | d :: s => if d = c then some s else none
  | [] => none

variable (round : ℚ → Number)

mutual

/-- A value, and what comes after it. -/
def readValue : ℕ → List Char → Option (Json × List Char)
  | 0, _ => none
  | fuel + 1, s =>
    match start (skipSpace s) with
    | .null s => some (.null, s)
    | .boolean b s => some (.boolean b, s)
    | .string s => (readString s).map fun r => (.string (String.ofList r.1), r.2)
    | .array s =>
      match next ']' s with
      | .close s => some (.array [], s)
      | _ => (readElements fuel s).map fun r => (.array r.1, r.2)
    | .object s =>
      match next '}' s with
      | .close s => some (.object [], s)
      | _ => (readMembers fuel [] s).map fun r => (.object r.1, r.2)
    | .number s => (readNumber s).map fun r => (.number (round r.1), r.2)

/-- The elements of an array, up to its closing bracket. -/
def readElements : ℕ → List Char → Option (List Json × List Char)
  | 0, _ => none
  | fuel + 1, s =>
    (readValue fuel s).bind fun r =>
      match next ']' r.2 with
      | .comma s => (readElements fuel s).map fun r' => (r.1 :: r'.1, r'.2)
      | .close s => some ([r.1], s)
      | .other => none

/-- The members of an object, up to its closing brace, after those that have been read. -/
def readMembers : ℕ → List (String × Json) → List Char → Option (List (String × Json) × List Char)
  | 0, _, _ => none
  | fuel + 1, members, s =>
    (expect '"' s).bind fun s =>
      (readString s).bind fun name =>
        (expect ':' name.2).bind fun s =>
          (readValue fuel s).bind fun r =>
            let members := setMember members (String.ofList name.1) r.1
            match next '}' r.2 with
            | .comma s => readMembers fuel members s
            | .close s => some (members, s)
            | .other => none

end

/-- `JSON.parse`, which is `none` where it throws. -/
def parse (text : String) : Option Json :=
  match readValue round (2 * text.toList.length + 2) text.toList with
  | some (value, s) => if skipSpace s = [] then some value else none
  | none => none

end Read

section Progress

variable {s t : List Char}

theorem length_skipSpace_le (s : List Char) : (skipSpace s).length ≤ s.length :=
  (List.dropWhile_sublist _).length_le

/-- A part more than the rest of a string. -/
theorem exists_of_map_cons {u : CodeUnit} {units : List CodeUnit}
    {rest : Option (List CodeUnit × List Char)}
    (h : rest.map (fun r => (u :: r.1, r.2)) = some (units, t)) :
    ∃ units', rest = some (units', t) := by
  obtain ⟨⟨units', t'⟩, hrest, heq⟩ := Option.map_eq_some_iff.mp h
  obtain ⟨-, rfl⟩ := Prod.mk.inj heq
  exact ⟨units', hrest⟩

theorem length_readUnits {units : List CodeUnit} (h : readUnits s = some (units, t)) :
    t.length < s.length := by
  fun_induction readUnits s generalizing units with
  | case1 s =>
    cases h
    exact Nat.lt_succ_self _
  | case3 => cases h
  | case12 => cases h
  | case14 => cases h
  | _ =>
    -- One part of the string is read, in one of the ways to write it.
    rename_i ih
    obtain ⟨units', hrest⟩ := exists_of_map_cons h
    have hlt := ih hrest
    simp only [List.length_cons]
    omega

theorem length_readString {text : List Char} (h : readString s = some (text, t)) :
    t.length < s.length := by
  obtain ⟨⟨units, t'⟩, hunits, heq⟩ := Option.map_eq_some_iff.mp h
  obtain ⟨-, rfl⟩ := Prod.mk.inj heq
  exact length_readUnits hunits

theorem length_readDigits (s : List Char) :
    (readDigits s).1.length + (readDigits s).2.length = s.length := by
  rw [readDigits, List.span_eq_takeWhile_dropWhile, ← List.length_append,
    List.takeWhile_append_dropWhile]

theorem length_readFraction {q : ℚ} (h : readFraction s = some (q, t)) : t.length ≤ s.length := by
  unfold readFraction at h
  split at h
  next s =>
    dsimp only at h
    split at h
    next => cases h
    next =>
      obtain ⟨-, rfl⟩ := Prod.mk.inj (Option.some.inj h)
      have hlength := length_readDigits s
      simp only [List.length_cons]
      omega
  next =>
    obtain ⟨-, rfl⟩ := Prod.mk.inj (Option.some.inj h)
    exact Nat.le_refl _

theorem length_readSign_le (s : List Char) : (readSign s).2.length ≤ s.length := by
  unfold readSign
  split <;> simp

theorem length_readExponent {q : ℚ} (h : readExponent s = some (q, t)) : t.length ≤ s.length := by
  unfold readExponent at h
  split at h
  next e s =>
    split at h
    next =>
      dsimp only at h
      split at h
      next => cases h
      next =>
        obtain ⟨-, rfl⟩ := Prod.mk.inj (Option.some.inj h)
        have hsign := length_readSign_le s
        have hlength := length_readDigits (readSign s).2
        simp only [List.length_cons]
        omega
    next =>
      obtain ⟨-, rfl⟩ := Prod.mk.inj (Option.some.inj h)
      exact Nat.le_refl _
  next =>
    obtain ⟨-, rfl⟩ := Prod.mk.inj (Option.some.inj h)
    exact Nat.le_refl _

theorem length_readUnsigned {q : ℚ} (h : readUnsigned s = some (q, t)) : t.length < s.length := by
  unfold readUnsigned at h
  dsimp only at h
  split at h
  next => cases h
  next hdigits =>
    -- A number has a digit.
    have hpos : 0 < (readDigits s).1.length :=
      List.length_pos_iff.mpr fun hnil => hdigits (Or.inl hnil)
    obtain ⟨⟨fraction, s'⟩, hfraction, h⟩ := Option.bind_eq_some_iff.mp h
    obtain ⟨⟨factor, t'⟩, hfactor, h⟩ := Option.map_eq_some_iff.mp h
    obtain ⟨-, rfl⟩ := Prod.mk.inj h
    have hlength := length_readDigits s
    have hle := length_readFraction hfraction
    have hle' := length_readExponent hfactor
    dsimp only at hle' ⊢
    omega

theorem length_readNumber {q : ℚ} (h : readNumber s = some (q, t)) : t.length < s.length := by
  unfold readNumber at h
  split at h
  next s =>
    obtain ⟨⟨q', t'⟩, hunsigned, h⟩ := Option.map_eq_some_iff.mp h
    obtain ⟨-, rfl⟩ := Prod.mk.inj h
    exact Nat.lt_succ_of_lt (length_readUnsigned hunsigned)
  next => exact length_readUnsigned h

/-- What is left to be read after the beginning of a value. -/
def Start.rest : Start → List Char
  | .null s => s
  | .boolean _ s => s
  | .string s => s
  | .array s => s
  | .object s => s
  | .number s => s

/-- All values but a number begin with a character of their own. -/
theorem start_cases (s : List Char) :
    start s = .number s ∨ (start s).rest.length < s.length := by
  unfold start
  split
  case h_7 => exact Or.inl rfl
  all_goals
    refine Or.inr ?_
    simp only [Start.rest, List.length_cons]
    omega

theorem eq_of_start_number (h : start s = .number t) : t = s := by
  unfold start at h
  split at h
  case h_7 => exact (Start.number.inj h).symm
  all_goals cases h

theorem length_rest_lt (h : ∀ t, start (skipSpace s) ≠ .number t) :
    (start (skipSpace s)).rest.length < s.length :=
  Nat.lt_of_lt_of_le ((start_cases _).resolve_left (h _)) (length_skipSpace_le s)

theorem length_expect {c : Char} (h : expect c s = some t) : t.length < s.length := by
  unfold expect at h
  have hle := length_skipSpace_le s
  split at h
  next d s' hskip =>
    rw [hskip, List.length_cons] at hle
    split at h
    next => exact Option.some.inj h ▸ hle
    next => cases h
  next => cases h

/-- What is left to be read after an element or a member, unless this is an error. -/
def Next.rest? : Next → Option (List Char)
  | .comma s => some s
  | .close s => some s
  | .other => none

theorem length_next {bracket : Char} (h : (next bracket s).rest? = some t) :
    t.length < s.length := by
  unfold next at h
  have hle := length_skipSpace_le s
  split at h
  next d s' hskip =>
    rw [hskip, List.length_cons] at hle
    split_ifs at h
    · exact Option.some.inj h ▸ hle
    · exact Option.some.inj h ▸ hle
    · cases h
  next => cases h

variable (round : ℚ → Number)

/-- The readers leave less to be read. -/
structure Shortens (fuel : ℕ) : Prop where
  value : ∀ {s value t}, readValue round fuel s = some (value, t) → t.length < s.length
  elements : ∀ {s values t}, readElements round fuel s = some (values, t) → t.length < s.length
  members : ∀ {before s members t},
    readMembers round fuel before s = some (members, t) → t.length < s.length

variable {round} {fuel : ℕ}

theorem Shortens.readValue (h : Shortens round fuel) {value : Json}
    (hread : readValue round (fuel + 1) s = some (value, t)) : t.length < s.length := by
  have hrest := length_rest_lt (s := s)
  unfold Gateway.readValue at hread
  split at hread
  next s' hstart =>
    obtain ⟨-, rfl⟩ := Prod.mk.inj (Option.some.inj hread)
    rw [hstart] at hrest
    exact hrest (by simp)
  next b s' hstart =>
    obtain ⟨-, rfl⟩ := Prod.mk.inj (Option.some.inj hread)
    rw [hstart] at hrest
    exact hrest (by simp)
  next s' hstart =>
    obtain ⟨⟨text, t'⟩, htext, hread⟩ := Option.map_eq_some_iff.mp hread
    obtain ⟨-, rfl⟩ := Prod.mk.inj hread
    rw [hstart] at hrest
    exact (length_readString htext).trans (hrest (by simp))
  next s' hstart =>
    rw [hstart] at hrest
    refine Nat.lt_trans ?_ (hrest (by simp))
    split at hread
    next t' hnext =>
      obtain ⟨-, rfl⟩ := Prod.mk.inj (Option.some.inj hread)
      exact length_next (congrArg Next.rest? hnext)
    next =>
      obtain ⟨⟨values, t'⟩, hvalues, hread⟩ := Option.map_eq_some_iff.mp hread
      obtain ⟨-, rfl⟩ := Prod.mk.inj hread
      exact h.elements hvalues
  next s' hstart =>
    rw [hstart] at hrest
    refine Nat.lt_trans ?_ (hrest (by simp))
    split at hread
    next t' hnext =>
      obtain ⟨-, rfl⟩ := Prod.mk.inj (Option.some.inj hread)
      exact length_next (congrArg Next.rest? hnext)
    next =>
      obtain ⟨⟨members, t'⟩, hmembers, hread⟩ := Option.map_eq_some_iff.mp hread
      obtain ⟨-, rfl⟩ := Prod.mk.inj hread
      exact h.members hmembers
  next s' hstart =>
    obtain ⟨⟨q, t'⟩, hnumber, hread⟩ := Option.map_eq_some_iff.mp hread
    obtain ⟨-, rfl⟩ := Prod.mk.inj hread
    rw [eq_of_start_number hstart] at hnumber
    exact Nat.lt_of_lt_of_le (length_readNumber hnumber) (length_skipSpace_le s)

theorem Shortens.readElements (h : Shortens round fuel) {values : List Json}
    (hread : readElements round (fuel + 1) s = some (values, t)) : t.length < s.length := by
  unfold Gateway.readElements at hread
  obtain ⟨⟨value, s'⟩, hvalue, hread⟩ := Option.bind_eq_some_iff.mp hread
  refine Nat.lt_trans ?_ (h.value hvalue)
  dsimp only at hread
  split at hread
  next s'' hnext =>
    obtain ⟨⟨values', t'⟩, hvalues, hread⟩ := Option.map_eq_some_iff.mp hread
    obtain ⟨-, rfl⟩ := Prod.mk.inj hread
    exact (h.elements hvalues).trans (length_next (congrArg Next.rest? hnext))
  next s'' hnext =>
    obtain ⟨-, rfl⟩ := Prod.mk.inj (Option.some.inj hread)
    exact length_next (congrArg Next.rest? hnext)
  next => cases hread

/-- What is read of a member before its value. -/
theorem length_member {name : List Char × List Char} {u v : List Char}
    (hquote : expect '"' s = some u) (hname : readString u = some name)
    (hcolon : expect ':' name.2 = some v) : v.length < s.length :=
  (length_expect hcolon).trans ((length_readString hname).trans (length_expect hquote))

theorem Shortens.readMembers (h : Shortens round fuel) {before members : List (String × Json)}
    (hread : readMembers round (fuel + 1) before s = some (members, t)) :
    t.length < s.length := by
  unfold Gateway.readMembers at hread
  obtain ⟨u, hquote, hread⟩ := Option.bind_eq_some_iff.mp hread
  obtain ⟨name, hname, hread⟩ := Option.bind_eq_some_iff.mp hread
  obtain ⟨v, hcolon, hread⟩ := Option.bind_eq_some_iff.mp hread
  obtain ⟨⟨value, s'⟩, hvalue, hread⟩ := Option.bind_eq_some_iff.mp hread
  refine Nat.lt_trans ?_ ((h.value hvalue).trans (length_member hquote hname hcolon))
  dsimp only at hread
  split at hread
  next s'' hnext => exact (h.members hread).trans (length_next (congrArg Next.rest? hnext))
  next s'' hnext =>
    obtain ⟨-, rfl⟩ := Prod.mk.inj (Option.some.inj hread)
    exact length_next (congrArg Next.rest? hnext)
  next => cases hread

variable (round) in
theorem shortens (fuel : ℕ) : Shortens round fuel := by
  induction fuel with
  | zero => exact ⟨nofun, nofun, nofun⟩
  | succ fuel ih => exact ⟨ih.readValue, ih.readElements, ih.readMembers⟩

end Progress

section Fuel

variable {round : ℚ → Number} {fuel : ℕ} {s : List Char}

/-- With this much fuel, more of it changes nothing. -/
structure Suffices (round : ℚ → Number) (fuel : ℕ) : Prop where
  value : ∀ s, 2 * s.length + 2 ≤ fuel → readValue round (fuel + 1) s = readValue round fuel s
  elements : ∀ s, 2 * s.length + 3 ≤ fuel →
    readElements round (fuel + 1) s = readElements round fuel s
  members : ∀ before s, 2 * s.length + 3 ≤ fuel →
    readMembers round (fuel + 1) before s = readMembers round fuel before s

theorem Suffices.readValue (h : Suffices round fuel) (hfuel : 2 * s.length + 2 ≤ fuel + 1) :
    readValue round (fuel + 1 + 1) s = readValue round (fuel + 1) s := by
  have hrest := length_rest_lt (s := s)
  rw [Gateway.readValue, Gateway.readValue]
  split
  case h_4 s' hstart =>
    rw [hstart] at hrest
    have hlt : s'.length < s.length := hrest (by simp)
    rw [h.elements s' (by omega)]
  case h_5 s' hstart =>
    rw [hstart] at hrest
    have hlt : s'.length < s.length := hrest (by simp)
    rw [h.members [] s' (by omega)]
  all_goals rfl

theorem Suffices.readElements (h : Suffices round fuel) (hfuel : 2 * s.length + 3 ≤ fuel + 1) :
    readElements round (fuel + 1 + 1) s = readElements round (fuel + 1) s := by
  rw [Gateway.readElements, Gateway.readElements, h.value s (by omega)]
  refine Option.bind_congr fun r hr => ?_
  have hlt := (shortens round fuel).value hr
  cases hnext : next ']' r.2 with
  | comma s' =>
    have hlt' := length_next (congrArg Next.rest? hnext)
    show (Gateway.readElements round (fuel + 1) s').map _ = _
    rw [h.elements s' (by omega)]
  | close => rfl
  | other => rfl

theorem Suffices.readMembers (h : Suffices round fuel) (before : List (String × Json))
    (hfuel : 2 * s.length + 3 ≤ fuel + 1) :
    readMembers round (fuel + 1 + 1) before s = readMembers round (fuel + 1) before s := by
  rw [Gateway.readMembers, Gateway.readMembers]
  refine Option.bind_congr fun u hquote => ?_
  refine Option.bind_congr fun name hname => ?_
  refine Option.bind_congr fun v hcolon => ?_
  have hlt := length_member hquote hname hcolon
  rw [h.value v (by omega)]
  refine Option.bind_congr fun r hr => ?_
  have hlt' := (shortens round fuel).value hr
  cases hnext : next '}' r.2 with
  | comma s' =>
    have hlt'' := length_next (congrArg Next.rest? hnext)
    exact h.members _ s' (by omega)
  | close => rfl
  | other => rfl

variable (round) in
theorem suffices_fuel (fuel : ℕ) : Suffices round fuel := by
  induction fuel with
  | zero => exact ⟨by omega, by omega, by omega⟩
  | succ fuel ih =>
    exact ⟨fun _ => ih.readValue, fun _ => ih.readElements, fun before _ => ih.readMembers before⟩

/-- `parse` reads every text to its end or to an error: no text needs more fuel. -/
theorem readValue_fuel {s : List Char} (h : 2 * s.length + 2 ≤ fuel) :
    readValue round fuel s = readValue round (2 * s.length + 2) s := by
  induction h with
  | refl => rfl
  | step h ih => rw [← ih, (suffices_fuel round _).value s h]

end Fuel

end Gateway
