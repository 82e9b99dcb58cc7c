import Mathlib.Algebra.Group.Nat.Defs
import PolyglotTicketing.Platform.Basic

/-!
# Texts of identifiers

An identifier is a text in requests and events, and a value of type `UUID` in the databases. The
services check texts with `uuid.Parse`, and PostgreSQL reads them by rules of its own.

* `uuidIn`: the value that PostgreSQL reads from a text;
* `uuidParse`: the value that `uuid.Parse` reads from it;
* `uuidText`: the text that both write for a value.

The two readers agree on what both accept, and what `uuidParse` accepts beyond `uuidIn` is exactly
the form with `urn:uuid:` in front and the form between two characters other than braces:
`uuidIn_of_uuidParse` and `uuidIn_eq_none_iff`.
-/

namespace Platform

section Digits

/-- A hexadecimal digit. -/
def isHex (c : Char) : Bool :=
  '0' ≤ c ∧ c ≤ '9' ∨ 'a' ≤ c ∧ c ≤ 'f' ∨ 'A' ≤ c ∧ c ≤ 'F'

/-- The value of a hexadecimal digit. -/
def hexValue (c : Char) : ℕ :=
  if c ≤ '9' then c.toNat - '0'.toNat
  else if c ≤ 'F' then c.toNat - 'A'.toNat + 10
  else c.toNat - 'a'.toNat + 10

/-- The number that digits stand for. -/
def hexNumber (digits : List Char) : ℕ :=
  digits.foldl (fun n c => 16 * n + hexValue c) 0

/-- The last `k` digits of a number. -/
def hexDigits : ℕ → ℕ → List Char
  | 0, _ => []
  | k + 1, n => hexDigits k (n / 16) ++ [(n % 16).digitChar]

/-- A digit is written as a hexadecimal digit of its value. -/
theorem hexValue_digitChar {d : ℕ} (hd : d < 16) :
    isHex d.digitChar = true ∧ hexValue d.digitChar = d := by
  have hall : ∀ d < 16, isHex (Nat.digitChar d) = true ∧ hexValue (Nat.digitChar d) = d := by
    decide
  exact hall d hd

@[simp]
theorem length_hexDigits (k n : ℕ) : (hexDigits k n).length = k := by
  induction k generalizing n with
  | zero => rfl
  | succ k ih => rw [hexDigits, List.length_append, ih, List.length_singleton]

theorem isHex_of_mem_hexDigits {k n : ℕ} {c : Char} (hc : c ∈ hexDigits k n) :
    isHex c = true := by
  induction k generalizing n with
  | zero => simp [hexDigits] at hc
  | succ k ih =>
    rw [hexDigits, List.mem_append, List.mem_singleton] at hc
    rcases hc with hc | rfl
    · exact ih hc
    · exact (hexValue_digitChar (Nat.mod_lt _ (by decide))).1

/-- The digits of a number stand for it, as far as they go. -/
theorem hexNumber_hexDigits (k n : ℕ) : hexNumber (hexDigits k n) = n % 16 ^ k := by
  induction k generalizing n with
  | zero => simp [hexDigits, hexNumber, Nat.mod_one]
  | succ k ih =>
    -- The last digit is the remainder, and the others stand for the quotient.
    have hlast := (hexValue_digitChar (Nat.mod_lt n (by decide : 0 < 16))).2
    rw [hexDigits, hexNumber, List.foldl_append, ← hexNumber, ih, List.foldl_cons, List.foldl_nil,
      hlast, Nat.pow_succ', Nat.mod_mul]
    omega

end Digits

section Read

/-- Read `n` digits. -/
def readHex : ℕ → List Char → Option (List Char × List Char)
  | 0, cs => some ([], cs)
  | _ + 1, [] => none
  | n + 1, c :: cs =>
    if isHex c then (readHex n cs).map fun r => (c :: r.1, r.2) else none

/-- Read a hyphen. -/
def readDash : List Char → Option (List Char)
  | '-' :: cs => some cs
  | _ => none

/-- Read a hyphen if there is one. -/
def skipDash : List Char → List Char
  | '-' :: cs => cs
  | cs => cs

/-- Read `n` groups of four digits, with a hyphen or without one between two groups. -/
def readGroups : ℕ → List Char → Option (List Char × List Char)
  | 0, cs => some ([], cs)
  | n + 1, cs =>
    (readHex 4 cs).bind fun r =>
      (readGroups n (if n = 0 then r.2 else skipDash r.2)).map fun r' => (r.1 ++ r'.1, r'.2)

/-- The value of type `UUID` with given digits. -/
def uuidOfDigits (digits : List Char) : Uuid := BitVec.ofNat 128 (hexNumber digits)

/-- The value of the text of a column of type `UUID`: 32 digits, with a hyphen or without one after
a group of four, and between braces or not. -/
def uuidIn (s : String) : Option Uuid :=
  match s.toList with
  | '{' :: cs =>
    match readGroups 8 cs with
    | some (digits, ['}']) => some (uuidOfDigits digits)
    | _ => none
  | cs =>
    match readGroups 8 cs with
    | some (digits, []) => some (uuidOfDigits digits)
    | _ => none

/-- Read groups of 8, 4, 4, 4 and 12 digits with hyphens between them. -/
def readForm (cs : List Char) : Option (List Char × List Char) :=
  (readHex 8 cs).bind fun a => (readDash a.2).bind fun cs =>
  (readHex 4 cs).bind fun b => (readDash b.2).bind fun cs =>
  (readHex 4 cs).bind fun c => (readDash c.2).bind fun cs =>
  (readHex 4 cs).bind fun d => (readDash d.2).bind fun cs =>
  (readHex 12 cs).map fun e => (a.1 ++ b.1 ++ c.1 ++ d.1 ++ e.1, e.2)

/-- The characters of `urn:uuid:`. -/
def urnStart : List Char := ['u', 'r', 'n', ':', 'u', 'u', 'i', 'd', ':']

/-- `uuid.Parse`, which tells the forms apart by their lengths. It does not look at the two
characters around the form in a text of 38 characters. -/
def uuidParse (s : String) : Option Uuid :=
  let cs := s.toList
  if cs.length = 36 then (readForm cs).map fun r => uuidOfDigits r.1
  else if cs.length = 36 + 9 then
    if cs.take 9 = urnStart then (readForm (cs.drop 9)).map fun r => uuidOfDigits r.1 else none
  else if cs.length = 36 + 2 then (readForm (cs.drop 1)).map fun r => uuidOfDigits r.1
  else if cs.length = 32 then (readHex 32 cs).map fun r => uuidOfDigits r.1
  else none

/-- The text of an identifier: `uuid.NewString()` and `id::text`. -/
def uuidText (u : Uuid) : String :=
  let digits := hexDigits 32 u.toNat
  String.ofList (digits.take 8 ++ '-' :: ((digits.drop 8).take 4 ++ '-' ::
    ((digits.drop 12).take 4 ++ '-' :: ((digits.drop 16).take 4 ++ '-' :: digits.drop 20))))

end Read

section Readers

variable {n m : ℕ} {cs digits rest : List Char}

/-- What is read has been digits. -/
theorem readHex_eq_some_iff :
    readHex n cs = some (digits, rest) ↔
      cs = digits ++ rest ∧ digits.length = n ∧ ∀ c ∈ digits, isHex c = true := by
  induction n generalizing cs digits with
  | zero =>
    rw [readHex, Option.some.injEq, Prod.mk.injEq]
    constructor
    · rintro ⟨rfl, rfl⟩
      exact ⟨rfl, rfl, by simp⟩
    · rintro ⟨rfl, hlength, -⟩
      obtain rfl := List.length_eq_zero_iff.mp hlength
      exact ⟨rfl, rfl⟩
  | succ n ih =>
    cases cs with
    | nil =>
      rw [readHex]
      constructor
      · intro h
        cases h
      · rintro ⟨hnil, hlength, -⟩
        obtain ⟨rfl, -⟩ := List.append_eq_nil_iff.mp hnil.symm
        cases hlength
    | cons c cs =>
      rw [readHex]
      constructor
      · intro h
        split at h
        next hc =>
          obtain ⟨⟨digits', rest'⟩, hread, heq⟩ := Option.map_eq_some_iff.mp h
          obtain ⟨rfl, rfl⟩ := Prod.mk.inj heq
          obtain ⟨rfl, hlength, hall⟩ := ih.mp hread
          refine ⟨rfl, congrArg (· + 1) hlength, ?_⟩
          simpa [hc] using hall
        next => cases h
      · rintro ⟨heq, hlength, hall⟩
        cases digits with
        | nil => cases hlength
        | cons d digits =>
          obtain ⟨rfl, rfl⟩ := List.cons.inj heq
          have hread : readHex n (digits ++ rest) = some (digits, rest) :=
            ih.mpr ⟨rfl, Nat.succ.inj hlength, fun x hx => hall x (by simp [hx])⟩
          rw [if_pos (hall c (by simp)), List.append_eq, hread, Option.map_some]

/-- Digits can be read in two parts. -/
theorem readHex_add (h : readHex (m + n) cs = some (digits, rest)) :
    ∃ first mid last, readHex m cs = some (first, mid) ∧ readHex n mid = some (last, rest) ∧
      digits = first ++ last := by
  obtain ⟨rfl, hlength, hall⟩ := readHex_eq_some_iff.mp h
  -- The first `m` digits are one part, the others the second one.
  refine ⟨digits.take m, digits.drop m ++ rest, digits.drop m, ?_, ?_, ?_⟩
  · refine readHex_eq_some_iff.mpr ⟨?_, by simp [hlength], fun c hc => hall c ?_⟩
    · rw [← List.append_assoc, List.take_append_drop]
    · exact List.mem_of_mem_take hc
  · refine readHex_eq_some_iff.mpr ⟨rfl, by simp [hlength], fun c hc => hall c ?_⟩
    exact List.mem_of_mem_drop hc
  · exact (List.take_append_drop m digits).symm

/-- The first character is a digit where digits can be read. -/
theorem exists_of_readHex (hn : n ≠ 0) {a : List Char × List Char} (h : readHex n cs = some a) :
    ∃ c cs', cs = c :: cs' ∧ isHex c = true := by
  obtain ⟨rfl, hlength, hall⟩ := readHex_eq_some_iff.mp h
  cases hdigits : a.1 with
  | nil => exact absurd (hdigits ▸ hlength).symm hn
  | cons c digits => exact ⟨c, digits ++ a.2, rfl, hall c (by simp [hdigits])⟩

/-- Where a digit is, there is no hyphen. -/
theorem skipDash_of_readHex (hn : n ≠ 0) (h : readHex n cs = some (digits, rest)) :
    skipDash cs = cs := by
  obtain ⟨c, cs, rfl, hc⟩ := exists_of_readHex hn h
  rw [skipDash]
  intro cs heq
  obtain ⟨rfl, -⟩ := List.cons.inj heq
  exact absurd hc (by decide)

/-- The hyphen that is read. -/
theorem eq_cons_of_readDash (h : readDash cs = some rest) : cs = '-' :: rest := by
  unfold readDash at h
  split at h
  next => exact congrArg _ (Option.some.inj h)
  next => cases h

/-- A hyphen that is there is skipped. -/
theorem skipDash_of_readDash (h : readDash cs = some rest) : skipDash cs = rest := by
  rw [eq_cons_of_readDash h, skipDash]

/-- There is a hyphen or there is none. -/
theorem skipDash_cases (cs : List Char) :
    (∃ cs', cs = '-' :: cs' ∧ skipDash cs = cs') ∨ skipDash cs = cs := by
  unfold skipDash
  split
  next cs' => exact Or.inl ⟨cs', rfl, rfl⟩
  next => exact Or.inr rfl

/-- One group is read. -/
theorem readGroups_succ (h : readHex 4 cs = some (digits, rest)) :
    readGroups (n + 1) cs =
      (readGroups n (if n = 0 then rest else skipDash rest)).map
        fun r => (digits ++ r.1, r.2) := by
  rw [readGroups, h, Option.bind_some]

/-- A group is read that has a hyphen after it. -/
theorem readGroups_dash {mid mid' digits' : List Char} (hn : n ≠ 0)
    (h : readHex 4 cs = some (digits, mid)) (hdash : readDash mid = some mid')
    (hrest : readGroups n mid' = some (digits', rest)) :
    readGroups (n + 1) cs = some (digits ++ digits', rest) := by
  rw [readGroups_succ h, if_neg hn, skipDash_of_readDash hdash, hrest, Option.map_some]

/-- Digits without hyphens are groups. -/
theorem readGroups_of_readHex (h : readHex (4 * n) cs = some (digits, rest)) :
    readGroups n cs = some (digits, rest) := by
  induction n generalizing cs digits with
  | zero => exact h
  | succ n ih =>
    rw [Nat.mul_succ, Nat.add_comm] at h
    obtain ⟨first, mid, last, hfirst, hlast, rfl⟩ := readHex_add h
    rw [readGroups_succ hfirst]
    by_cases hn : n = 0
    · rw [if_pos hn, ih hlast, Option.map_some]
    · rw [if_neg hn, skipDash_of_readHex (by omega) hlast, ih hlast, Option.map_some]

/-- The hyphens of the form are among those that PostgreSQL skips. -/
theorem readGroups_of_readForm (h : readForm cs = some (digits, rest)) :
    readGroups 8 cs = some (digits, rest) := by
  rw [readForm] at h
  obtain ⟨⟨a, cs₁⟩, ha, h⟩ := Option.bind_eq_some_iff.mp h
  obtain ⟨cs₂, hdash₁, h⟩ := Option.bind_eq_some_iff.mp h
  obtain ⟨⟨b, cs₃⟩, hb, h⟩ := Option.bind_eq_some_iff.mp h
  obtain ⟨cs₄, hdash₂, h⟩ := Option.bind_eq_some_iff.mp h
  obtain ⟨⟨c, cs₅⟩, hc, h⟩ := Option.bind_eq_some_iff.mp h
  obtain ⟨cs₆, hdash₃, h⟩ := Option.bind_eq_some_iff.mp h
  obtain ⟨⟨d, cs₇⟩, hd, h⟩ := Option.bind_eq_some_iff.mp h
  obtain ⟨cs₈, hdash₄, h⟩ := Option.bind_eq_some_iff.mp h
  obtain ⟨⟨e, cs₉⟩, he, heq⟩ := Option.map_eq_some_iff.mp h
  obtain ⟨rfl, rfl⟩ := Prod.mk.inj heq
  -- From the last group, which is of three groups of four, to the first, which is of two.
  obtain ⟨a₁, mid, a₂, ha₁, ha₂, rfl⟩ := @readHex_add 4 4 _ _ _ ha
  have h₃ : readGroups 3 cs₈ = some (e, cs₉) := readGroups_of_readHex he
  have h₄ : readGroups 4 cs₆ = some (d ++ e, cs₉) := readGroups_dash (by decide) hd hdash₄ h₃
  have h₅ : readGroups 5 cs₄ = some (c ++ (d ++ e), cs₉) :=
    readGroups_dash (by decide) hc hdash₃ h₄
  have h₆ : readGroups 6 cs₂ = some (b ++ (c ++ (d ++ e)), cs₉) :=
    readGroups_dash (by decide) hb hdash₂ h₅
  have h₇ : readGroups 7 mid = some (a₂ ++ (b ++ (c ++ (d ++ e))), cs₉) :=
    readGroups_dash (by decide) ha₂ hdash₁ h₆
  have hskip : skipDash mid = mid := skipDash_of_readHex (by decide) ha₂
  rw [@readGroups_succ 7 _ _ _ ha₁, if_neg (by decide), hskip, h₇, Option.map_some]
  simp

/-- Nine digits before a hyphen are not groups of four. -/
theorem readGroups_nine {a : List Char} (hlength : a.length = 8)
    (hall : ∀ c ∈ a, isHex c = true) (c : Char) (cs : List Char) :
    readGroups 8 (c :: (a ++ '-' :: cs)) = none := by
  match a, hlength with
  | [a₁, a₂, a₃, a₄, a₅, a₆, a₇, a₈], _ =>
    simp only [List.mem_cons, List.not_mem_nil, or_false, forall_eq_or_imp, forall_eq] at hall
    obtain ⟨h₁, h₂, h₃, h₄, h₅, h₆, h₇, h₈⟩ := hall
    have hskip : ∀ (x : Char) (xs : List Char), isHex x = true → skipDash (x :: xs) = x :: xs :=
      fun x xs hx => @skipDash_of_readHex 1 _ [x] xs (by decide) (by simp [readHex, hx])
    have hdash : isHex '-' = false := by decide
    -- Two groups of the nine digits are read, and the third one runs into the hyphen.
    by_cases hc : isHex c = true
    · simp [readGroups, readHex, hc, h₁, h₂, h₃, h₄, h₅, h₆, h₇, h₈, hskip, hdash]
    · simp [readGroups, readHex, hc]

/-- A character in front of the form is read only if it is a digit, and then the third group is
broken off by a hyphen. -/
theorem readGroups_cons_form (h : readForm cs = some (digits, rest)) (c : Char) :
    readGroups 8 (c :: cs) = none := by
  rw [readForm] at h
  obtain ⟨⟨a, cs₁⟩, ha, h⟩ := Option.bind_eq_some_iff.mp h
  obtain ⟨cs₂, hdash, -⟩ := Option.bind_eq_some_iff.mp h
  obtain ⟨rfl, hlength, hall⟩ := readHex_eq_some_iff.mp ha
  rw [show cs₁ = '-' :: cs₂ from eq_cons_of_readDash hdash]
  exact readGroups_nine hlength hall c cs₂

/-- The form has 36 characters. -/
theorem exists_of_readForm (h : readForm cs = some (digits, rest)) :
    ∃ form : List Char, cs = form ++ rest ∧ form.length = 36 := by
  rw [readForm] at h
  obtain ⟨⟨a, cs₁⟩, ha, h⟩ := Option.bind_eq_some_iff.mp h
  obtain ⟨cs₂, hdash₁, h⟩ := Option.bind_eq_some_iff.mp h
  obtain ⟨⟨b, cs₃⟩, hb, h⟩ := Option.bind_eq_some_iff.mp h
  obtain ⟨cs₄, hdash₂, h⟩ := Option.bind_eq_some_iff.mp h
  obtain ⟨⟨c, cs₅⟩, hc, h⟩ := Option.bind_eq_some_iff.mp h
  obtain ⟨cs₆, hdash₃, h⟩ := Option.bind_eq_some_iff.mp h
  obtain ⟨⟨d, cs₇⟩, hd, h⟩ := Option.bind_eq_some_iff.mp h
  obtain ⟨cs₈, hdash₄, h⟩ := Option.bind_eq_some_iff.mp h
  obtain ⟨⟨e, cs₉⟩, he, heq⟩ := Option.map_eq_some_iff.mp h
  obtain ⟨rfl, rfl⟩ := Prod.mk.inj heq
  obtain ⟨rfl, hlength₁, -⟩ := readHex_eq_some_iff.mp ha
  obtain rfl := eq_cons_of_readDash hdash₁
  obtain ⟨rfl, hlength₂, -⟩ := readHex_eq_some_iff.mp hb
  obtain rfl := eq_cons_of_readDash hdash₂
  obtain ⟨rfl, hlength₃, -⟩ := readHex_eq_some_iff.mp hc
  obtain rfl := eq_cons_of_readDash hdash₃
  obtain ⟨rfl, hlength₄, -⟩ := readHex_eq_some_iff.mp hd
  obtain rfl := eq_cons_of_readDash hdash₄
  obtain ⟨rfl, hlength₅, -⟩ := readHex_eq_some_iff.mp he
  refine ⟨a ++ '-' :: (b ++ '-' :: (c ++ '-' :: (d ++ '-' :: e))), by simp, ?_⟩
  simp only [List.length_append, List.length_cons]
  omega

end Readers

section Texts

variable {s : String} {u : Uuid} {cs digits rest : List Char}

/-- A text of groups has no braces. -/
theorem uuidIn_of_readGroups (h : readGroups 8 s.toList = some (digits, [])) :
    uuidIn s = some (uuidOfDigits digits) := by
  have hbrace : ∀ cs, s.toList ≠ '{' :: cs := by
    intro cs hcs
    rw [hcs] at h
    simp [readGroups, readHex, isHex] at h
  rw [uuidIn]
  split
  next cs hcs => exact absurd hcs (hbrace cs)
  next => rw [h]

/-- A text does not start with anything but a digit or a brace. -/
theorem uuidIn_eq_none {c : Char} (hs : s.toList = c :: cs) (hbrace : c ≠ '{')
    (hc : isHex c = false) : uuidIn s = none := by
  simp [uuidIn, hs, hbrace, readGroups, readHex, hc]

/-- A text with a character on either side of the form has to have braces there. -/
theorem uuidIn_of_wrapped {x y : Char} (hs : s.toList = x :: cs)
    (h : readForm cs = some (digits, [y])) :
    uuidIn s = if x = '{' ∧ y = '}' then some (uuidOfDigits digits) else none := by
  rw [uuidIn, hs]
  by_cases hx : x = '{'
  · subst hx
    by_cases hy : y = '}'
    · simp [readGroups_of_readForm h, hy]
    · simp [readGroups_of_readForm h, hy]
  · simp [hx, readGroups_cons_form h]

/-- The text of an identifier has the form. -/
theorem readForm_uuidText (u : Uuid) :
    readForm (uuidText u).toList = some (hexDigits 32 u.toNat, []) := by
  -- Any part of the digits is read as it is.
  have hread : ∀ (n : ℕ) (cs rest : List Char), cs.length = n →
      (∀ c ∈ cs, c ∈ hexDigits 32 u.toNat) → readHex n (cs ++ rest) = some (cs, rest) :=
    fun n cs rest hlength hall =>
      readHex_eq_some_iff.mpr ⟨rfl, hlength, fun c hc => isHex_of_mem_hexDigits (hall c hc)⟩
  have hpart : ∀ (m n : ℕ) (rest : List Char), m + n ≤ 32 →
      readHex n (((hexDigits 32 u.toNat).drop m).take n ++ rest) =
        some (((hexDigits 32 u.toNat).drop m).take n, rest) := by
    intro m n rest hle
    refine hread n _ rest (by simp; omega) fun c hc => ?_
    exact List.mem_of_mem_drop (List.mem_of_mem_take hc)
  have ha := fun rest => hpart 0 8 rest (by decide)
  have he : readHex 12 ((hexDigits 32 u.toNat).drop 20) =
      some ((hexDigits 32 u.toNat).drop 20, []) := by
    have h := hread 12 ((hexDigits 32 u.toNat).drop 20) [] (by simp)
      fun c hc => List.mem_of_mem_drop hc
    rwa [List.append_nil] at h
  rw [List.drop_zero] at ha
  simp only [readForm, uuidText, String.toList_ofList, ha, readDash, hpart 8 4 _ (by decide),
    hpart 12 4 _ (by decide), hpart 16 4 _ (by decide), he, Option.bind_some, Option.map_some]
  rw [Option.some.injEq, Prod.mk.injEq]
  refine ⟨?_, rfl⟩
  -- The parts together are all digits.
  have h₁ := @List.take_add _ (hexDigits 32 u.toNat) 8 4
  have h₂ := @List.take_add _ (hexDigits 32 u.toNat) 12 4
  have h₃ := @List.take_add _ (hexDigits 32 u.toNat) 16 4
  rw [← h₁, ← h₂, ← h₃, List.take_append_drop]

theorem uuidOfDigits_hexDigits (u : Uuid) : uuidOfDigits (hexDigits 32 u.toNat) = u := by
  rw [uuidOfDigits, hexNumber_hexDigits]
  apply BitVec.eq_of_toNat_eq
  rw [BitVec.toNat_ofNat]
  have hlt := u.isLt
  omega

/-- `uuid.Parse` reads the text that it writes. -/
theorem uuidParse_uuidText (u : Uuid) : uuidParse (uuidText u) = some u := by
  obtain ⟨form, hform, hlength⟩ := exists_of_readForm (readForm_uuidText u)
  rw [List.append_nil] at hform
  rw [uuidParse, if_pos (hform ▸ hlength), readForm_uuidText, Option.map_some,
    uuidOfDigits_hexDigits]

/-- PostgreSQL reads the text that it writes. -/
theorem uuidIn_uuidText (u : Uuid) : uuidIn (uuidText u) = some u := by
  rw [uuidIn_of_readGroups (readGroups_of_readForm (readForm_uuidText u)), uuidOfDigits_hexDigits]

/-- Identifiers with the same text are the same. -/
theorem eq_of_uuidText_eq {u v : Uuid} (h : uuidText u = uuidText v) : u = v := by
  have hread := uuidIn_uuidText u
  rw [h, uuidIn_uuidText] at hread
  exact (Option.some.inj hread).symm

/-- There are hyphens in the text of an identifier. -/
theorem dash_mem_uuidText (u : Uuid) : '-' ∈ (uuidText u).toList := by
  simp [uuidText]

/-- The text of an identifier is not blank. -/
@[simp]
theorem not_blank_uuidText (u : Uuid) : ¬Blank (uuidText u) := by
  intro hblank
  have hspace := List.all_eq_true.mp hblank '-' (dash_mem_uuidText u)
  exact absurd hspace (by decide)

/-- The text starts with `urn:uuid:`, or it has 38 characters and not a brace on either side. -/
def Foreign (s : String) : Prop :=
  s.toList.take 9 = urnStart ∨
    s.toList.length = 36 + 2 ∧ (s.toList.head? ≠ some '{' ∨ s.toList.getLast? ≠ some '}')

instance (s : String) : Decidable (Foreign s) := inferInstanceAs (Decidable (_ ∨ _))

/-- A text whose first character is a digit does not start with `urn:uuid:`. -/
theorem take_ne_urnStart {n : ℕ} (hn : n ≠ 0) (h : readHex n cs = some (digits, rest)) :
    cs.take 9 ≠ urnStart := by
  obtain ⟨c, cs, rfl, hc⟩ := exists_of_readHex hn h
  intro heq
  rw [List.take_succ_cons] at heq
  obtain ⟨rfl, -⟩ := List.cons.inj heq
  exact absurd hc (by decide)

/-- The form starts with digits. -/
theorem readHex_of_readForm (h : readForm cs = some (digits, rest)) :
    ∃ a, readHex 8 cs = some a := by
  rw [readForm] at h
  obtain ⟨a, ha, -⟩ := Option.bind_eq_some_iff.mp h
  exact ⟨a, ha⟩

/-- The form between two characters is foreign unless they are braces. -/
theorem foreign_iff_of_wrapped {x y : Char} {form : List Char} (hs : s.toList = x :: (form ++ [y]))
    (h : readForm (form ++ [y]) = some (digits, [y])) (hlength : form.length = 36) :
    Foreign s ↔ ¬(x = '{' ∧ y = '}') := by
  have hurn : s.toList.take 9 ≠ urnStart := by
    intro hurn
    -- The second character is a digit.
    obtain ⟨a, ha⟩ := readHex_of_readForm h
    obtain ⟨c, rest, hc, hhex⟩ := exists_of_readHex (by decide) ha
    rw [hs, hc, List.take_succ_cons, List.take_succ_cons] at hurn
    obtain ⟨-, hsecond⟩ := List.cons.inj hurn
    obtain ⟨rfl, -⟩ := List.cons.inj hsecond
    exact absurd hhex (by decide)
  have hlast : s.toList.getLast? = some y := by
    rw [hs, ← List.cons_append, List.getLast?_concat]
  have hlong : s.toList.length = 36 + 2 := by
    rw [hs, List.length_cons, List.length_append, hlength, List.length_singleton]
  rw [Foreign, hlast, hs, List.head?_cons, ← hs]
  simp only [hurn, hlong, false_or, true_and, ne_eq, Option.some.injEq]
  tauto

/-- What `uuid.Parse` accepts, PostgreSQL reads in the same way, unless it is of one of the two
foreign forms, which PostgreSQL does not accept. -/
theorem uuidIn_of_uuidParse (h : uuidParse s = some u) :
    uuidIn s = if Foreign s then none else some u := by
  rw [uuidParse] at h
  split at h
  next hlength =>
    -- The form alone.
    obtain ⟨⟨digits, rest⟩, hform, rfl⟩ := Option.map_eq_some_iff.mp h
    obtain ⟨form, heq, hform'⟩ := exists_of_readForm hform
    obtain rfl : rest = [] := by
      rw [heq, List.length_append, hform'] at hlength
      exact List.length_eq_zero_iff.mp (by omega)
    obtain ⟨a, ha⟩ := readHex_of_readForm hform
    have hforeign : ¬Foreign s := by
      rintro (hurn | ⟨hlong, -⟩)
      · exact take_ne_urnStart (by decide) ha hurn
      · omega
    rw [if_neg hforeign, uuidIn_of_readGroups (readGroups_of_readForm hform)]
  next =>
    split at h
    next =>
      split at h
      next hurn =>
        -- PostgreSQL stops at the first letter of `urn`.
        have hstart : s.toList = urnStart ++ s.toList.drop 9 := by
          rw [← hurn, List.take_append_drop]
        have hforeign : Foreign s := Or.inl hurn
        rw [if_pos hforeign]
        exact uuidIn_eq_none hstart (by decide) (by decide)
      next => cases h
    next =>
      split at h
      next hlength =>
        -- The form between two characters.
        obtain ⟨⟨digits, rest⟩, hform, rfl⟩ := Option.map_eq_some_iff.mp h
        cases hs : s.toList with
        | nil => simp [hs] at hlength
        | cons x cs =>
          rw [hs, List.drop_succ_cons, List.drop_zero] at hform
          rw [hs, List.length_cons] at hlength
          obtain ⟨form, rfl, hform'⟩ := exists_of_readForm hform
          rw [List.length_append, hform'] at hlength
          obtain ⟨y, rfl⟩ : ∃ y, rest = [y] := List.length_eq_one_iff.mp (by omega)
          have hforeign := foreign_iff_of_wrapped hs hform hform'
          rw [uuidIn_of_wrapped hs hform]
          by_cases hbraces : x = '{' ∧ y = '}'
          · rw [if_pos hbraces, if_neg fun h => hforeign.mp h hbraces]
          · rw [if_neg hbraces, if_pos (hforeign.mpr hbraces)]
      next =>
        split at h
        next hlength =>
          -- The digits alone.
          obtain ⟨⟨digits, rest⟩, hread, rfl⟩ := Option.map_eq_some_iff.mp h
          obtain ⟨heq, hdigits, -⟩ := readHex_eq_some_iff.mp hread
          obtain rfl : rest = [] := by
            rw [heq, List.length_append, hdigits] at hlength
            exact List.length_eq_zero_iff.mp (by omega)
          have hforeign : ¬Foreign s := by
            rintro (hurn | ⟨hlong, -⟩)
            · exact take_ne_urnStart (by decide) hread hurn
            · omega
          rw [if_neg hforeign, uuidIn_of_readGroups (@readGroups_of_readHex 8 _ _ _ hread)]
        next => cases h

end Texts

section Syntax

/-- `n` groups of four digits, with a hyphen or without one between two groups. -/
inductive Groups : ℕ → List Char → Prop
  | one {g : List Char} (hlength : g.length = 4) (hhex : ∀ c ∈ g, isHex c = true) : Groups 1 g
  | plain {g cs : List Char} {n : ℕ} (hlength : g.length = 4) (hhex : ∀ c ∈ g, isHex c = true)
      (hrest : Groups n cs) : Groups (n + 1) (g ++ cs)
  | dash {g cs : List Char} {n : ℕ} (hlength : g.length = 4) (hhex : ∀ c ∈ g, isHex c = true)
      (hrest : Groups n cs) : Groups (n + 1) (g ++ '-' :: cs)

/-- The texts of columns of type `UUID`: eight groups of four digits, between braces or not. -/
def UuidSyntax (s : String) : Prop :=
  Groups 8 s.toList ∨ ∃ cs, Groups 8 cs ∧ s.toList = '{' :: (cs ++ ['}'])

variable {n : ℕ} {s : String} {cs rest : List Char}

/-- Groups start with a digit. -/
theorem Groups.head (h : Groups n cs) : ∃ c cs', cs = c :: cs' ∧ isHex c = true := by
  have hgroup : ∀ {g : List Char} (rest : List Char), g.length = 4 →
      (∀ c ∈ g, isHex c = true) → ∃ c cs', g ++ rest = c :: cs' ∧ isHex c = true :=
    fun rest hlength hhex =>
      exists_of_readHex (by decide) (readHex_eq_some_iff.mpr ⟨rfl, hlength, hhex⟩)
  cases h with
  | one hlength hhex => simpa using hgroup [] hlength hhex
  | plain hlength hhex hrest => exact hgroup _ hlength hhex
  | dash hlength hhex hrest => exact hgroup _ hlength hhex

/-- Groups are read. -/
theorem Groups.read (h : Groups n cs) (rest : List Char) :
    ∃ digits, readGroups n (cs ++ rest) = some (digits, rest) := by
  induction h with
  | @one g hlength hhex =>
    have hread : readHex 4 (g ++ rest) = some (g, rest) :=
      readHex_eq_some_iff.mpr ⟨rfl, hlength, hhex⟩
    exact ⟨g ++ [], by rw [readGroups_succ hread, if_pos rfl, readGroups, Option.map_some]⟩
  | @plain g cs n hlength hhex hrest ih =>
    obtain ⟨digits, hdigits⟩ := ih
    obtain ⟨c, cs', hcs, hc⟩ := hrest.head
    have hread : readHex 4 (g ++ cs ++ rest) = some (g, cs ++ rest) :=
      readHex_eq_some_iff.mpr ⟨List.append_assoc .., hlength, hhex⟩
    -- The next group starts with a digit.
    have hskip : skipDash (cs ++ rest) = cs ++ rest := by
      have hfirst : readHex 1 (cs ++ rest) = some ([c], cs' ++ rest) := by
        simp [hcs, readHex, hc]
      exact skipDash_of_readHex (by decide) hfirst
    have hn : n ≠ 0 := by
      rintro rfl
      cases hrest
    exact ⟨g ++ digits, by rw [readGroups_succ hread, if_neg hn, hskip, hdigits, Option.map_some]⟩
  | @dash g cs n hlength hhex hrest ih =>
    obtain ⟨digits, hdigits⟩ := ih
    have hread : readHex 4 (g ++ '-' :: cs ++ rest) = some (g, '-' :: cs ++ rest) :=
      readHex_eq_some_iff.mpr ⟨List.append_assoc .., hlength, hhex⟩
    have hn : n ≠ 0 := by
      rintro rfl
      cases hrest
    exact ⟨g ++ digits, readGroups_dash hn hread rfl hdigits⟩

/-- What is read has been groups. -/
theorem groups_of_readGroups {digits : List Char} (hn : n ≠ 0)
    (h : readGroups n cs = some (digits, rest)) : ∃ body, Groups n body ∧ cs = body ++ rest := by
  induction n generalizing cs digits with
  | zero => exact absurd rfl hn
  | succ n ih =>
    rw [readGroups] at h
    obtain ⟨⟨g, mid⟩, hg, h⟩ := Option.bind_eq_some_iff.mp h
    obtain ⟨⟨digits', rest'⟩, hrest, heq⟩ := Option.map_eq_some_iff.mp h
    obtain ⟨rfl, rfl⟩ := Prod.mk.inj heq
    obtain ⟨rfl, hlength, hhex⟩ := readHex_eq_some_iff.mp hg
    by_cases hlast : n = 0
    · subst hlast
      obtain ⟨-, rfl⟩ := Prod.mk.inj (Option.some.inj hrest)
      exact ⟨g, .one hlength hhex, rfl⟩
    · rw [if_neg hlast] at hrest
      obtain ⟨body, hbody, hmid⟩ := ih hlast hrest
      -- A hyphen has been skipped, or there was none.
      rcases skipDash_cases mid with ⟨mid', rfl, hskip⟩ | hskip
      · exact ⟨g ++ '-' :: body, .dash hlength hhex hbody, by simp [← hmid, hskip]⟩
      · exact ⟨g ++ body, .plain hlength hhex hbody, by simp [← hmid, hskip]⟩

/-- The texts that PostgreSQL accepts. -/
theorem uuidIn_ne_none_iff : uuidIn s ≠ none ↔ UuidSyntax s := by
  constructor
  · intro h
    rw [uuidIn] at h
    split at h
    next cs hs =>
      split at h
      next digits hread =>
        obtain ⟨body, hbody, rfl⟩ := groups_of_readGroups (by decide) hread
        exact Or.inr ⟨body, hbody, hs⟩
      next => exact absurd rfl h
    next =>
      split at h
      next digits hread =>
        obtain ⟨body, hbody, hs⟩ := groups_of_readGroups (by decide) hread
        exact Or.inl (by rwa [hs, List.append_nil])
      next => exact absurd rfl h
  · rintro (hgroups | ⟨cs, hgroups, hs⟩)
    · obtain ⟨digits, hread⟩ := hgroups.read []
      rw [List.append_nil] at hread
      simp [uuidIn_of_readGroups hread]
    · obtain ⟨digits, hread⟩ := hgroups.read ['}']
      simp [uuidIn, hs, hread]

end Syntax

end Platform
