import Mathlib.Data.List.Infix
import PolyglotTicketing.Relational.Table

/-!
# Headers of messages

The type `nats.Header` of the Go client and `MsgHdrs` of the TypeScript client: a map from names to
lists of values. Names are told apart by their letter case. Both are mutable objects that are handed
around by reference, so a process has a heap of them; a function that changes only objects that it
has created itself leaves the old heap as an initial segment of the new one.
-/

namespace Messaging

open Relational

/-- The values under one name. -/
structure Entry where
  name : String
  values : List String
deriving DecidableEq

instance : Keyed Entry String := ⟨Entry.name⟩

@[simp]
theorem key_entry (entry : Entry) : key entry = entry.name := rfl

/-- The contents of a header object. -/
abbrev Header := Table Entry

/-- The values under a name, in order. -/
def Header.values (header : Header) (name : String) : List String :=
  ((header.find? name).map Entry.values).getD []

/-- The first value under a name, or the empty string. -/
def Header.get (header : Header) (name : String) : String := (header.values name).headD ""

/-- Put one value in the place of all values under a name. -/
def Header.set (header : Header) (name value : String) : Header := header.upsert ⟨name, [value]⟩

/-- Add a value after the others under a name. -/
def Header.append (header : Header) (name value : String) : Header :=
  header.upsert ⟨name, header.values name ++ [value]⟩

section Header

variable (header : Header) (name value : String) (values : List String) (k : String)

@[simp]
theorem Header.values_empty : Header.values .empty k = [] := rfl

/-- The values after those under one name were replaced. -/
theorem Header.values_upsert :
    Header.values (header.upsert ⟨name, values⟩) k =
      if k = name then values else header.values k := by
  rw [Header.values, Table.find?_upsert, key_entry]
  split
  · rfl
  · rfl

theorem Header.values_set :
    (header.set name value).values k = if k = name then [value] else header.values k :=
  header.values_upsert name [value] k

theorem Header.values_append :
    (header.append name value).values k =
      if k = name then header.values name ++ [value] else header.values k :=
  header.values_upsert name _ k

end Header

/-- Several calls of `Set`. -/
def Header.setAll (header : Header) (fields : List (String × String)) : Header :=
  fields.foldl (fun header field => header.set field.1 field.2) header

/-- Other names keep their values. -/
theorem Header.values_setAll_of_not_mem (header : Header) {fields : List (String × String)}
    {k : String} (hk : k ∉ fields.map Prod.fst) :
    (header.setAll fields).values k = header.values k := by
  induction fields generalizing header with
  | nil => rfl
  | cons field fields ih =>
    rw [List.map_cons, List.mem_cons, not_or] at hk
    rw [Header.setAll, List.foldl_cons, ← Header.setAll, ih _ hk.2, Header.values_set, if_neg hk.1]

/-- The names of the calls have their values, if they are distinct. -/
theorem Header.values_setAll_of_mem (header : Header) {fields : List (String × String)}
    (hnodup : (fields.map Prod.fst).Nodup) {k value : String} (hk : (k, value) ∈ fields) :
    (header.setAll fields).values k = [value] := by
  induction fields generalizing header with
  | nil => simp at hk
  | cons field fields ih =>
    rw [List.map_cons, List.nodup_cons] at hnodup
    rw [Header.setAll, List.foldl_cons, ← Header.setAll]
    rcases List.mem_cons.mp hk with rfl | hk
    · rw [Header.values_setAll_of_not_mem _ hnodup.1, Header.values_set, if_pos rfl]
    · exact ih _ hnodup.2 hk

/-- `strings.HasPrefix` and `startsWith`. -/
def HasStart (s start : String) : Prop := start.toList <+: s.toList

instance (s start : String) : Decidable (HasStart s start) :=
  inferInstanceAs (Decidable (_ <+: _))

theorem hasStart_append (start s : String) : HasStart (start ++ s) start := by
  rw [HasStart, String.toList_append]
  exact List.prefix_append _ _

/-- The letter that Unicode case folding puts in the place of a character, where it is an ASCII
letter. -/
def foldRune (c : Char) : Char :=
  if c = '\u017f' then 's' else if c = '\u212a' then 'k' else c.toLower

/-- `strings.EqualFold(s, t)`, for a text `t` of ASCII characters. -/
def EqualFold (s t : String) : Prop := s.toList.map foldRune = t.toList.map foldRune

instance (s t : String) : Decidable (EqualFold s t) := inferInstanceAs (Decidable (_ = _))

/-- `s.toLowerCase() === t`, for a text `t` of ASCII characters without a `k`. -/
def LowerCaseIs (s t : String) : Prop := s.toList.map Char.toLower = t.toList

instance (s t : String) : Decidable (LowerCaseIs s t) := inferInstanceAs (Decidable (_ = _))

/-- The header objects of a process. An address is a place in the list. -/
abbrev Heap := List Header

/-- The contents of an object. A `nil` map, or a missing object, has none. -/
def Heap.header (heap : Heap) (address : Option ℕ) : Header :=
  (address.bind fun a => heap[a]?).getD .empty

/-- Change the object at an address. -/
def Heap.modify (heap : Heap) (address : ℕ) (f : Header → Header) : Heap :=
  List.modify heap address f

/-- The object at the end of the heap is changed. -/
@[simp]
theorem Heap.modify_length (heap : Heap) (header : Header) (f : Header → Header) :
    Heap.modify (heap ++ [header]) heap.length f = heap ++ [f header] := by
  simp [Heap.modify, List.modify_eq_set_getElem?]

/-- The object at the end of the heap is read. -/
@[simp]
theorem Heap.header_length (heap : Heap) (header : Header) :
    Heap.header (heap ++ [header]) (some heap.length) = header := by
  simp [Heap.header]

end Messaging
