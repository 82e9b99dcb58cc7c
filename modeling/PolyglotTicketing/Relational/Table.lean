import Mathlib.Data.List.Nodup
import Mathlib.Data.List.Basic

/-!
# Tables with a primary key

A `Table ρ` is a list of rows, in insertion order, whose keys are pairwise distinct. The
uniqueness of the key is a field of the structure, so that no operation can build a table
without it:

* `find? k`: the row with key `k`;
* `insert r`: appends `r`, or leaves the table alone when its key is taken;
* `replace r`: puts `r` in the place of the row with the same key;
* `upsert r`: replaces the row with the key of `r`, or inserts `r` when there is none.

The `find?` lemmas describe a table as a finite map; the `rows` lemmas describe it as a list.
-/

namespace Relational

/-- Rows of type `ρ` carry a primary key of type `κ`. -/
class Keyed (ρ : Type*) (κ : outParam (Type*)) where
  /-- The primary key of a row. -/
  key : ρ → κ

export Keyed (key)

/-- Rows with pairwise distinct primary keys, in insertion order. -/
@[ext]
structure Table (ρ : Type*) {κ : Type*} [Keyed ρ κ] where
  /-- The rows, oldest first. -/
  rows : List ρ
  /-- No two rows share a key. -/
  nodup : (rows.map key).Nodup

namespace Table

variable {ρ κ : Type*} [Keyed ρ κ]

/-- The table without rows. -/
def empty : Table ρ := ⟨[], by simp⟩

@[simp]
theorem rows_empty : (empty : Table ρ).rows = [] := rfl

/-- Two rows of a table with one key are the same row. -/
theorem eq_of_key_eq {t : Table ρ} {r r' : ρ} (h : r ∈ t.rows) (h' : r' ∈ t.rows)
    (hkey : key r = key r') : r = r' :=
  List.inj_on_of_nodup_map t.nodup h h' hkey

variable [DecidableEq κ]

/-- The row with key `k`, if there is one. -/
def find? (t : Table ρ) (k : κ) : Option ρ := t.rows.find? fun r => decide (key r = k)

/-- Append a row, unless its key is taken. -/
def insert (t : Table ρ) (r : ρ) : Table ρ :=
  if h : key r ∈ t.rows.map key then t
  else ⟨t.rows ++ [r], by simpa [List.nodup_append] using ⟨t.nodup, by simpa using h⟩⟩

/-- The keys of a list of rows are unchanged when a row is exchanged for one with its key. -/
private theorem map_key_exchange (rows : List ρ) (r : ρ) :
    (rows.map fun x => if key x = key r then r else x).map key = rows.map key := by
  rw [List.map_map]
  refine List.map_congr_left fun x _ => ?_
  by_cases h : key x = key r <;> simp [h]

/-- Put `r` in the place of the row with the same key; without such a row nothing changes. -/
def replace (t : Table ρ) (r : ρ) : Table ρ :=
  ⟨t.rows.map fun x => if key x = key r then r else x, by
    rw [map_key_exchange]; exact t.nodup⟩

/-- Put `r` in the place of the row with the same key, or append it when there is none. -/
def upsert (t : Table ρ) (r : ρ) : Table ρ :=
  if (t.find? (key r)).isNone then t.insert r else t.replace r

/-- Change every row by `f`, which leaves the keys alone. -/
def update (t : Table ρ) (f : ρ → ρ) (hf : ∀ r, key (f r) = key r) : Table ρ :=
  ⟨t.rows.map f, by
    rw [List.map_map, show key ∘ f = key from funext hf]; exact t.nodup⟩

@[simp]
theorem find?_empty (k : κ) : (empty : Table ρ).find? k = none := rfl

/-- A row is found under a key exactly if it is in the table and has that key. -/
theorem find?_eq_some_iff {t : Table ρ} {k : κ} {r : ρ} :
    t.find? k = some r ↔ r ∈ t.rows ∧ key r = k := by
  constructor
  · intro h
    exact ⟨List.mem_of_find?_eq_some h, by simpa using List.find?_some h⟩
  · rintro ⟨hmem, rfl⟩
    -- What is found has the key of `r`, so it is `r`.
    cases hfind : t.find? (key r) with
    | none => simpa using List.find?_eq_none.mp hfind r hmem
    | some x =>
      have hx : x ∈ t.rows := List.mem_of_find?_eq_some hfind
      have hkey : key x = key r := by simpa using List.find?_some hfind
      rw [List.inj_on_of_nodup_map t.nodup hx hmem hkey]

/-- No row is found under a key exactly if no row has it. -/
theorem find?_eq_none_iff {t : Table ρ} {k : κ} :
    t.find? k = none ↔ ∀ r ∈ t.rows, key r ≠ k := by
  simp [find?, List.find?_eq_none]

/-- A row of the table is found under its key. -/
theorem find?_of_mem {t : Table ρ} {r : ρ} (h : r ∈ t.rows) : t.find? (key r) = some r :=
  find?_eq_some_iff.mpr ⟨h, rfl⟩

/-- A row that is found is in the table. -/
theorem mem_of_find? {t : Table ρ} {k : κ} {r : ρ} (h : t.find? k = some r) : r ∈ t.rows :=
  (find?_eq_some_iff.mp h).1

/-- A row that is found has the key it was looked up by. -/
theorem key_of_find? {t : Table ρ} {k : κ} {r : ρ} (h : t.find? k = some r) : key r = k :=
  (find?_eq_some_iff.mp h).2

/-- A row with a new key goes to the end of the table. -/
theorem rows_insert {t : Table ρ} {r : ρ} (hnew : t.find? (key r) = none) :
    (t.insert r).rows = t.rows ++ [r] := by
  have hnot : key r ∉ t.rows.map key := by
    simpa using find?_eq_none_iff.mp hnew
  simp [insert, hnot]

/-- A row whose key is taken is not inserted. -/
theorem insert_of_taken {t : Table ρ} {r : ρ} (htaken : t.find? (key r) ≠ none) :
    t.insert r = t := by
  have hmem : key r ∈ t.rows.map key := by
    by_contra hnot
    exact htaken (find?_eq_none_iff.mpr (by simpa using hnot))
  rw [insert, dif_pos hmem]

/-- The rows after the insertion of a row with a new key. -/
theorem mem_insert {t : Table ρ} {r x : ρ} (hnew : t.find? (key r) = none) :
    x ∈ (t.insert r).rows ↔ x ∈ t.rows ∨ x = r := by
  simp [rows_insert hnew]

/-- The rows after an insertion have been there before or are the new one. -/
theorem mem_of_mem_insert {t : Table ρ} {r x : ρ} (hx : x ∈ (t.insert r).rows) :
    x ∈ t.rows ∨ x = r := by
  rw [insert] at hx
  split at hx
  next => exact Or.inl hx
  next => simpa using hx

/-- What holds of all rows and of a new one holds of all rows after its insertion. -/
theorem forall_insert {t : Table ρ} {r : ρ} {P : ρ → Prop} (h : ∀ x ∈ t.rows, P x) (hr : P r) :
    ∀ x ∈ (t.insert r).rows, P x := by
  intro x hx
  rcases mem_of_mem_insert hx with hx | rfl
  · exact h x hx
  · exact hr

/-- Lookup after the insertion of a row with a new key. -/
theorem find?_insert {t : Table ρ} {r : ρ} (hnew : t.find? (key r) = none) (k : κ) :
    (t.insert r).find? k = if k = key r then some r else t.find? k := by
  by_cases hk : k = key r
  · subst hk
    simpa using find?_of_mem ((mem_insert hnew).mpr (Or.inr rfl))
  · simp [find?, rows_insert hnew, hk, Ne.symm hk]

/-- The inserted row is found. -/
theorem find?_insert_self {t : Table ρ} {r : ρ} (hnew : t.find? (key r) = none) :
    (t.insert r).find? (key r) = some r := by
  simp [find?_insert hnew]

/-- Insertion keeps the rows found under other keys. -/
theorem find?_insert_of_some {t : Table ρ} {r x : ρ} {k : κ} (hnew : t.find? (key r) = none)
    (hfind : t.find? k = some x) : (t.insert r).find? k = some x := by
  have hk : k ≠ key r := by
    rintro rfl
    simp [hnew] at hfind
  simpa [find?_insert hnew, hk] using hfind

/-- Lookup in a list of rows after a row is exchanged for one with its key. -/
private theorem find?_exchange (rows : List ρ) (r : ρ) (k : κ) :
    (rows.map fun x => if key x = key r then r else x).find? (fun x => decide (key x = k)) =
      if k = key r then (rows.find? fun x => decide (key x = k)).map fun _ => r
      else rows.find? fun x => decide (key x = k) := by
  -- Row by row; a row matters if it has the key of `r`, or the key that is looked up.
  induction rows with
  | nil => simp
  | cons x rows ih =>
    by_cases hk : k = key r
    · subst hk
      by_cases hx : key x = key r
      · simp [hx]
      · simpa [hx] using ih
    · by_cases hx : key x = key r
      · have hxk : key x ≠ k := fun h => hk (h.symm.trans hx)
        simpa [hx, hk, Ne.symm hk, hxk] using ih
      · by_cases hxk : key x = k
        · simp [hxk, hk]
        · simpa [hx, hxk, hk] using ih

/-- Lookup after a replacement. -/
theorem find?_replace (t : Table ρ) (r : ρ) (k : κ) :
    (t.replace r).find? k =
      if k = key r then (t.find? k).map fun _ => r else t.find? k :=
  find?_exchange t.rows r k

/-- The replacing row is found in the place of the old one. -/
theorem find?_replace_self {t : Table ρ} {r x : ρ} (hfind : t.find? (key r) = some x) :
    (t.replace r).find? (key r) = some r := by
  simp [find?_replace, hfind]

/-- A replacement keeps the rows found under other keys. -/
theorem find?_replace_of_ne {t : Table ρ} {r : ρ} {k : κ} (hk : k ≠ key r) :
    (t.replace r).find? k = t.find? k := by
  simp [find?_replace, hk]

/-- A replacement neither adds nor removes keys. -/
theorem find?_replace_eq_none_iff {t : Table ρ} {r : ρ} {k : κ} :
    (t.replace r).find? k = none ↔ t.find? k = none := by
  by_cases hk : k = key r <;> simp [find?_replace, hk]

/-- A row in its own place. -/
theorem replace_self {t : Table ρ} {r : ρ} (hfind : t.find? (key r) = some r) :
    t.replace r = t := by
  ext1
  show (t.rows.map fun x => if key x = key r then r else x) = t.rows
  refine (List.map_congr_left fun x hx => ?_).trans t.rows.map_id
  split
  next hkey => exact eq_of_key_eq (mem_of_find? hfind) hx hkey.symm
  next => rfl

/-- What holds of all rows and of another one holds of all rows after it has taken the place of
one. -/
theorem forall_replace {t : Table ρ} {r : ρ} {P : ρ → Prop} (h : ∀ x ∈ t.rows, P x) (hr : P r) :
    ∀ x ∈ (t.replace r).rows, P x := by
  intro x hx
  obtain ⟨y, hy, rfl⟩ := List.mem_map.mp hx
  split
  · exact hr
  · exact h y hy

/-- The rows after the replacement of an existing row. -/
theorem mem_replace {t : Table ρ} {r x y : ρ} (hfind : t.find? (key r) = some y) :
    x ∈ (t.replace r).rows ↔ x = r ∨ (x ∈ t.rows ∧ key x ≠ key r) := by
  constructor
  · intro hx
    -- The row under the key of `r` is `r` itself; the others are as they were.
    by_cases hk : key x = key r
    · have hfound := find?_of_mem hx
      rw [hk, find?_replace_self hfind] at hfound
      exact Or.inl (Option.some.inj hfound).symm
    · have hfound := find?_of_mem hx
      rw [find?_replace_of_ne hk] at hfound
      exact Or.inr ⟨mem_of_find? hfound, hk⟩
  · rintro (rfl | ⟨hx, hk⟩)
    · exact mem_of_find? (find?_replace_self hfind)
    · exact mem_of_find? ((find?_replace_of_ne hk).trans (find?_of_mem hx))

/-- Lookup after an update. -/
theorem find?_update {t : Table ρ} {f : ρ → ρ} {hf : ∀ r, key (f r) = key r} (k : κ) :
    (t.update f hf).find? k = (t.find? k).map f := by
  have hkey : (fun r => decide (key r = k)) ∘ f = fun r => decide (key r = k) :=
    funext fun r => by simp [hf]
  rw [find?, update, List.find?_map, hkey]
  rfl

/-- An insertion before an update. -/
theorem update_insert {t : Table ρ} {f : ρ → ρ} {hf : ∀ r, key (f r) = key r} {r : ρ} :
    (t.insert r).update f hf = (t.update f hf).insert (f r) := by
  have hkeys : (t.update f hf).rows.map key = t.rows.map key := by
    simp [update, hf]
  ext1
  -- The update leaves the keys alone, so the key is taken on both sides or on neither.
  by_cases h : key r ∈ t.rows.map key
  · have h' : key (f r) ∈ (t.update f hf).rows.map key := by rwa [hf, hkeys]
    simp only [insert, dif_pos h, dif_pos h']
  · have h' : key (f r) ∉ (t.update f hf).rows.map key := by rwa [hf, hkeys]
    simp only [insert, dif_neg h, dif_neg h']
    simp [update]

/-- A new key is inserted. -/
theorem upsert_of_none {t : Table ρ} {r : ρ} (hfind : t.find? (key r) = none) :
    t.upsert r = t.insert r := by
  simp [upsert, hfind]

/-- A row with an old key takes the place of the row with that key. -/
theorem upsert_of_some {t : Table ρ} {r x : ρ} (hfind : t.find? (key r) = some x) :
    t.upsert r = t.replace r := by
  simp [upsert, hfind]

/-- Lookup after an upsertion. -/
theorem find?_upsert (t : Table ρ) (r : ρ) (k : κ) :
    (t.upsert r).find? k = if k = key r then some r else t.find? k := by
  cases hfind : t.find? (key r) with
  | none =>
    rw [upsert_of_none hfind]
    exact find?_insert hfind k
  | some x =>
    rw [upsert_of_some hfind, find?_replace]
    by_cases hk : k = key r
    · simp [hk, hfind]
    · simp [hk]

/-- The rows after an upsertion are the new one or have been there before. -/
theorem mem_of_mem_upsert {t : Table ρ} {r x : ρ} (hx : x ∈ (t.upsert r).rows) :
    x = r ∨ x ∈ t.rows := by
  have hfound := find?_of_mem hx
  rw [find?_upsert] at hfound
  split at hfound
  next => exact Or.inl (Option.some.inj hfound).symm
  next => exact Or.inr (mem_of_find? hfound)

end Table

end Relational
