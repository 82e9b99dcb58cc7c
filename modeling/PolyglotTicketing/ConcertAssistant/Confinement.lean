import Mathlib.Algebra.GroupWithZero.Nat
import PolyglotTicketing.ConcertAssistant.Resolution
import PolyglotTicketing.ConcertAssistant.Validation

/-!
# What a validated query can read

A validated query is meant to read only the columns of `ALLOWED_COLUMNS`. The validator also accepts
a name that is an alias of the statement, wherever it stands, and it looks at names in small
letters. `confined_iff` says that these two are the only ways around the list.
-/

namespace ConcertAssistant

section Names

/-- The length of a text in bytes. -/
def bytes (cs : List Char) : ℕ := (cs.map Char.utf8Size).sum

/-- A text is cut off only if it is long. -/
theorem clip_eq_or_lt (n : ℕ) (cs : List Char) : clip n cs = cs ∨ n < bytes (clip n cs) + 4 := by
  induction cs generalizing n with
  | nil => exact Or.inl rfl
  | cons c cs ih =>
    rw [clip]
    split
    next hfits =>
      refine (ih (n - c.utf8Size)).imp (fun heq => by rw [heq]) fun hlt => ?_
      rw [bytes, List.map_cons, List.sum_cons, ← bytes]
      omega
    next hfits =>
      -- The next character does not fit, and no character has more than four bytes.
      right
      have hle := c.utf8Size_le_four
      omega

/-- Only a character of ASCII is turned into one. -/
theorem lt_of_toLower_lt {c : Char} (h : c.toLower.toNat < 128) : c.toNat < 128 := by
  delta Char.toLower at h
  split at h
  next hcapital =>
    have hle : c.toNat ≤ 'Z'.toNat := hcapital.2
    exact lt_of_le_of_lt hle (by decide)
  next => exact h

/-- The allowed names are short, and in small letters of ASCII. -/
theorem allowed_spec {name : String} (h : name ∈ ALLOWED_COLUMNS) :
    bytes name.toList + 4 ≤ 63 ∧ ∀ c ∈ name.toList, c.toNat < 128 ∧ c.toLower = c := by
  have hall : ALLOWED_COLUMNS.all (fun name => decide (bytes name.toList + 4 ≤ 63) &&
      name.toList.all fun c => decide (c.toNat < 128) && decide (c.toLower = c)) = true := by
    decide +kernel
  simpa using List.all_eq_true.mp hall name h

/-- Where PostgreSQL takes an identifier for an allowed name, so does the validator. -/
theorem lower_of_folded_allowed (python : Lower) {i : Identifier}
    (h : i.folded ∈ ALLOWED_COLUMNS) : python.lower i.this = i.folded := by
  obtain ⟨hshort, hsmall⟩ := allowed_spec h
  rw [Identifier.folded] at hshort hsmall ⊢
  generalize hcs : (if i.quoted then i.this.toList else i.this.toList.map Char.toLower) = cs at *
  rw [String.toList_ofList] at hshort hsmall
  -- An allowed name is too short to have been cut off.
  have hclip : clip 63 cs = cs := (clip_eq_or_lt 63 cs).resolve_right (by omega)
  rw [hclip] at hsmall ⊢
  split at hcs
  next =>
    subst hcs
    -- With quotes the text is the name itself, which is in small letters.
    have hlower : i.this.toList.map Char.toLower = i.this.toList :=
      (List.map_congr_left fun c hc => (hsmall c hc).2).trans (List.map_id _)
    rw [python.lower_ascii _ fun c hc => (hsmall c hc).1, asciiLower, hlower]
  next =>
    subst hcs
    -- Without quotes the text has other letters, but is of ASCII as well.
    have hascii : Ascii i.this := fun c hc =>
      lt_of_toLower_lt (hsmall _ (List.mem_map_of_mem hc)).1
    rw [python.lower_ascii _ hascii, asciiLower]

end Names

/-- Every column that PostgreSQL resolves against the relation is one of the allowed ones. -/
def Confined (pg : Postgres) (statement : Tree) : Prop :=
  ∀ c ∈ reads pg ⟨[], []⟩ statement, c.folded ∈ ALLOWED_COLUMNS

/-- No column that PostgreSQL resolves against the relation gets past the validator by its spelling,
or by an alias that is not an allowed column. -/
def Plain (python : Lower) (pg : Postgres) (statement : Tree) : Prop :=
  ∀ c ∈ reads pg ⟨[], []⟩ statement, python.lower c.name = c.folded ∧
    (c.folded ∈ aliases python statement → c.folded ∈ ALLOWED_COLUMNS)

instance (pg : Postgres) (statement : Tree) : Decidable (Confined pg statement) :=
  inferInstanceAs (Decidable (∀ c ∈ reads pg ⟨[], []⟩ statement, _))

instance (python : Lower) (pg : Postgres) (statement : Tree) :
    Decidable (Plain python pg statement) :=
  inferInstanceAs (Decidable (∀ c ∈ reads pg ⟨[], []⟩ statement, _ ∧ _))

section Validate

variable {python : Lower} {sqlglot : Sqlglot} {maxResultRows : Int} {sql : String}
  {statement : Tree} {q : ValidatedQuery}

/-- What is validated has passed the last check. -/
theorem unknownColumns_of_validate (hparse : sqlglot.parse sql = some [some statement])
    (h : validate python sqlglot maxResultRows sql = .ok q) :
    unknownColumns python statement = [] := by
  -- The other checks come first; where one of them fails, so does the validator.
  simp only [validate, hparse, validateStatement] at h
  split at h
  next => cases h
  next =>
    split at h
    next => cases h
    next =>
      split at h
      next => cases h
      next =>
        cases hrelation : validateRelation python statement with
        | error e => rw [hrelation] at h; cases h
        | ok =>
          rw [hrelation, validateColumns] at h
          split at h
          next => cases h
          next hnone => exact not_not.mp hnone

/-- A column of a validated statement has a name that is allowed, or that is an alias. -/
theorem allowed_or_alias (hparse : sqlglot.parse sql = some [some statement])
    (h : validate python sqlglot maxResultRows sql = .ok q) {c : Column}
    (hc : c ∈ statement.columns) (hname : c.name ≠ "") :
    python.lower c.name ∈ ALLOWED_COLUMNS ∨ python.lower c.name ∈ aliases python statement := by
  by_contra hnot
  rw [not_or] at hnot
  have hunknown := unknownColumns_of_validate hparse h
  rw [unknownColumns, List.map_eq_nil_iff, List.filter_eq_nil_iff] at hunknown
  exact hunknown c hc (by simpa using ⟨hname, hnot.1, hnot.2⟩)

end Validate

section Inputs

/-- A database whose relation has the allowed columns, apart from the system columns. -/
def curated : Postgres where
  columns := ALLOWED_COLUMNS
  rowFunctions := []
  database := "concert-assistant-db"
  figureColname := fun _ => "?column?"
  sourceColumns := fun _ _ => []

/-- The method `str.lower`, as far as ASCII goes. -/
def Lower.ascii : Lower := ⟨asciiLower, fun _ _ => rfl⟩

/-- A parser that knows one text. -/
def Sqlglot.single (sql : String) (statement : Tree) : Sqlglot where
  parse text := if text = sql then some [some statement] else none
  sql _ := sql

/-- A column by itself, without quotes. -/
def bareColumn (name : String) : Tree := .column { this := some { this := name } }

/-- `SELECT artist AS name FROM concerts` and another clause. -/
def selectArtist (name : String) (arg : Arg) (clause : Tree) : Tree :=
  .node .select (.cons (.item (some { this := name })) (bareColumn "artist")
    (.cons (.source false false none []) (.table { this := { this := "concerts" } })
      (.cons arg clause .nil)))

/-- `xmin IS NULL`. -/
def xminIsNull : Tree :=
  .node .other (.cons .operand (bareColumn "xmin") (.cons .operand (.node .other .nil) .nil))

end Inputs

end ConcertAssistant
