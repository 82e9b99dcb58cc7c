import Mathlib.Data.List.Dedup
import Mathlib.Data.List.Sort
import PolyglotTicketing.ConcertAssistant.Syntax

/-!
# Validation of generated queries

`SQLValidator` of `apps/concert-assistant/src/concert_assistant/sql_validation.py`. What it uses of
`sqlglot` and of the strings of Python is a parameter.
-/

namespace ConcertAssistant

/-- The keys of `COLUMN_DESCRIPTIONS` in `schema.py`. -/
def ALLOWED_COLUMNS : List String :=
  ["id", "date", "end_date", "venue", "city", "country", "artist", "is_festival",
    "end_date_parse_error", "concerts_last_year", "concerts_last_3_years",
    "concerts_last_5_years", "days_since_last_global_concert", "activity_trend",
    "artist_expansion_ratio", "artist_years_observed", "artist_concerts_last_30_days",
    "artist_concerts_last_90_days", "is_currently_touring", "days_since_previous_concert",
    "distinct_countries_last_30_days", "previous_visits_to_country", "is_first_observed_visit",
    "days_since_last_country_visit", "country_average_gap", "country_median_gap",
    "country_gap_std", "country_min_gap", "country_max_gap", "country_last_gap",
    "country_gap_trend", "country_gap_coefficient_of_variation",
    "same_season_country_visit_ratio", "country_seasonal_concentration",
    "country_visit_proportion", "country_rank_for_artist", "unique_countries_visited_total",
    "unique_countries_visited_last_3_years", "unique_countries_visited_last_5_years",
    "unique_cities_last_5_years", "country_concert_ratio_last_5_years",
    "total_previous_concerts_in_country", "global_average_country_gap", "season", "is_post_covid",
    "is_covid_period"]

def FORBIDDEN_EXPRESSIONS : List Kind :=
  [.insert, .update, .delete, .create, .drop, .alter, .command, .copy, .merge, .grant, .revoke]

/-- What the validator uses of `sqlglot`. -/
structure Sqlglot where
  /-- `parse(sql, read="postgres")`, which is `none` if it raises a `ParseError`. An empty
  statement is `none` as well. -/
  parse : String → Option (List (Option Tree))
  /-- `statement.sql(dialect="postgres")`. -/
  sql : Tree → String

/-- The characters of ASCII, the capital letters turned into small ones. -/
def asciiLower (s : String) : String := String.ofList (s.toList.map Char.toLower)

/-- A text of ASCII. -/
def Ascii (s : String) : Prop := ∀ c ∈ s.toList, c.toNat < 128

/-- The method `str.lower`, of which only the characters of ASCII are spelled out. -/
structure Lower where
  lower : String → String
  lower_ascii : ∀ s, Ascii s → lower s = asciiLower s

structure ValidatedQuery where
  displaySql : String
  executionSql : String
deriving DecidableEq

section Validate

variable (python : Lower)

/-- The aliases that `_validate_columns` collects. -/
def aliases (statement : Tree) : List String :=
  (statement.expressions.filterMap Prod.fst).filterMap fun label =>
    if label.this ≠ "" then some (python.lower label.this) else none

/-- The names that `_validate_columns` complains about. -/
def unknownColumns (statement : Tree) : List String :=
  (statement.columns.filter fun column =>
    column.name ≠ "" ∧ python.lower column.name ∉ ALLOWED_COLUMNS ∧
      python.lower column.name ∉ aliases python statement).map
        fun column => python.lower column.name

def validateRelation (statement : Tree) : Except String Unit :=
  match statement.tables with
  | [table] =>
    if python.lower table.name ≠ "concerts" ∨
        (∃ db ∈ table.db, db.this ≠ "" ∧ python.lower db.this ≠ "public") then
      .error "Queries may read only public.concerts."
    else .ok ()
  | _ => .error "Queries must read exactly one concerts relation."

def validateColumns (statement : Tree) : Except String Unit :=
  let unknownColumns := unknownColumns python statement
  if unknownColumns ≠ [] then
    let names := ", ".intercalate (unknownColumns.dedup.insertionSort (· ≤ ·))
    .error ("Query references unavailable columns: " ++ names ++ ".")
  else .ok ()

/-- What `validate` checks of the one statement of a text. -/
def validateStatement (statement : Option Tree) : Except String Tree :=
  match statement with
  | none => .error "Only SELECT queries are allowed."
  | some statement =>
    if statement.kind? ≠ some .select then .error "Only SELECT queries are allowed."
    else if ∃ kind ∈ FORBIDDEN_EXPRESSIONS, ∃ t ∈ statement.nodes, t.kind? = some kind then
      .error "Queries may not contain write or administration operations."
    else if ∃ item ∈ statement.expressions, item.1 = none ∧ item.2.isStar then
      .error "SELECT * is not allowed."
    else do
      validateRelation python statement
      validateColumns python statement
      return statement

/-- `SQLValidator(max_result_rows).validate(sql)`. -/
def validate (sqlglot : Sqlglot) (maxResultRows : Int) (sql : String) :
    Except String ValidatedQuery :=
  match sqlglot.parse sql with
  | none => .error "The generated query could not be parsed."
  | some [statement] => do
    let statement ← validateStatement python statement
    let displaySql := sqlglot.sql statement
    let executionSql := "SELECT * FROM (" ++ displaySql ++ ") AS concert_assistant_query LIMIT " ++
      toString maxResultRows
    return { displaySql, executionSql }
  | some _ => .error "Exactly one SQL statement is allowed."

end Validate

end ConcertAssistant
