import PolyglotTicketing.ConcertAssistant.Syntax

/-!
# What the names in a query refer to

The rules by which PostgreSQL finds out what the columns of a query refer to. A query sees the
sources of its `FROM` clause, and where these do not have a name, those of the queries around it. In
an `ORDER BY`, `GROUP BY` or `DISTINCT ON` clause, a name by itself can stand for an item of the
`SELECT` list instead.

`reads` collects the columns of a tree that refer to the relation `concerts`.
-/

namespace ConcertAssistant

/-- As many characters as fit into `n` bytes. -/
def clip : ℕ → List Char → List Char
  | _, [] => []
  | n, c :: cs => if c.utf8Size ≤ n then c :: clip (n - c.utf8Size) cs else []

/-- The name that an identifier stands for: without quotes its case does not matter, and what does
not fit into 63 bytes is cut off. -/
def Identifier.folded (i : Identifier) : String :=
  String.ofList (clip 63 (if i.quoted then i.this.toList else i.this.toList.map Char.toLower))

/-- The name that a column is looked up by. -/
def Column.folded (c : Column) : String := c.this.elim "*" Identifier.folded

/-- What depends on the database. -/
structure Postgres where
  /-- The columns of the relation `concerts`, in order. -/
  columns : List String
  /-- The functions of a row of the relation. They can be written like one of its columns. -/
  rowFunctions : List String
  /-- The name of the database. -/
  database : String
  /-- The name of an item without an alias that is not a column. -/
  figureColname : Tree → String
  /-- The columns of a source that is neither a table nor a query, such as the result of a
  function. -/
  sourceColumns : Tree → Option Identifier → List String

/-- The columns that every table has. -/
def systemColumns : List String := ["tableoid", "xmin", "cmin", "xmax", "cmax", "ctid"]

/-- What a name of the `FROM` clause stands for. -/
structure Source where
  name : Option String
  /-- The schema that can stand in front of the name. -/
  schema : Option String := none
  /-- The columns, and whether they are those of the relation. -/
  columns : List (String × Bool)
  /-- The system columns of the relation. -/
  hidden : List String := []
  /-- The row of the source is one of the relation, or has one in it. -/
  row : Bool := false

/-- A source has a column of this name. -/
def Source.Has (s : Source) (name : String) : Prop :=
  name ∈ s.columns.map Prod.fst ∨ name ∈ s.hidden

instance (s : Source) (name : String) : Decidable (s.Has name) :=
  inferInstanceAs (Decidable (_ ∨ _))

/-- It is a column of the relation. -/
def Source.Reads (s : Source) (name : String) : Prop := (name, true) ∈ s.columns ∨ name ∈ s.hidden

instance (s : Source) (name : String) : Decidable (s.Reads name) :=
  inferInstanceAs (Decidable (_ ∨ _))

/-- The names in front of a column are those of the source. -/
def Source.Qualifies (pg : Postgres) (s : Source) (c : Column) : Prop :=
  (∃ table ∈ c.table, s.name = some table.folded) ∧
    (∀ db ∈ c.db, s.schema = some db.folded) ∧ ∀ catalog ∈ c.catalog, catalog.folded = pg.database

instance (pg : Postgres) (s : Source) (c : Column) : Decidable (s.Qualifies pg c) :=
  inferInstanceAs (Decidable (_ ∧ _))

/-- What can be seen at some place in a query. -/
structure Env where
  /-- The queries of `WITH` clauses with their columns, the innermost first. -/
  ctes : List (String × List String)
  /-- The sources of the query and of the queries around it, the innermost first. -/
  levels : List (List Source)

/-- A column by itself refers to the relation: the innermost query that has sources with a column of
this name has the relation among them, or there is none and it is the name of a source with a row of
the relation. A column that joined sources have in common counts as one of each. -/
def Env.ReadsBare (env : Env) (name : String) : Prop :=
  match env.levels.find? fun level => ∃ s ∈ level, s.Has name with
  | some level => ∃ s ∈ level, s.Reads name
  | none =>
    match env.levels.find? fun level => ∃ s ∈ level, s.name = some name with
    | some level => ∃ s ∈ level, s.name = some name ∧ s.row = true
    | none => False

instance (env : Env) (name : String) : Decidable (env.ReadsBare name) := by
  unfold Env.ReadsBare
  split
  next => infer_instance
  next => split <;> infer_instance

/-- A column with names in front of it refers to the relation: it is a column of it, all of them, or
the result of a function of its row. -/
def Env.ReadsQualified (pg : Postgres) (env : Env) (c : Column) : Prop :=
  match env.levels.find? fun level => ∃ s ∈ level, s.Qualifies pg c with
  | some level => ∃ s ∈ level, s.Qualifies pg c ∧
      (s.Reads c.folded ∨ s.row = true ∧ (c.this = none ∨ c.folded ∈ pg.rowFunctions))
  | none => False

instance (pg : Postgres) (env : Env) (c : Column) : Decidable (env.ReadsQualified pg c) := by
  unfold Env.ReadsQualified
  split <;> infer_instance

/-- PostgreSQL resolves a column against the relation. There are no columns without a name. -/
def Env.Reads (pg : Postgres) (env : Env) (c : Column) : Prop :=
  c.name ≠ "" ∧
    if c.table = none then c.this ≠ none ∧ env.ReadsBare c.folded else env.ReadsQualified pg c

instance (pg : Postgres) (env : Env) (c : Column) : Decidable (env.Reads pg c) :=
  inferInstanceAs (Decidable (_ ∧ _))

section Sources

/-- The columns of a source when some of them are given other names. -/
def renamed {α : Type} (names : List Identifier) (columns : List (String × α)) :
    List (String × α) :=
  (columns.zipIdx).map fun (column, k) =>
    ((names[k]?).elim column.1 Identifier.folded, column.2)

/-- The source that a table stands for. A name by itself can be that of a query of a `WITH`
clause. -/
def Table.source (pg : Postgres) (ctes : List (String × List String)) (t : Table)
    (label : Option Identifier) (names : List Identifier) : Source :=
  let name := label.elim t.this.folded Identifier.folded
  match if t.db = none then ctes.lookup t.this.folded else none with
  | some columns => { name, columns := renamed names (columns.map (·, false)) }
  | none =>
    if t.this.folded = "concerts" ∧ (∀ db ∈ t.db, db.folded = "public") ∧
        ∀ catalog ∈ t.catalog, catalog.folded = pg.database then
      { name
        schema := if label = none then some "public" else none
        columns := renamed names (pg.columns.map (·, true))
        hidden := systemColumns
        row := true }
    else { name, columns := [] }

/-- The names of the items of the `SELECT` list. -/
def itemNames (pg : Postgres) (sources : List Source) : Args → List String
  | .nil => []
  | .cons (.item (some label)) _ rest => label.folded :: itemNames pg sources rest
  | .cons (.item none) .star rest =>
    sources.flatMap (fun s => s.columns.map Prod.fst) ++ itemNames pg sources rest
  | .cons (.item none) (.column c) rest =>
    (if c.this = none then
      (sources.filter fun s => s.Qualifies pg c).flatMap fun s => s.columns.map Prod.fst
    else [c.folded]) ++ itemNames pg sources rest
  | .cons (.item none) t rest => pg.figureColname t :: itemNames pg sources rest
  | .cons _ _ rest => itemNames pg sources rest

/-- All queries of a recursive `WITH` clause see each other's names. -/
def declared (ctes : List (String × List String)) : Args → List (String × List String)
  | .nil => ctes
  | .cons (.cte name names true) _ rest =>
    declared ((name.folded, names.map Identifier.folded) :: ctes) rest
  | .cons _ _ rest => declared ctes rest

/-- The sources that an element of a `FROM` clause stands for, given the columns that it has as a
query, and the sources that it has as a join. A join in parentheses is one source if it has a
name. -/
def sourcesOf (pg : Postgres) (ctes : List (String × List String)) (label : Option Identifier)
    (names : List Identifier) (t : Tree) (columns : List String) (joined : List Source) :
    List Source :=
  match t with
  | .table t => [t.source pg ctes label names]
  | .node .join _ =>
    match label with
    | none => joined
    | some label =>
      [{ name := label.folded
         columns := renamed names (joined.flatMap Source.columns)
         row := joined.any Source.row }]
  | t =>
    let columns :=
      if t.kind? = some .select ∨ t.kind? = some .setOperation then columns
      else pg.sourceColumns t label
    [{ name := label.map Identifier.folded, columns := renamed names (columns.map (·, false)) }]

mutual

/-- The names of the columns of a query. -/
def outputs (pg : Postgres) (ctes : List (String × List String)) : Tree → List String
  | .node .select args =>
    let ctes := withCtes pg (declared ctes args) args
    itemNames pg (sources pg ctes args) args
  | .node .setOperation args => firstOutputs pg (withCtes pg (declared ctes args) args) args
  | _ => []

/-- The names of the columns of the first query of a set operation. -/
def firstOutputs (pg : Postgres) (ctes : List (String × List String)) : Args → List String
  | .nil => []
  | .cons .operand t _ => outputs pg ctes t
  | .cons _ _ rest => firstOutputs pg ctes rest

/-- The queries of a `WITH` clause become visible one after the other. -/
def withCtes (pg : Postgres) (ctes : List (String × List String)) :
    Args → List (String × List String)
  | .nil => ctes
  | .cons (.cte name names _) body rest =>
    let columns := renamed names ((outputs pg ctes body).map (·, false))
    withCtes pg ((name.folded, columns.map Prod.fst) :: ctes) rest
  | .cons _ _ rest => withCtes pg ctes rest

/-- The sources of a `FROM` clause. -/
def sources (pg : Postgres) (ctes : List (String × List String)) : Args → List Source
  | .nil => []
  | .cons (.source _ _ label names) t rest =>
    sourcesOf pg ctes label names t (outputs pg ctes t) (joined pg ctes t) ++ sources pg ctes rest
  | .cons _ _ rest => sources pg ctes rest

/-- The sources of a join in parentheses. -/
def joined (pg : Postgres) (ctes : List (String × List String)) : Tree → List Source
  | .node .join args => sources pg ctes args
  | _ => []

end

end Sources

section Reads

/-- What the clauses of a query see. -/
structure Frame where
  /-- The queries of `WITH` clauses. -/
  ctes : List (String × List String)
  /-- The sources of the queries around. -/
  levels : List (List Source)
  /-- The sources of the `FROM` clause. -/
  sources : List Source := []
  /-- The names of the items of the `SELECT` list. -/
  outputs : List String := []

/-- What the children of a node see. -/
def frame (pg : Postgres) (env : Env) (kind : Kind) (args : Args) : Frame :=
  let ctes := withCtes pg (declared env.ctes args) args
  match kind with
  | .select =>
    let sources := sources pg ctes args
    { ctes, levels := env.levels, sources, outputs := itemNames pg sources args }
  | .setOperation => { ctes, levels := env.levels, outputs := firstOutputs pg ctes args }
  | _ => { ctes, levels := env.levels }

/-- The name of a column that stands by itself. -/
def Tree.bareName? : Tree → Option String
  | .column ⟨some this, none, none, none⟩ => some this.folded
  | _ => none

/-- A child refers to an item of the `SELECT` list: it is the name of one, and in a `GROUP BY`
clause not that of a column of the sources. -/
def Frame.NamesOutput (f : Frame) (arg : Arg) (t : Tree) : Prop :=
  ∃ name ∈ t.bareName?, name ∈ f.outputs ∧
    (arg = .orderBy ∨ arg = .distinctOn ∨ arg = .groupBy ∧ ∀ s ∈ f.sources, ¬s.Has name)

instance (f : Frame) (arg : Arg) (t : Tree) : Decidable (f.NamesOutput arg t) :=
  inferInstanceAs (Decidable (∃ name ∈ t.bareName?, _ ∧ _))

mutual

/-- The columns of a tree that PostgreSQL resolves against the relation. -/
def reads (pg : Postgres) (env : Env) : Tree → List Column
  | .column c => if env.Reads pg c then [c] else []
  | .node kind args =>
    readsArgs pg (frame pg env kind args) (declared env.ctes args) [] [] args
  | _ => []

/-- The columns of the children. A query of a `WITH` clause sees those before it (`ctes`), a lateral
source all sources before it (`seen`), and a condition the sources that are joined (`chain`). -/
def readsArgs (pg : Postgres) (f : Frame) (ctes : List (String × List String))
    (seen chain : List Source) : Args → List Column
  | .nil => []
  | .cons (.cte name names _) body rest =>
    let columns := renamed names ((outputs pg ctes body).map (·, false))
    reads pg ⟨ctes, f.levels⟩ body ++
      readsArgs pg f ((name.folded, columns.map Prod.fst) :: ctes) seen chain rest
  | .cons (.source isJoined lateral label names) t rest =>
    let these := sourcesOf pg f.ctes label names t (outputs pg f.ctes t) (joined pg f.ctes t)
    reads pg ⟨f.ctes, if lateral then seen :: f.levels else f.levels⟩ t ++
      readsArgs pg f ctes (seen ++ these) (if isJoined then chain ++ these else these) rest
  | .cons .on t rest =>
    reads pg ⟨f.ctes, chain :: f.levels⟩ t ++ readsArgs pg f ctes seen chain rest
  | .cons arg t rest =>
    (if f.NamesOutput arg t then [] else reads pg ⟨f.ctes, f.sources :: f.levels⟩ t) ++
      readsArgs pg f ctes seen chain rest

end

/-- The columns among the nodes of the children. -/
def Args.columns (args : Args) : List Column := args.nodes.filterMap Tree.column?

@[simp]
theorem columns_column (c : Column) : (Tree.column c).columns = [c] := rfl

@[simp]
theorem columns_node (kind : Kind) (args : Args) : (Tree.node kind args).columns = args.columns :=
  rfl

@[simp]
theorem columns_cons (arg : Arg) (t : Tree) (rest : Args) :
    (Args.cons arg t rest).columns = t.columns ++ rest.columns := by
  simp [Args.columns, Tree.columns, Args.nodes]

/-- These are columns of the list, and have names. -/
def Named (columns all : List Column) : Prop := ∀ c ∈ columns, c ∈ all ∧ c.name ≠ ""

theorem Named.nil (all : List Column) : Named [] all := fun _ hc => by simp at hc

theorem Named.append {front back all all' : List Column} (hfront : Named front all)
    (hback : Named back all') : Named (front ++ back) (all ++ all') := by
  intro c hc
  rcases List.mem_append.mp hc with hc | hc
  · exact ⟨List.mem_append_left _ (hfront c hc).1, (hfront c hc).2⟩
  · exact ⟨List.mem_append_right _ (hback c hc).1, (hback c hc).2⟩

mutual

/-- What is resolved against the relation are columns of the tree. -/
theorem named_reads (pg : Postgres) (env : Env) : ∀ t : Tree, Named (reads pg env t) t.columns
  | .column c => by
    rw [reads]
    split
    next hreads =>
      intro c' hc'
      obtain rfl := List.mem_singleton.mp hc'
      exact ⟨List.mem_singleton_self _, hreads.1⟩
    next => exact .nil _
  | .star => .nil _
  | .table t => .nil _
  | .node kind args => by
    rw [reads, columns_node]
    exact named_readsArgs pg _ _ _ _ args

/-- So are those of the children. -/
theorem named_readsArgs (pg : Postgres) (f : Frame) (ctes : List (String × List String))
    (seen chain : List Source) :
    ∀ args : Args, Named (readsArgs pg f ctes seen chain args) args.columns
  | .nil => .nil _
  | .cons arg t rest => by
    -- What a child refers to the `SELECT` list does not matter.
    have hchild : ∀ output : Prop, [Decidable output] → ∀ env : Env,
        Named (if output then [] else reads pg env t) t.columns := by
      intro output _ env
      split
      next => exact .nil _
      next => exact named_reads pg env t
    rw [columns_cons]
    cases arg with
    | cte name names recursive =>
      exact (named_reads pg _ t).append (named_readsArgs pg f _ seen chain rest)
    | source isJoined lateral label names =>
      exact (named_reads pg _ t).append (named_readsArgs pg f ctes _ _ rest)
    | on => exact (named_reads pg _ t).append (named_readsArgs pg f ctes seen chain rest)
    | operand => exact (hchild _ _).append (named_readsArgs pg f ctes seen chain rest)
    | item label => exact (hchild _ _).append (named_readsArgs pg f ctes seen chain rest)
    | groupBy => exact (hchild _ _).append (named_readsArgs pg f ctes seen chain rest)
    | orderBy => exact (hchild _ _).append (named_readsArgs pg f ctes seen chain rest)
    | distinctOn => exact (hchild _ _).append (named_readsArgs pg f ctes seen chain rest)

end

end Reads

end ConcertAssistant
