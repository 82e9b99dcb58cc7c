import Mathlib.Data.Nat.Notation

/-!
# Syntax trees of queries

The trees that `sqlglot` returns for PostgreSQL, as far as the validation of
`apps/concert-assistant/src/concert_assistant/sql_validation.py` and the resolution of names by
PostgreSQL tell their nodes apart. A node has a class and labelled children. Parentheses and the
directions of sort keys are left out.
-/

namespace ConcertAssistant

/-- `exp.Identifier`. -/
structure Identifier where
  this : String
  quoted : Bool := false
deriving DecidableEq

/-- `exp.Column`: a name with the names that qualify it, where `this` is `none` for `*`. -/
structure Column where
  this : Option Identifier
  table : Option Identifier := none
  db : Option Identifier := none
  catalog : Option Identifier := none
deriving DecidableEq

/-- The property `name` of a column. -/
def Column.name (c : Column) : String := c.this.elim "*" Identifier.this

/-- `exp.Table`. -/
structure Table where
  this : Identifier
  db : Option Identifier := none
  catalog : Option Identifier := none
deriving DecidableEq

/-- The property `name` of a table. -/
def Table.name (t : Table) : String := t.this.this

/-- The class of a node with children. -/
inductive Kind where
  | select
  /-- `UNION`, `INTERSECT` or `EXCEPT`. -/
  | setOperation
  | insert
  | update
  | delete
  | create
  | drop
  | alter
  | command
  | copy
  | merge
  | grant
  | revoke
  /-- Sources that are joined in parentheses. -/
  | join
  /-- Any other class, such as a function, an operator, a literal or a list of rows. -/
  | other
deriving DecidableEq

/-- What a child is to its node. -/
inductive Arg where
  /-- An operand, or an expression of the clauses `WHERE`, `HAVING`, `WINDOW` and `LIMIT`. -/
  | operand
  /-- A query of the `WITH` clause. -/
  | cte (name : Identifier) (columns : List Identifier) (recursive : Bool)
  /-- An item of the `SELECT` list, with the alias that `AS` gives it. The parser also keeps the
  name of a window, as in `f() OVER w`, for an alias; such items have no label here. -/
  | item (label : Option Identifier)
  /-- A source of the `FROM` clause, after a comma or joined to the sources before. -/
  | source (joined lateral : Bool) (label : Option Identifier) (columns : List Identifier)
  /-- The condition on which the source before is joined. -/
  | on
  /-- An element of the `GROUP BY` clause. -/
  | groupBy
  /-- A key of the `ORDER BY` clause. -/
  | orderBy
  /-- An expression of `DISTINCT ON`. -/
  | distinctOn
deriving DecidableEq

mutual

/-- A syntax tree. -/
inductive Tree where
  | column (c : Column)
  /-- `exp.Star`, where it is not the name of a column. -/
  | star
  | table (t : Table)
  | node (kind : Kind) (args : Args)

/-- The children of a node, in the order of the text. -/
inductive Args where
  | nil
  | cons (arg : Arg) (tree : Tree) (rest : Args)

end

mutual

/-- All nodes of a tree, which is where `find_all` looks. -/
def Tree.nodes : Tree → List Tree
  | .node kind args => .node kind args :: args.nodes
  | t => [t]

/-- All nodes of the children. -/
def Args.nodes : Args → List Tree
  | .nil => []
  | .cons _ t rest => t.nodes ++ rest.nodes

end

/-- The children, with their labels. -/
def Args.toList : Args → List (Arg × Tree)
  | .nil => []
  | .cons arg t rest => (arg, t) :: rest.toList

/-- The column, if a node is one. -/
def Tree.column? : Tree → Option Column
  | .column c => some c
  | _ => none

/-- The table, if a node is one. -/
def Tree.table? : Tree → Option Table
  | .table t => some t
  | _ => none

/-- The class of a node with children. -/
def Tree.kind? : Tree → Option Kind
  | .node kind _ => some kind
  | _ => none

/-- `isinstance(t, exp.Star)`. -/
def Tree.isStar : Tree → Bool
  | .star => true
  | _ => false

/-- `find_all(exp.Column)`. -/
def Tree.columns (t : Tree) : List Column := t.nodes.filterMap Tree.column?

/-- `find_all(exp.Table)`. -/
def Tree.tables (t : Tree) : List Table := t.nodes.filterMap Tree.table?

/-- The `SELECT` list, with the aliases of its items. -/
def Tree.expressions : Tree → List (Option Identifier × Tree)
  | .node _ args => args.toList.filterMap fun
    | (.item label, t) => some (label, t)
    | _ => none
  | _ => []

end ConcertAssistant
