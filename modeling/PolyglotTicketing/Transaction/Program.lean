import Mathlib.Data.List.Basic

/-!
# Transactions as programs over statements

A database transaction is a program that sends one statement after the other to the server,
each chosen from the replies to the earlier ones, and that ends in a `COMMIT` (`done`) or in a
`ROLLBACK` (`fail`). What a statement does is fixed by an `Engine`:

* `exec`: the reply of a statement and the rows it writes, or `none` when the server refuses
  it (a violated constraint);
* `locks`: the row locks it has to own before it runs;
* `draws`: how many values it takes from the identity sequence, which no rollback gives back.

A failing statement ends the transaction it is part of: programs do not handle statement
errors. `Program.execute` runs a program on its own, without other transactions in between.
-/

namespace Transaction

/-- A transaction whose statements `s` have replies of type `Res s`, which commits with a value
of type `α` or is rolled back with an error of type `ε`. -/
inductive Program (Stmt : Type) (Res : Stmt → Type) (ε α : Type) where
  /-- Nothing is left to do; as a whole transaction: commit. -/
  | done (a : α)
  /-- Give up with an error and roll back. -/
  | fail (e : ε)
  /-- Send a statement and go on with its reply. -/
  | stmt (s : Stmt) (k : Res s → Program Stmt Res ε α)

namespace Program

variable {Stmt : Type} {Res : Stmt → Type} {ε α β : Type}

/-- Sequencing: go on with `f` where the first program is done. -/
def bind : Program Stmt Res ε α → (α → Program Stmt Res ε β) → Program Stmt Res ε β
  | .done a, f => f a
  | .fail e, _ => .fail e
  | .stmt s k, f => .stmt s fun r => (k r).bind f

instance : Monad (Program Stmt Res ε) where
  pure := .done
  bind := bind

/-- The program that sends one statement and returns its reply. -/
def query (s : Stmt) : Program Stmt Res ε (Res s) := .stmt s .done

/-- A computation that may fail, as a program without statements. -/
def ofExcept : Except ε α → Program Stmt Res ε α
  | .ok a => .done a
  | .error e => .fail e

end Program

/-- What a statement sees besides the rows: the start time of its transaction, the locks that
other transactions own, the next value of the identity sequence, and the values the
environment generates for it. -/
structure Context (T Key Fresh : Type) where
  /-- `NOW()`, which is the time at which the transaction began. -/
  now : T
  /-- The row locks that other transactions own. -/
  locked : List Key
  /-- The next value of the identity sequence. -/
  sequence : ℕ
  /-- Values generated for this statement, such as random identifiers. -/
  fresh : Fresh

/-- The meaning of statements on a database. -/
structure Engine (T Db Write Key Fresh Stmt : Type) (Res : Stmt → Type) where
  /-- The effect of one written row on the database. -/
  apply : Db → Write → Db
  /-- The row locks a statement takes. -/
  locks : Stmt → Context T Key Fresh → Db → List Key
  /-- The reply of a statement and the rows it writes; `none` if the server refuses it. -/
  exec : (s : Stmt) → Context T Key Fresh → Db → Option (Res s × List Write)
  /-- How many values a statement takes from the identity sequence. -/
  draws : Stmt → ℕ

/-- A database with the clock of its server and its identity sequence. -/
structure World (T Db : Type) where
  /-- The committed rows. -/
  db : Db
  /-- The time on the server. -/
  clock : T
  /-- The next value of the identity sequence. -/
  sequence : ℕ

/-- How a transaction ended. -/
inductive Outcome (ε α : Type) where
  /-- It committed and returned a value. -/
  | committed (a : α)
  /-- It was rolled back with an error of the program. -/
  | failed (e : ε)
  /-- A statement or the commit failed and it was rolled back. -/
  | aborted
deriving DecidableEq

variable {T Db Write Key Fresh Stmt : Type} {Res : Stmt → Type} {ε α Call : Type}

namespace Engine

/-- The effect of a list of written rows, in order. -/
def applyAll (E : Engine T Db Write Key Fresh Stmt Res) (ws : List Write) (db : Db) : Db :=
  ws.foldl E.apply db

variable (E : Engine T Db Write Key Fresh Stmt Res)

@[simp]
theorem applyAll_nil (db : Db) : E.applyAll [] db = db := rfl

@[simp]
theorem applyAll_cons (w : Write) (ws : List Write) (db : Db) :
    E.applyAll (w :: ws) db = E.applyAll ws (E.apply db w) := rfl

@[simp]
theorem applyAll_append (ws vs : List Write) (db : Db) :
    E.applyAll (ws ++ vs) db = E.applyAll vs (E.applyAll ws db) := by
  simp [applyAll, List.foldl_append]

end Engine

/-- Run a program on its own. `fates` holds, for each statement, the values generated for it,
or `none` if the statement fails. The second component is the database the transaction itself
sees at its end: whether it becomes the committed one is decided by `transact`. -/
def Program.execute (E : Engine T Db Write Key Fresh Stmt Res) :
    Program Stmt Res ε α → (ℕ → Option Fresh) → World T Db → Outcome ε α × World T Db
  | .done a, _, w => (.committed a, w)
  | .fail e, _, w => (.failed e, w)
  | .stmt s k, fates, w =>
    -- The first fate is that of the first statement, and a statement that fails ends the run.
    match fates 0 with
    -- The statement fails before it is run: its connection is lost, or a lock times out.
    | none => (.aborted, w)
    | some fresh =>
      match E.exec s ⟨w.clock, [], w.sequence, fresh⟩ w.db with
      -- The server refuses it.
      | none => (.aborted, w)
      | some (r, ws) =>
        (k r).execute E (fun n => fates (n + 1))
          { w with db := E.applyAll ws w.db, sequence := w.sequence + E.draws s }

/-- One attempt at a transaction: the call, the time at which it begins, the fates of its
statements, and whether the commit succeeds. -/
structure Attempt (T Fresh Call : Type) where
  /-- The requested operation. -/
  call : Call
  /-- The time at which the transaction begins. -/
  now : T
  /-- What becomes of its statements. -/
  fates : ℕ → Option Fresh
  /-- Whether its commit succeeds. -/
  commits : Bool

section Transact

variable (E : Engine T Db Write Key Fresh Stmt Res) (program : Call → Program Stmt Res ε α)

/-- One attempt at a transaction. Only a commit changes the rows; the identity sequence keeps
the values that a rolled back transaction has drawn. -/
def transact (w : World T Db) (a : Attempt T Fresh Call) : Outcome ε α × World T Db :=
  match (program a.call).execute E a.fates { w with clock := a.now } with
  | (.committed r, w') =>
    -- A commit can fail too, for instance with the connection.
    if a.commits then (.committed r, w')
    else (.aborted, { w with clock := a.now, sequence := w'.sequence })
  | (o, w') => (o, { w with clock := a.now, sequence := w'.sequence })

/-- What an attempt returns. -/
def outcome (w : World T Db) (a : Attempt T Fresh Call) : Outcome ε α := (transact E program w a).1

/-- The world after an attempt. -/
def attempt (w : World T Db) (a : Attempt T Fresh Call) : World T Db := (transact E program w a).2

end Transact

section Execute

variable {E : Engine T Db Write Key Fresh Stmt Res} {program : Call → Program Stmt Res ε α}

@[simp]
theorem execute_done (a : α) (fates : ℕ → Option Fresh) (w : World T Db) :
    (Program.done a : Program Stmt Res ε α).execute E fates w = (.committed a, w) := rfl

@[simp]
theorem execute_fail (e : ε) (fates : ℕ → Option Fresh) (w : World T Db) :
    (Program.fail e : Program Stmt Res ε α).execute E fates w = (.failed e, w) := rfl

/-- A statement that succeeds: the program goes on with its reply. -/
theorem execute_stmt {s : Stmt} {k : Res s → Program Stmt Res ε α} {fates : ℕ → Option Fresh}
    {w : World T Db} {fresh : Fresh} {r : Res s} {ws : List Write}
    (hfate : fates 0 = some fresh)
    (hexec : E.exec s ⟨w.clock, [], w.sequence, fresh⟩ w.db = some (r, ws)) :
    (Program.stmt s k).execute E fates w =
      (k r).execute E (fun n => fates (n + 1))
        { w with db := E.applyAll ws w.db, sequence := w.sequence + E.draws s } := by
  rw [Program.execute, hfate]
  simp only [hexec]

/-- How a program ends whose first statement succeeds. -/
theorem execute_stmt_fst {s : Stmt} {k : Res s → Program Stmt Res ε α} {fates : ℕ → Option Fresh}
    {w : World T Db} {fresh : Fresh} {r : Res s} {ws : List Write} {o : Outcome ε α}
    (hfate : fates 0 = some fresh)
    (hexec : E.exec s ⟨w.clock, [], w.sequence, fresh⟩ w.db = some (r, ws))
    (hrest : ((k r).execute E (fun n => fates (n + 1))
      { w with db := E.applyAll ws w.db, sequence := w.sequence + E.draws s }).1 = o) :
    ((Program.stmt s k).execute E fates w).1 = o := by
  rw [execute_stmt hfate hexec]
  exact hrest

/-- A transaction that is not aborted has had a reply to its first statement. -/
theorem execute_stmt_cases {s : Stmt} {k : Res s → Program Stmt Res ε α}
    {fates : ℕ → Option Fresh} {w w' : World T Db} {o : Outcome ε α} (ho : o ≠ .aborted)
    (h : (Program.stmt s k).execute E fates w = (o, w')) :
    ∃ fresh r ws, fates 0 = some fresh ∧
      E.exec s ⟨w.clock, [], w.sequence, fresh⟩ w.db = some (r, ws) ∧
      (k r).execute E (fun n => fates (n + 1))
        { w with db := E.applyAll ws w.db, sequence := w.sequence + E.draws s } = (o, w') := by
  cases hfate : fates 0 with
  | none =>
    simp only [Program.execute, hfate, Prod.mk.injEq] at h
    exact absurd h.1.symm ho
  | some fresh =>
    cases hexec : E.exec s ⟨w.clock, [], w.sequence, fresh⟩ w.db with
    | none =>
      simp only [Program.execute, hfate, hexec, Prod.mk.injEq] at h
      exact absurd h.1.symm ho
    | some reply =>
      obtain ⟨r, ws⟩ := reply
      rw [execute_stmt hfate hexec] at h
      exact ⟨fresh, r, ws, rfl, hexec, h⟩

/-- Running a program does not move the clock. -/
theorem execute_clock (p : Program Stmt Res ε α) (fates : ℕ → Option Fresh) (w : World T Db) :
    (p.execute E fates w).2.clock = w.clock := by
  induction p generalizing fates w with
  | done a => rfl
  | fail e => rfl
  | stmt s k ih =>
    rw [Program.execute]
    split
    · rfl
    · split
      · rfl
      · rw [ih]

/-- The identity sequence never goes back. -/
theorem execute_sequence_le (p : Program Stmt Res ε α) (fates : ℕ → Option Fresh)
    (w : World T Db) : w.sequence ≤ (p.execute E fates w).2.sequence := by
  induction p generalizing fates w with
  | done a => exact Nat.le_refl _
  | fail e => exact Nat.le_refl _
  | stmt s k ih =>
    rw [Program.execute]
    split
    next => exact Nat.le_refl _
    next =>
      split
      next => exact Nat.le_refl _
      next r ws hexec =>
        refine Nat.le_trans ?_ (ih r _ _)
        exact Nat.le_add_right w.sequence (E.draws s)

/-- What an attempt that commits has done. -/
theorem transact_committed {w : World T Db} {a : Attempt T Fresh Call} {r : α}
    (h : outcome E program w a = .committed r) :
    (program a.call).execute E a.fates { w with clock := a.now } =
      (.committed r, attempt E program w a) := by
  unfold outcome at h
  unfold attempt
  unfold transact at h ⊢
  -- The program has ended with the value, and the commit has succeeded.
  split at h
  next r' w' hexec =>
    split at h
    next hcommit =>
      obtain rfl : r' = r := by simpa using h
      rw [hexec, if_pos hcommit]
    next => simp at h
  next o w' hne hexec =>
    obtain rfl : o = .committed r := by simpa using h
    exact absurd rfl (hne r)

/-- An attempt that does not commit leaves the rows as they were. -/
theorem attempt_db_of_not_committed {w : World T Db} {a : Attempt T Fresh Call}
    (h : ∀ r, outcome E program w a ≠ .committed r) : (attempt E program w a).db = w.db := by
  unfold outcome at h
  unfold attempt
  unfold transact at h ⊢
  -- Only the branch of a successful commit keeps the rows that were written.
  split
  next r w' hexec =>
    split
    next hcommit => exact absurd (by simp [hexec, hcommit]) (h r)
    next => rfl
  next => rfl

variable (E program)

/-- The clock after an attempt is the time at which it began. -/
theorem attempt_clock (w : World T Db) (a : Attempt T Fresh Call) :
    (attempt E program w a).clock = a.now := by
  have hclock := execute_clock (E := E) (program a.call) a.fates { w with clock := a.now }
  unfold attempt transact
  split
  next r w' hexec =>
    split
    · simpa [hexec] using hclock
    · rfl
  next => rfl

/-- An attempt never takes the identity sequence back. -/
theorem attempt_sequence_le (w : World T Db) (a : Attempt T Fresh Call) :
    w.sequence ≤ (attempt E program w a).sequence := by
  have hle := execute_sequence_le (E := E) (program a.call) a.fates { w with clock := a.now }
  unfold attempt transact
  split
  next r w' hexec =>
    rw [hexec] at hle
    split <;> exact hle
  next o w' hne hexec =>
    rw [hexec] at hle
    exact hle

end Execute

end Transaction
