import Mathlib.Order.Lattice
import PolyglotTicketing.Transaction.Program

/-!
# Concurrent transactions under row locks

A `Server` interleaves any number of transactions, one statement at a time, at the isolation
level read committed: every statement sees the rows that are committed when it runs, with the
transaction's own writes on top of them. A statement that needs a row lock owned by another
transaction waits; the locks of a transaction are released together when it ends.

A `Session` keeps its whole history: the world it was opened in, the statements it has executed
with what they saw, and, once it has ended, how. `Server.step` is total: an event that is not
possible, such as a statement that has to wait, changes nothing.
-/

namespace Transaction

variable {T Db Write Key Fresh Stmt : Type} {Res : Stmt → Type} {ε α Call : Type}

/-- A statement that a session has executed, with what it saw. -/
structure Executed (T Db Write Key Fresh Stmt : Type) (Res : Stmt → Type) where
  /-- The statement. -/
  stmt : Stmt
  /-- The committed rows, the clock and the identity sequence when it ran. -/
  world : World T Db
  /-- What its own transaction had written before. -/
  written : List Write
  /-- The rest of what it saw. -/
  context : Context T Key Fresh
  /-- The reply. -/
  reply : Res stmt

/-- A transaction is running, with this program left, or it has ended. -/
inductive Phase (Stmt : Type) (Res : Stmt → Type) (ε α : Type) where
  /-- The statements that are left. -/
  | running (p : Program Stmt Res ε α)
  /-- How it ended. -/
  | ended (o : Outcome ε α)

/-- A transaction that was begun on the server. -/
structure Session (T Db Write Key Fresh Stmt : Type) (Res : Stmt → Type) (ε α Call : Type) where
  /-- The requested operation. -/
  call : Call
  /-- The world in which the transaction began; its clock is the transaction's `NOW()`. -/
  opened : World T Db
  /-- The row locks it owns. -/
  held : List Key
  /-- What it has written and not yet committed. -/
  pending : List Write
  /-- The statements it has executed. -/
  trace : List (Executed T Db Write Key Fresh Stmt Res)
  /-- What is left of it. -/
  phase : Phase Stmt Res ε α

namespace Session

/-- A transaction that has just begun. -/
def start (program : Call → Program Stmt Res ε α) (w : World T Db) (call : Call) :
    Session T Db Write Key Fresh Stmt Res ε α Call :=
  { call, opened := w, held := [], pending := [], trace := [], phase := .running (program call) }

/-- End a transaction: its locks are released and it has nothing left to write. -/
def close (s : Session T Db Write Key Fresh Stmt Res ε α Call) (o : Outcome ε α) :
    Session T Db Write Key Fresh Stmt Res ε α Call :=
  { s with held := [], pending := [], phase := .ended o }

/-- The session after a statement got its reply. -/
def advance (s : Session T Db Write Key Fresh Stmt Res ε α Call)
    (x : Executed T Db Write Key Fresh Stmt Res) (locks : List Key) (ws : List Write)
    (p : Program Stmt Res ε α) : Session T Db Write Key Fresh Stmt Res ε α Call :=
  { s with
    held := s.held ++ locks
    pending := s.pending ++ ws
    trace := s.trace ++ [x]
    phase := .running p }

end Session

/-- A database server with all transactions ever begun on it, oldest first. -/
structure Server (T Db Write Key Fresh Stmt : Type) (Res : Stmt → Type) (ε α Call : Type) where
  /-- The committed rows, the clock and the identity sequence. -/
  world : World T Db
  /-- The transactions, running and ended. -/
  sessions : List (Session T Db Write Key Fresh Stmt Res ε α Call)

/-- What can happen on a server. Transactions are named by their position. -/
inductive Event (T Fresh Call : Type) where
  /-- Time passes. -/
  | tick (now : T)
  /-- A transaction begins. -/
  | start (call : Call)
  /-- A transaction executes its next statement. -/
  | statement (i : ℕ) (fresh : Fresh)
  /-- A statement or the commit of a transaction fails. -/
  | crash (i : ℕ)
  /-- A transaction without statements left commits or rolls back. -/
  | finish (i : ℕ)

namespace Server

/-- The row locks owned by transactions other than the `i`-th. -/
def lockedElsewhere (c : Server T Db Write Key Fresh Stmt Res ε α Call) (i : ℕ) : List Key :=
  (c.sessions.eraseIdx i).flatMap Session.held

/-- Replace the `i`-th session. -/
def setSession (c : Server T Db Write Key Fresh Stmt Res ε α Call) (i : ℕ)
    (s : Session T Db Write Key Fresh Stmt Res ε α Call) :
    Server T Db Write Key Fresh Stmt Res ε α Call :=
  { c with sessions := c.sessions.set i s }

/-- The locks owned elsewhere are those of the other sessions. -/
theorem mem_lockedElsewhere {c : Server T Db Write Key Fresh Stmt Res ε α Call} {i : ℕ}
    {key : Key} : key ∈ c.lockedElsewhere i ↔
      ∃ j s, j ≠ i ∧ c.sessions[j]? = some s ∧ key ∈ s.held := by
  simp only [lockedElsewhere, List.mem_flatMap, List.mem_eraseIdx_iff_getElem?]
  constructor
  · rintro ⟨s, ⟨j, hj, hs⟩, hkey⟩
    exact ⟨j, s, hj, hs, hkey⟩
  · rintro ⟨j, s, hj, hs, hkey⟩
    exact ⟨s, ⟨j, hj, hs⟩, hkey⟩

variable [LinearOrder T] [DecidableEq Key]

/-- One event. -/
def step (E : Engine T Db Write Key Fresh Stmt Res) (program : Call → Program Stmt Res ε α)
    (c : Server T Db Write Key Fresh Stmt Res ε α Call) :
    Event T Fresh Call → Server T Db Write Key Fresh Stmt Res ε α Call
  | .tick now =>
    if c.world.clock ≤ now then { c with world := { c.world with clock := now } } else c
  | .start call => { c with sessions := c.sessions ++ [Session.start program c.world call] }
  | .statement i fresh =>
    match c.sessions[i]? with
    | none => c
    | some s =>
      match s.phase with
      | .running (.stmt q k) =>
        -- `READ COMMITTED`: a statement sees what is committed when it runs, and what its own
        -- transaction has written.
        let view := E.applyAll s.pending c.world.db
        let context := ⟨s.opened.clock, c.lockedElsewhere i, c.world.sequence, fresh⟩
        let locks := E.locks q context view
        -- It waits for locks that others own: nothing happens until it is tried again.
        if locks.any (fun key => decide (key ∈ c.lockedElsewhere i)) then c
        else match E.exec q context view with
          | none => c.setSession i (s.close .aborted)
          | some (r, ws) =>
            { world := { c.world with sequence := c.world.sequence + E.draws q }
              sessions := c.sessions.set i
                (s.advance ⟨q, c.world, s.pending, context, r⟩ locks ws (k r)) }
      | _ => c
  | .crash i =>
    match c.sessions[i]? with
    | none => c
    | some s =>
      match s.phase with
      | .running _ => c.setSession i (s.close .aborted)
      | .ended _ => c
  | .finish i =>
    match c.sessions[i]? with
    | none => c
    | some s =>
      match s.phase with
      -- The commit makes all that was written visible at once.
      | .running (.done a) =>
        { world := { c.world with db := E.applyAll s.pending c.world.db }
          sessions := c.sessions.set i (s.close (.committed a)) }
      | .running (.fail e) => c.setSession i (s.close (.failed e))
      | _ => c

/-- The ways in which one event changes a server. -/
inductive Steps (E : Engine T Db Write Key Fresh Stmt Res) (program : Call → Program Stmt Res ε α)
    (c : Server T Db Write Key Fresh Stmt Res ε α Call) :
    Server T Db Write Key Fresh Stmt Res ε α Call → Prop
  /-- The event was not possible. -/
  | stutter : Steps E program c c
  /-- Time passes. -/
  | tick (now : T) (hle : c.world.clock ≤ now) :
      Steps E program c { c with world := { c.world with clock := now } }
  /-- A transaction begins. -/
  | start (call : Call) :
      Steps E program c { c with sessions := c.sessions ++ [Session.start program c.world call] }
  /-- A transaction executes a statement, none of whose locks another one owns. -/
  | statement (i : ℕ) (s : Session T Db Write Key Fresh Stmt Res ε α Call) (q : Stmt)
      (k : Res q → Program Stmt Res ε α) (context : Context T Key Fresh) (r : Res q)
      (ws : List Write)
      (hs : c.sessions[i]? = some s) (hphase : s.phase = .running (.stmt q k))
      (hnow : context.now = s.opened.clock) (hseq : context.sequence = c.world.sequence)
      (hfree : ∀ key ∈ E.locks q context (E.applyAll s.pending c.world.db),
        key ∉ c.lockedElsewhere i)
      (hexec : E.exec q context (E.applyAll s.pending c.world.db) = some (r, ws)) :
      Steps E program c
        { world := { c.world with sequence := c.world.sequence + E.draws q }
          sessions := c.sessions.set i (s.advance ⟨q, c.world, s.pending, context, r⟩
            (E.locks q context (E.applyAll s.pending c.world.db)) ws (k r)) }
  /-- A transaction fails. -/
  | crash (i : ℕ) (s : Session T Db Write Key Fresh Stmt Res ε α Call)
      (p : Program Stmt Res ε α)
      (hs : c.sessions[i]? = some s) (hphase : s.phase = .running p) :
      Steps E program c (c.setSession i (s.close .aborted))
  /-- A transaction is rolled back by its program. -/
  | rollback (i : ℕ) (s : Session T Db Write Key Fresh Stmt Res ε α Call) (e : ε)
      (hs : c.sessions[i]? = some s) (hphase : s.phase = .running (.fail e)) :
      Steps E program c (c.setSession i (s.close (.failed e)))
  /-- A transaction commits. -/
  | commit (i : ℕ) (s : Session T Db Write Key Fresh Stmt Res ε α Call) (a : α)
      (hs : c.sessions[i]? = some s) (hphase : s.phase = .running (.done a)) :
      Steps E program c
        { world := { c.world with db := E.applyAll s.pending c.world.db }
          sessions := c.sessions.set i (s.close (.committed a)) }

variable {E : Engine T Db Write Key Fresh Stmt Res} {program : Call → Program Stmt Res ε α}

variable (E program) in
/-- Everything that an event can do. -/
theorem step_cases (c : Server T Db Write Key Fresh Stmt Res ε α Call)
    (e : Event T Fresh Call) : Steps E program c (c.step E program e) := by
  cases e with
  | tick now =>
    rw [step]
    split
    next hle => exact .tick now hle
    next => exact .stutter
  | start call => exact .start call
  | statement i fresh =>
    rw [step]
    split
    next => exact .stutter
    next s hs =>
      split
      next q k hphase =>
        dsimp only
        split
        next => exact .stutter
        -- No lock that it takes is owned elsewhere, so that it is run.
        next hfree =>
          split
          next => exact .crash i s _ hs hphase
          next r ws hexec =>
            refine .statement i s q k _ r ws hs hphase rfl rfl ?_ hexec
            intro key hkey hlocked
            exact hfree (List.any_eq_true.mpr ⟨key, hkey, by simpa using hlocked⟩)
      next => exact .stutter
  | crash i =>
    rw [step]
    split
    next => exact .stutter
    next s hs =>
      split
      next p hphase => exact .crash i s p hs hphase
      next => exact .stutter
  | finish i =>
    rw [step]
    split
    next => exact .stutter
    next s hs =>
      split
      next a hphase => exact .commit i s a hs hphase
      next e hphase => exact .rollback i s e hs hphase
      next => exact .stutter

end Server

end Transaction
