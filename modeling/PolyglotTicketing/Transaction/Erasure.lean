import PolyglotTicketing.Transaction.Serial

/-!
# Columns that do not matter

`erase` blanks out some columns of a database, such as the one that is filled from the identity
sequence. If no statement looks at these columns (`Engine.Blind`), then attempts at a transaction
in states that agree otherwise end in the same way, and in states that agree otherwise:
`outcome_congr` and `erase_attempt_congr`.

`execute_invariant` is the induction rule for what the statements of a transaction keep while it
runs alone.
-/

namespace Transaction

variable {T Db Write Key Fresh Stmt : Type} {Res : Stmt → Type} {ε α Call : Type}
variable {E : Engine T Db Write Key Fresh Stmt Res} {program : Call → Program Stmt Res ε α}

/-- What statements reply and write depends neither on the columns that are blanked out nor on the
identity sequence. -/
structure Engine.Blind (E : Engine T Db Write Key Fresh Stmt Res) (erase : Db → Db) : Prop where
  exec : ∀ (s : Stmt) (context : Context T Key Fresh) (db : Db),
    (E.exec s context db).map (fun x => (x.1, erase (E.applyAll x.2 db))) =
      (E.exec s { context with sequence := 0 } (erase db)).map
        fun x => (x.1, erase (E.applyAll x.2 (erase db)))

section Congr

variable {erase : Db → Db}

/-- A statement in two databases that agree otherwise. -/
theorem exec_congr (h : E.Blind erase) (s : Stmt) (now : T) (n n' : ℕ) (fresh : Fresh)
    {db db' : Db} (hdb : erase db = erase db') :
    (E.exec s ⟨now, [], n, fresh⟩ db).map (fun x => (x.1, erase (E.applyAll x.2 db))) =
      (E.exec s ⟨now, [], n', fresh⟩ db').map
        fun x => (x.1, erase (E.applyAll x.2 db')) := by
  rw [h.exec s _ db, h.exec s _ db', hdb]

/-- A program in two worlds that agree otherwise. -/
theorem execute_congr (h : E.Blind erase) (p : Program Stmt Res ε α) (fates : ℕ → Option Fresh)
    (w w' : World T Db) (hclock : w.clock = w'.clock) (hdb : erase w.db = erase w'.db) :
    (p.execute E fates w).1 = (p.execute E fates w').1 ∧
      erase (p.execute E fates w).2.db = erase (p.execute E fates w').2.db := by
  induction p generalizing fates w w' with
  | done a => exact ⟨rfl, hdb⟩
  | fail e => exact ⟨rfl, hdb⟩
  | stmt s k ih =>
    cases hfate : fates 0 with
    | none => simp [Program.execute, hfate, hdb]
    | some fresh =>
      -- The statement is refused in both worlds, or replies and writes the same in both.
      have hexec := exec_congr h s w.clock w.sequence w'.sequence fresh hdb
      cases hw : E.exec s ⟨w.clock, [], w.sequence, fresh⟩ w.db with
      | none =>
        rw [hw, Option.map_none, eq_comm, Option.map_eq_none_iff, hclock] at hexec
        rw [hclock] at hw
        simp [Program.execute, hfate, hw, hexec, hclock, hdb]
      | some x =>
        rw [hw, Option.map_some, eq_comm, Option.map_eq_some_iff] at hexec
        obtain ⟨⟨r, ws'⟩, hw', heq⟩ := hexec
        obtain ⟨hreply, hwrites⟩ := Prod.mk.inj heq
        obtain rfl : r = x.1 := hreply
        rw [hclock] at hw'
        rw [execute_stmt hfate hw, execute_stmt hfate hw']
        exact ih x.1 _ _ _ hclock hwrites.symm

variable {w w' : World T Db} {a : Attempt T Fresh Call}

/-- An attempt at a transaction in two worlds that agree otherwise: it ends in the same way, and in
databases that agree otherwise. -/
theorem transact_congr (h : E.Blind erase) (hdb : erase w.db = erase w'.db) :
    outcome E program w a = outcome E program w' a ∧
      erase (attempt E program w a).db = erase (attempt E program w' a).db := by
  obtain ⟨houtcome, hafter⟩ := execute_congr h (program a.call) a.fates
    { w with clock := a.now } { w' with clock := a.now } rfl hdb
  unfold outcome attempt transact
  rcases hw : (program a.call).execute E a.fates { w with clock := a.now } with ⟨o, v⟩
  rcases hw' : (program a.call).execute E a.fates { w' with clock := a.now } with ⟨o', v'⟩
  rw [hw, hw'] at houtcome hafter
  obtain rfl : o = o' := houtcome
  -- Only a commit that succeeds takes over the rows of the program.
  cases o with
  | committed r =>
    by_cases hcommits : a.commits = true
    · simpa [hcommits] using hafter
    · simpa [hcommits] using hdb
  | failed e => exact ⟨rfl, hdb⟩
  | aborted => exact ⟨rfl, hdb⟩

end Congr

/-- What the statements of a transaction keep, a transaction that runs alone keeps. -/
theorem execute_invariant {I : World T Db → Prop}
    (hexec : ∀ {s : Stmt} {w : World T Db} {fresh : Fresh} {r : Res s} {ws : List Write}, I w →
      E.exec s ⟨w.clock, [], w.sequence, fresh⟩ w.db = some (r, ws) →
        I { w with db := E.applyAll ws w.db, sequence := w.sequence + E.draws s })
    (p : Program Stmt Res ε α) (fates : ℕ → Option Fresh) {w : World T Db} (hw : I w) :
    I (p.execute E fates w).2 := by
  induction p generalizing fates w with
  | done a => exact hw
  | fail e => exact hw
  | stmt s k ih =>
    rw [Program.execute]
    split
    next => exact hw
    next fresh hfate =>
      split
      next => exact hw
      next r ws hreply => exact ih r _ (hexec hw hreply)

/-- So does an attempt at one, if time and drawn values do not matter. -/
theorem attempt_invariant {I : World T Db → Prop}
    (hexec : ∀ {s : Stmt} {w : World T Db} {fresh : Fresh} {r : Res s} {ws : List Write}, I w →
      E.exec s ⟨w.clock, [], w.sequence, fresh⟩ w.db = some (r, ws) →
        I { w with db := E.applyAll ws w.db, sequence := w.sequence + E.draws s })
    (helapse : ∀ {w : World T Db} {t : T} {n : ℕ}, I w → w.sequence ≤ n → I ⟨w.db, t, n⟩)
    {w : World T Db} (hw : I w) (a : Attempt T Fresh Call) : I (attempt E program w a) := by
  have hstart : I { w with clock := a.now } := helapse hw le_rfl
  have hend := execute_invariant hexec (program a.call) a.fates hstart
  have hle := execute_sequence_le (E := E) (program a.call) a.fates { w with clock := a.now }
  unfold attempt transact
  -- Rows that are rolled back are those of the beginning, with a later sequence.
  split
  next r w' hreply =>
    rw [hreply] at hend hle
    split
    next => exact hend
    next => exact helapse hw hle
  next o w' hne hreply =>
    rw [hreply] at hle
    exact helapse hw hle

end Transaction
