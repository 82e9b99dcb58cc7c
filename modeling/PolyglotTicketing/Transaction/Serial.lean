import PolyglotTicketing.Transaction.RelyGuarantee

/-!
# Serial runs

Transactions that are attempted one after the other, each of which may fail at any statement or at
its commit. `Discipline.attempt_cases` says what an attempt at a safe program does.
-/

namespace Transaction

variable {T Db Write Key Fresh Stmt : Type} {Res : Stmt → Type} {ε α Call : Type}

/-- An attempt at a transaction commits. -/
def Commits (E : Engine T Db Write Key Fresh Stmt Res) (program : Call → Program Stmt Res ε α)
    (w : World T Db) (a : Attempt T Fresh Call) : Prop :=
  ∃ r, outcome E program w a = .committed r

instance (E : Engine T Db Write Key Fresh Stmt Res) (program : Call → Program Stmt Res ε α)
    (w : World T Db) (a : Attempt T Fresh Call) : Decidable (Commits E program w a) :=
  match h : outcome E program w a with
  | .committed r => isTrue ⟨r, h⟩
  | .failed _ => isFalse (by rintro ⟨r, hr⟩; simp [h] at hr)
  | .aborted => isFalse (by rintro ⟨r, hr⟩; simp [h] at hr)

/-- No statement of an attempt fails by itself, and neither does its commit. -/
structure Attempt.Healthy (a : Attempt T Fresh Call) : Prop where
  fates : ∀ n, ∃ fresh, a.fates n = some fresh
  commits : a.commits = true

variable {E : Engine T Db Write Key Fresh Stmt Res} {program : Call → Program Stmt Res ε α}
  {w : World T Db} {a : Attempt T Fresh Call}

/-- A healthy attempt commits if its program is done. -/
theorem Attempt.Healthy.commits_of_execute (ha : a.Healthy) {r : α}
    (h : ((program a.call).execute E a.fates { w with clock := a.now }).1 = .committed r) :
    Commits E program w a := by
  rcases hexec : (program a.call).execute E a.fates { w with clock := a.now } with ⟨o, w'⟩
  rw [hexec] at h
  obtain rfl : o = .committed r := h
  exact ⟨r, by simp [outcome, transact, hexec, ha.commits]⟩

/-- An attempt does not commit if its program fails. -/
theorem not_commits_of_execute {e : ε}
    (h : ((program a.call).execute E a.fates { w with clock := a.now }).1 = .failed e) :
    ¬Commits E program w a := by
  rintro ⟨r, hr⟩
  simp [transact_committed hr] at h

/-- A program that does not fail after its first statement does not fail. -/
theorem execute_stmt_ne_failed {s : Stmt} {k : Res s → Program Stmt Res ε α}
    {fates : ℕ → Option Fresh} {e : ε}
    (h : ∀ fresh r ws, E.exec s ⟨w.clock, [], w.sequence, fresh⟩ w.db = some (r, ws) →
      ((k r).execute E (fun n => fates (n + 1))
        { w with db := E.applyAll ws w.db, sequence := w.sequence + E.draws s }).1 ≠ .failed e) :
    ((Program.stmt s k).execute E fates w).1 ≠ .failed e := by
  rw [Program.execute]
  split
  next => simp
  next fresh hfate =>
    split
    next => simp
    next r ws hexec => exact h fresh r ws hexec

/-- An attempt fails with an error exactly if its program does. -/
theorem outcome_eq_failed_iff {e : ε} : outcome E program w a = .failed e ↔
    ((program a.call).execute E a.fates { w with clock := a.now }).1 = .failed e := by
  unfold outcome transact
  split
  next r w' hexec =>
    rw [hexec]
    split <;> simp
  next o w' hne hexec => rw [hexec]

/-- What an attempt at a safe program does to the rows: nothing, or what is guaranteed. -/
theorem Discipline.attempt_cases [LinearOrder T] {D : Discipline T Db Key α Call}
    (hall : D.AllSafe E program) (hinv : D.Inv { w with clock := a.now }) :
    (¬Commits E program w a ∧ (attempt E program w a).db = w.db) ∨
      ∃ r held n, D.Guar a.call { w with clock := a.now } r held ⟨w.db, a.now, n⟩
        (attempt E program w a).db := by
  -- A program that does not commit has changed no row.
  by_cases hcommit : Commits E program w a
  · obtain ⟨r, hout⟩ := hcommit
    obtain ⟨held, hguar⟩ := D.guar_of_attempt hall hinv hout
    exact Or.inr ⟨r, held, _, hguar⟩
  · exact Or.inl ⟨hcommit, attempt_db_of_not_committed fun r hr => hcommit ⟨r, hr⟩⟩

end Transaction
