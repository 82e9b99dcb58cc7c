import PolyglotTicketing.Outbox.Operations
import PolyglotTicketing.Transaction.Erasure

/-!
# The common tables of the services

`Layout` is what the databases of the three services have in common. A statement of a service adds a
row to the outbox (`Announces`), or has nothing to do with it (`Ignores`). If all statements do one
or the other, then no reply depends on the identity column (`Layout.blind`), and the column grows
with the rows (`Layout.increasing`).
-/

namespace Outbox

open Platform Relational Transaction

/-- Where the common tables are in the database of a service, and which event an operation
handles. -/
structure Layout (Db Call π : Type) where
  outbox : Db → Table (OutboxEvent π)
  withOutbox : Db → Table (OutboxEvent π) → Db
  processedEvents : Db → List Uuid
  eventID? : Call → Option Uuid
  outbox_withOutbox : ∀ db t, outbox (withOutbox db t) = t
  withOutbox_outbox : ∀ db, withOutbox db (outbox db) = db
  withOutbox_withOutbox : ∀ db t t', withOutbox (withOutbox db t) t' = withOutbox db t'
  processedEvents_withOutbox : ∀ db t, processedEvents (withOutbox db t) = processedEvents db

namespace Layout

variable {Db Write Key Stmt : Type} {Res : Stmt → Type} {Call π : Type}
variable (L : Layout Db Call π) (E : Engine Int Db Write Key Fresh Stmt Res)

/-- The database without the values of the identity column of its outbox. -/
def erase (db : Db) : Db := L.withOutbox db (forget (L.outbox db))

/-- A written row does not go to the outbox. -/
def Elsewhere (x : Write) : Prop :=
  ∀ db t, E.apply (L.withOutbox db t) x = L.withOutbox (E.apply db x) t

/-- A statement adds a row to the outbox, with the next value of the identity column. -/
structure Announces (s : Stmt) (r : Res s) (subject : String) (payload : Uuid → Int → π)
    (write : OutboxEvent π → Write) : Prop where
  draws : E.draws s = 1
  apply : ∀ db e, E.apply db (write e) = L.withOutbox db ((L.outbox db).insert e)
  exec : ∀ (context : Context Int Key Fresh) db, E.exec s context db =
    if ((L.outbox db).find? context.fresh.id).isNone then
      some (r, [write (OutboxEvent.write subject payload context.sequence context.fresh)])
    else none

/-- A statement has nothing to do with the outbox. -/
structure Ignores (s : Stmt) : Prop where
  exec : ∀ (context : Context Int Key Fresh) db t n,
    E.exec s { context with sequence := n } (L.withOutbox db t) = E.exec s context db
  elsewhere : ∀ {context : Context Int Key Fresh} {db r ws}, E.exec s context db = some (r, ws) →
    ∀ x ∈ ws, L.Elsewhere E x

/-- A statement does one or the other. -/
def Separates (s : Stmt) : Prop :=
  L.Ignores E s ∨ ∃ r subject payload write, L.Announces E s r subject payload write

variable {L E} {s : Stmt}

/-- What is written elsewhere leaves the outbox as it is. -/
theorem applyAll_elsewhere {ws : List Write} (h : ∀ x ∈ ws, L.Elsewhere E x) (db : Db)
    (t : Table (OutboxEvent π)) :
    E.applyAll ws (L.withOutbox db t) = L.withOutbox (E.applyAll ws db) t := by
  induction ws generalizing db with
  | nil => rfl
  | cons x ws ih =>
    rw [Engine.applyAll_cons, h x List.mem_cons_self db t,
      ih (fun y hy => h y (List.mem_cons_of_mem x hy)) (E.apply db x), Engine.applyAll_cons]

theorem outbox_applyAll_elsewhere {ws : List Write} (h : ∀ x ∈ ws, L.Elsewhere E x) (db : Db) :
    L.outbox (E.applyAll ws db) = L.outbox db := by
  have heq := applyAll_elsewhere h db (L.outbox db)
  rw [L.withOutbox_outbox] at heq
  rw [heq, L.outbox_withOutbox]

/-- Erasing before something is written elsewhere is as good as erasing after it. -/
theorem erase_applyAll_elsewhere {ws : List Write} (h : ∀ x ∈ ws, L.Elsewhere E x) (db : Db) :
    L.erase (E.applyAll ws (L.erase db)) = L.erase (E.applyAll ws db) := by
  rw [erase, erase, erase, applyAll_elsewhere h, L.outbox_withOutbox, L.withOutbox_withOutbox,
    forget_forget, outbox_applyAll_elsewhere h]

/-- A database with another row in its outbox. -/
theorem erase_insert (db : Db) {e e' : OutboxEvent π} (he : forgetRow e = forgetRow e') :
    L.erase (L.withOutbox db ((L.outbox db).insert e)) =
      L.erase (L.withOutbox (L.erase db) ((L.outbox (L.erase db)).insert e')) := by
  simp only [erase, L.outbox_withOutbox, L.withOutbox_withOutbox]
  rw [forget_insert_congr forget_forget.symm he]

/-- The same identifiers are taken in an outbox without the values of its identity column. -/
theorem find?_outbox_erase (db : Db) (id : Uuid) :
    ((L.outbox (L.erase db)).find? id).isNone = ((L.outbox db).find? id).isNone := by
  rw [erase, L.outbox_withOutbox, find?_forget, Option.isNone_map]

/-- No reply depends on the identity column. -/
theorem blind (h : ∀ s, L.Separates E s) : E.Blind L.erase where
  exec := by
    intro s context db
    rcases h s with hignores | ⟨r, subject, payload, write, hannounces⟩
    · -- The statement does not see the outbox, and leaves it alone.
      have hsame : E.exec s { context with sequence := 0 } (L.erase db) = E.exec s context db :=
        hignores.exec context db _ 0
      rw [hsame]
      cases hexec : E.exec s context db with
      | none => rfl
      | some x => simp [erase_applyAll_elsewhere (hignores.elsewhere hexec)]
    · -- The row is refused in both databases, or added to both, with values that `erase` blanks
      -- out.
      rw [hannounces.exec, hannounces.exec, find?_outbox_erase]
      split
      next =>
        simp only [Option.map_some, Engine.applyAll_cons, Engine.applyAll_nil, hannounces.apply]
        exact congrArg (fun db' => some (r, db')) (erase_insert db rfl)
      next => rfl

/-- The identity column grows with the rows. -/
theorem increasing (h : L.Separates E s) {w : World Int Db} {fresh : Fresh} {r : Res s}
    {ws : List Write} (hw : Increasing (L.outbox w.db) w.sequence)
    (hexec : E.exec s ⟨w.clock, [], w.sequence, fresh⟩ w.db = some (r, ws)) :
    Increasing (L.outbox (E.applyAll ws w.db)) (w.sequence + E.draws s) := by
  rcases h with hignores | ⟨r', subject, payload, write, hannounces⟩
  · rw [outbox_applyAll_elsewhere (hignores.elsewhere hexec)]
    exact hw.mono (Nat.le_add_right w.sequence (E.draws s))
  · rw [hannounces.exec] at hexec
    -- A row gets the next value, and one that is refused ends the statement.
    split at hexec
    next hnew =>
      cases hexec
      rw [Engine.applyAll_cons, Engine.applyAll_nil, hannounces.apply, L.outbox_withOutbox,
        hannounces.draws]
      exact hw.insert (Option.isNone_iff_eq_none.mp hnew) rfl
    next => cases hexec

end Layout

end Outbox
