import Mathlib.Data.List.Lattice
import Mathlib.Order.Nat
import Mathlib.Logic.Relation
import PolyglotTicketing.Transaction.Server
import PolyglotTicketing.Transition.Run

/-!
# Rely-guarantee reasoning for transactions under row locks

A `Discipline` states an invariant of the committed rows and, for every operation, what a commit
of it guarantees, in terms of the locks it owns. While a transaction runs, the others can only do
what they guarantee, and only with locks it does not own: this is `Interference`. A program is
`Safe` if it meets its guarantee under any interference between its statements.

`sound_run` is the soundness theorem: if all programs are safe, then in every interleaving the
invariant holds and every commit meets its guarantee (`guar_of_commit`). A transaction that runs
alone is the special case without interference (`Safe.execute_committed`, `inv_attempt`).
-/

namespace Transaction

variable {T Db Write Key Fresh Stmt : Type} {Res : Stmt → Type} {ε α Call : Type} [LinearOrder T]

/-- An invariant of the committed rows, and what the commits of each operation guarantee. -/
structure Discipline (T Db Key α Call : Type) [LinearOrder T] where
  /-- The invariant. -/
  Inv : World T Db → Prop
  /-- `Guar call opened a held w db'`: a transaction `call` begun in the world `opened`, which
  returns `a` and owns the locks `held`, may turn the rows of `w` into `db'`. -/
  Guar : Call → World T Db → α → List Key → World T Db → Db → Prop
  /-- `Frame held db db'`: what a commit with the locks `held` leaves alone. -/
  Frame : List Key → Db → Db → Prop
  /-- The invariant survives the passing of time and the drawing of sequence values. -/
  inv_elapse : ∀ {w : World T Db} {c : T} {n : ℕ},
    Inv w → w.clock ≤ c → w.sequence ≤ n → Inv ⟨w.db, c, n⟩
  /-- The invariant survives the guaranteed commits. -/
  inv_commit : ∀ {call : Call} {opened : World T Db} {a : α} {held : List Key}
    {w : World T Db} {db' : Db}, Inv w → Guar call opened a held w db' → Inv { w with db := db' }
  /-- The guaranteed commits keep to their frame. -/
  frame : ∀ {call : Call} {opened : World T Db} {a : α} {held : List Key}
    {w : World T Db} {db' : Db}, Guar call opened a held w db' → Frame held w.db db'

namespace Discipline

variable (D : Discipline T Db Key α Call)

/-- One thing that can happen while a transaction owns the locks `held`. -/
inductive Interferes (held : List Key) : World T Db → World T Db → Prop
  /-- Time passes and sequence values are drawn. -/
  | elapse {w : World T Db} {c : T} {n : ℕ} (hc : w.clock ≤ c) (hn : w.sequence ≤ n) :
      Interferes held w ⟨w.db, c, n⟩
  /-- Another transaction commits; it owns other locks. -/
  | commit {w : World T Db} {call : Call} {opened : World T Db} {a : α} {others : List Key}
      {db' : Db} (hguar : D.Guar call opened a others w db') (hdisj : others.Disjoint held) :
      Interferes held w { w with db := db' }

/-- What can happen between two statements of a transaction that owns the locks `held`. -/
def Interference (held : List Key) : World T Db → World T Db → Prop :=
  Relation.ReflTransGen (D.Interferes held)

variable {D}

theorem Interferes.sequence_le {held : List Key} {w w' : World T Db}
    (h : D.Interferes held w w') : w.sequence ≤ w'.sequence := by
  cases h with
  | elapse hc hn => exact hn
  | commit hguar hdisj => exact le_rfl

/-- The identity sequence does not go back under interference. -/
theorem Interference.sequence_le {held : List Key} {w w' : World T Db}
    (h : D.Interference held w w') : w.sequence ≤ w'.sequence := by
  induction h with
  | refl => exact le_rfl
  | tail _ hstep ih => exact ih.trans hstep.sequence_le

variable (D) in
/-- No commit of a transaction without the locks `held` makes `P` false. -/
def Stable (held : List Key) (P : Db → Prop) : Prop :=
  ∀ (others : List Key) (db db' : Db), others.Disjoint held → D.Frame others db db' → P db → P db'

/-- What is stable survives interference. -/
theorem Stable.interference {held : List Key} {P : Db → Prop} (hP : D.Stable held P)
    {w w' : World T Db} (h : D.Interference held w w') (hw : P w.db) : P w'.db := by
  induction h with
  | refl => exact hw
  | tail _ hstep ih =>
    cases hstep with
    | elapse hc hn => exact ih
    | commit hguar hdisj => exact hP _ _ _ hdisj (D.frame hguar) ih

theorem Stable.and {held : List Key} {P Q : Db → Prop} (hP : D.Stable held P)
    (hQ : D.Stable held Q) : D.Stable held fun db => P db ∧ Q db :=
  fun others db db' hdisj hframe h =>
    ⟨hP others db db' hdisj hframe h.1, hQ others db db' hdisj hframe h.2⟩

variable (D) (E : Engine T Db Write Key Fresh Stmt Res)

/-- `Safe call opened p held pending w`: from the world `w`, whatever interferes, the program `p`
of a transaction with the locks `held` and the uncommitted writes `pending` can only commit what
its discipline guarantees. -/
def Safe (call : Call) (opened : World T Db) :
    Program Stmt Res ε α → List Key → List Write → World T Db → Prop
  | .done a, held, pending, w =>
    ∀ w', D.Interference held w w' → D.Inv w' → opened.clock ≤ w'.clock →
      D.Guar call opened a held w' (E.applyAll pending w'.db)
  | .fail _, _, _, _ => True
  | .stmt s k, held, pending, w =>
    ∀ w' (context : Context T Key Fresh) (r : Res s) (ws : List Write),
      D.Interference held w w' → D.Inv w' → opened.clock ≤ w'.clock →
      context.now = opened.clock → context.sequence = w'.sequence →
      E.exec s context (E.applyAll pending w'.db) = some (r, ws) →
      Safe call opened (k r) (held ++ E.locks s context (E.applyAll pending w'.db))
        (pending ++ ws) { w' with sequence := w'.sequence + E.draws s }

variable {D E} {call : Call} {opened : World T Db} {held : List Key} {pending : List Write}
  {w w' : World T Db}

/-- Safety survives interference. -/
theorem Safe.of_interference {p : Program Stmt Res ε α}
    (hsafe : D.Safe E call opened p held pending w) (h : D.Interference held w w') :
    D.Safe E call opened p held pending w' := by
  cases p with
  | done a => exact fun w'' h' => hsafe w'' (h.trans h')
  | fail e => trivial
  | stmt s k => exact fun w'' context r ws h' => hsafe w'' context r ws (h.trans h')

/-- A safe program that runs alone and commits meets its guarantee. -/
theorem Safe.execute_committed {p : Program Stmt Res ε α} {fates : ℕ → Option Fresh} {a : α}
    (hsafe : D.Safe E call opened p held pending w) (hinv : D.Inv w)
    (hclock : opened.clock = w.clock)
    (hexec : p.execute E fates { w with db := E.applyAll pending w.db } = (.committed a, w')) :
    ∃ held', D.Guar call opened a held' ⟨w.db, w.clock, w'.sequence⟩ w'.db := by
  -- What the transaction has written so far is part of the world that it sees.
  induction p generalizing held pending w fates with
  | done b =>
    obtain ⟨rfl, rfl⟩ : b = a ∧ { w with db := E.applyAll pending w.db } = w' := by
      simpa using hexec
    exact ⟨held, hsafe w .refl hinv hclock.le⟩
  | fail e => simp at hexec
  | stmt s k ih =>
    obtain ⟨fresh, r, ws, -, hreply, hrest⟩ := execute_stmt_cases (by simp) hexec
    have hnext := hsafe w ⟨w.clock, [], w.sequence, fresh⟩ r ws .refl hinv hclock.le hclock.symm
      rfl hreply
    have hinv' : D.Inv { w with sequence := w.sequence + E.draws s } :=
      D.inv_elapse hinv le_rfl (Nat.le_add_right _ _)
    exact ih r (w := { w with sequence := w.sequence + E.draws s }) hnext hinv' hclock
      (by simpa using hrest)

section Soundness

variable {program : Call → Program Stmt Res ε α}

variable (D E program) in
/-- All programs of the discipline are safe from every world of its invariant. -/
def AllSafe : Prop :=
  ∀ (call : Call) (w : World T Db), D.Inv w → D.Safe E call w (program call) [] [] w

/-- An attempt at a transaction on its own that commits meets its guarantee. -/
theorem guar_of_attempt (hall : D.AllSafe E program) {a : Attempt T Fresh Call} {r : α}
    (hinv : D.Inv { w with clock := a.now }) (hout : outcome E program w a = .committed r) :
    ∃ held, D.Guar a.call { w with clock := a.now } r held
      ⟨w.db, a.now, (attempt E program w a).sequence⟩ (attempt E program w a).db :=
  (hall a.call _ hinv).execute_committed hinv rfl (transact_committed hout)

/-- An attempt at a transaction on its own keeps the invariant. -/
theorem inv_attempt (hall : D.AllSafe E program) {a : Attempt T Fresh Call}
    (hinv : D.Inv { w with clock := a.now }) : D.Inv (attempt E program w a) := by
  have hlater : D.Inv ⟨w.db, a.now, (attempt E program w a).sequence⟩ :=
    D.inv_elapse (w := { w with clock := a.now }) hinv le_rfl (attempt_sequence_le E program w a)
  have hclock := attempt_clock E program w a
  -- Without a commit only the clock and the sequence go on.
  by_cases hcommit : ∃ r, outcome E program w a = .committed r
  · obtain ⟨r, hout⟩ := hcommit
    obtain ⟨held, hguar⟩ := guar_of_attempt hall hinv hout
    have hnext := D.inv_commit hlater hguar
    rwa [← hclock] at hnext
  · have hdb : (attempt E program w a).db = w.db :=
      attempt_db_of_not_committed fun r hr => hcommit ⟨r, hr⟩
    rwa [← hclock, ← hdb] at hlater

/-- What holds of a server in every interleaving of safe programs. -/
structure Sound (D : Discipline T Db Key α Call) (E : Engine T Db Write Key Fresh Stmt Res)
    (c : Server T Db Write Key Fresh Stmt Res ε α Call) : Prop where
  /-- The invariant of the committed rows. -/
  inv : D.Inv c.world
  /-- No lock has two owners. -/
  disjoint : ∀ (i j : ℕ) (s t : Session T Db Write Key Fresh Stmt Res ε α Call),
    c.sessions[i]? = some s → c.sessions[j]? = some t → i ≠ j → s.held.Disjoint t.held
  /-- No transaction began in the future. -/
  clock_le : ∀ (i : ℕ) (s : Session T Db Write Key Fresh Stmt Res ε α Call),
    c.sessions[i]? = some s → s.opened.clock ≤ c.world.clock
  /-- What is left of a running transaction is safe. -/
  safe : ∀ (i : ℕ) (s : Session T Db Write Key Fresh Stmt Res ε α Call)
    (p : Program Stmt Res ε α), c.sessions[i]? = some s → s.phase = .running p →
      D.Safe E s.call s.opened p s.held s.pending c.world
  /-- Every statement ran on rows of which the invariant held, with the time at which its
  transaction began as `NOW()`. -/
  seen : ∀ (i : ℕ) (s : Session T Db Write Key Fresh Stmt Res ε α Call)
    (x : Executed T Db Write Key Fresh Stmt Res), c.sessions[i]? = some s → x ∈ s.trace →
      D.Inv x.world ∧ s.opened.clock ≤ x.world.clock ∧ x.context.now = s.opened.clock

/-- A change of the clock or the identity sequence is interference for everybody. -/
private theorem interference_elapse (held : List Key) {c : T} {n : ℕ} (hc : w.clock ≤ c)
    (hn : w.sequence ≤ n) : D.Interference held w ⟨w.db, c, n⟩ :=
  .single (.elapse hc hn)

/-- A server on which no transaction has begun is sound. -/
theorem sound_init (hinv : D.Inv w) :
    Sound D E (⟨w, []⟩ : Server T Db Write Key Fresh Stmt Res ε α Call) where
  inv := hinv
  disjoint := by simp
  clock_le := by simp
  safe := by simp
  seen := by simp

/-- A commit meets its guarantee. -/
theorem Sound.guar_of_commit {c : Server T Db Write Key Fresh Stmt Res ε α Call}
    (hc : Sound D E c) {i : ℕ} {s : Session T Db Write Key Fresh Stmt Res ε α Call} {a : α}
    (hs : c.sessions[i]? = some s) (hphase : s.phase = .running (.done a)) :
    D.Guar s.call s.opened a s.held c.world (E.applyAll s.pending c.world.db) :=
  hc.safe i s _ hs hphase c.world .refl hc.inv (hc.clock_le i s hs)

/-- Putting another session in the place of the `i`-th one, in a world that the other sessions
can regard as interference, keeps a server sound. -/
private theorem Sound.set {c : Server T Db Write Key Fresh Stmt Res ε α Call} (hc : Sound D E c)
    {i : ℕ} {s s' : Session T Db Write Key Fresh Stmt Res ε α Call}
    (hs : c.sessions[i]? = some s)
    (hinv : D.Inv w) (hopened : s'.opened = s.opened) (hle : c.world.clock ≤ w.clock)
    (hheld : ∀ j t, c.sessions[j]? = some t → i ≠ j → s'.held.Disjoint t.held)
    (hworld : ∀ j t, c.sessions[j]? = some t → i ≠ j → D.Interference t.held c.world w)
    (hsafe : ∀ p, s'.phase = .running p → D.Safe E s'.call s'.opened p s'.held s'.pending w)
    (hseen : ∀ x ∈ s'.trace,
      D.Inv x.world ∧ s'.opened.clock ≤ x.world.clock ∧ x.context.now = s'.opened.clock) :
    Sound D E ⟨w, c.sessions.set i s'⟩ := by
  -- A session of the new server is either the new one or one of the old server.
  have hcases : ∀ {j t}, (c.sessions.set i s')[j]? = some t →
      (i = j ∧ t = s') ∨ (i ≠ j ∧ c.sessions[j]? = some t) := by
    intro j t ht
    rw [List.getElem?_set] at ht
    split at ht
    next hij =>
      split at ht
      next => exact Or.inl ⟨hij, (Option.some.inj ht).symm⟩
      next => simp at ht
    next hij => exact Or.inr ⟨hij, ht⟩
  refine ⟨hinv, ?_, ?_, ?_, ?_⟩
  · -- No lock has two owners: at most one of two sessions is the new one.
    intro j k t u ht hu hjk
    rcases hcases ht with ⟨hij, hts⟩ | ⟨hij, ht'⟩
    · rcases hcases hu with ⟨hik, -⟩ | ⟨hik, hu'⟩
      · exact absurd (hij.symm.trans hik) hjk
      · exact hts ▸ hheld k u hu' hik
    · rcases hcases hu with ⟨-, hus⟩ | ⟨-, hu'⟩
      · exact hus ▸ (hheld j t ht' hij).symm
      · exact hc.disjoint j k t u ht' hu' hjk
  · intro j t ht
    rcases hcases ht with ⟨-, rfl⟩ | ⟨-, ht'⟩
    · rw [hopened]
      exact (hc.clock_le i s hs).trans hle
    · exact (hc.clock_le j t ht').trans hle
  · -- What is left of the other sessions is safe, as the new world is interference for them.
    intro j t p ht hp
    rcases hcases ht with ⟨-, rfl⟩ | ⟨hij, ht'⟩
    · exact hsafe p hp
    · exact (hc.safe j t p ht' hp).of_interference (hworld j t ht' hij)
  · intro j t x ht hx
    rcases hcases ht with ⟨-, rfl⟩ | ⟨-, ht'⟩
    · exact hseen x hx
    · exact hc.seen j t x ht' hx

/-- Ending a session without a commit keeps a server sound. -/
private theorem Sound.close {c : Server T Db Write Key Fresh Stmt Res ε α Call}
    (hc : Sound D E c) {i : ℕ} {s : Session T Db Write Key Fresh Stmt Res ε α Call}
    (hs : c.sessions[i]? = some s) (o : Outcome ε α) : Sound D E (c.setSession i (s.close o)) := by
  refine hc.set hs hc.inv rfl le_rfl ?_ ?_ ?_ fun x hx => hc.seen i s x hs hx
  · intro j t _ _
    exact List.disjoint_nil_left _
  · intro j t _ _
    exact .refl
  · intro p hp
    simp [Session.close] at hp

/-- Beginning a transaction keeps a server sound. -/
private theorem Sound.start (hall : D.AllSafe E program)
    {c : Server T Db Write Key Fresh Stmt Res ε α Call} (hc : Sound D E c) (call : Call) :
    Sound D E { c with sessions := c.sessions ++ [Session.start program c.world call] } := by
  have hcases : ∀ {j t}, (c.sessions ++ [Session.start program c.world call])[j]? = some t →
      c.sessions[j]? = some t ∨
        (j = c.sessions.length ∧ t = Session.start program c.world call) := by
    intro j t ht
    rw [List.getElem?_append] at ht
    split at ht
    next => exact Or.inl ht
    next hge =>
      have hj : j - c.sessions.length = 0 := by
        by_contra hne
        rw [List.getElem?_eq_none (by simp; omega)] at ht
        simp at ht
      rw [hj] at ht
      exact Or.inr ⟨by omega, (by simpa using ht.symm)⟩
  refine ⟨hc.inv, ?_, ?_, ?_, ?_⟩
  · intro j k t u ht hu hjk
    rcases hcases ht with ht | ⟨rfl, rfl⟩
    · rcases hcases hu with hu | ⟨rfl, rfl⟩
      · exact hc.disjoint j k t u ht hu hjk
      · exact List.disjoint_nil_right _
    · exact List.disjoint_nil_left _
  · intro j t ht
    rcases hcases ht with ht | ⟨rfl, rfl⟩
    · exact hc.clock_le j t ht
    · exact le_rfl
  · intro j t p ht hp
    rcases hcases ht with ht | ⟨rfl, rfl⟩
    · exact hc.safe j t p ht hp
    · obtain rfl : program call = p := by simpa [Session.start] using hp
      exact hall call c.world hc.inv
  · intro j t x ht hx
    rcases hcases ht with ht | ⟨rfl, rfl⟩
    · exact hc.seen j t x ht hx
    · simp [Session.start] at hx

variable [DecidableEq Key]

/-- Every event keeps a server sound, if all programs are safe. -/
theorem sound_step (hall : D.AllSafe E program)
    {c : Server T Db Write Key Fresh Stmt Res ε α Call} (hc : Sound D E c)
    (e : Event T Fresh Call) : Sound D E (c.step E program e) := by
  have hsteps := Server.step_cases E program c e
  generalize c.step E program e = c' at hsteps ⊢
  cases hsteps with
  | stutter => exact hc
  | tick now hle =>
    refine ⟨D.inv_elapse hc.inv hle le_rfl, hc.disjoint, ?_, ?_, hc.seen⟩
    · intro i s hs
      exact (hc.clock_le i s hs).trans hle
    · intro i s p hs hp
      exact (hc.safe i s p hs hp).of_interference (interference_elapse _ hle le_rfl)
  | start call => exact hc.start hall call
  | statement i s q k context r ws hs hphase hnow hseq hfree hexec =>
    have hle : c.world.sequence ≤ c.world.sequence + E.draws q := Nat.le_add_right _ _
    refine hc.set hs (D.inv_elapse hc.inv le_rfl hle) rfl le_rfl ?_ ?_ ?_ ?_
    · intro j t ht hij
      -- It has the locks it had, and those that the statement takes, which nobody else owns.
      have hold := hc.disjoint i j s t hs ht hij
      refine List.disjoint_append_left.mpr ⟨hold, ?_⟩
      intro key hkey hheld
      exact hfree key hkey (Server.mem_lockedElsewhere.mpr ⟨j, t, hij.symm, ht, hheld⟩)
    · intro j t _ _
      exact interference_elapse _ le_rfl hle
    · intro p hp
      obtain rfl : k r = p := by simpa [Session.advance] using hp
      exact hc.safe i s _ hs hphase c.world context r ws .refl hc.inv (hc.clock_le i s hs)
        hnow hseq hexec
    · intro x hx
      rcases List.mem_append.mp hx with hx | hx
      · exact hc.seen i s x hs hx
      · obtain rfl := List.mem_singleton.mp hx
        exact ⟨hc.inv, hc.clock_le i s hs, hnow⟩
  | crash i s p hs hphase => exact hc.close hs .aborted
  | rollback i s e hs hphase => exact hc.close hs (.failed e)
  | commit i s a hs hphase =>
    -- For the others the commit is interference, with locks that they do not own.
    have hguar := hc.guar_of_commit hs hphase
    refine hc.set hs (D.inv_commit hc.inv hguar) rfl le_rfl ?_ ?_ ?_ ?_
    · intro j t _ _
      exact List.disjoint_nil_left _
    · intro j t ht hij
      exact .single (.commit hguar (hc.disjoint i j s t hs ht hij))
    · intro p hp
      simp [Session.close] at hp
    · intro x hx
      exact hc.seen i s x hs hx

/-- Soundness: in every interleaving of safe programs the invariant holds, locks have one owner
and every running transaction is safe. -/
theorem sound_run (hall : D.AllSafe E program)
    {c : Server T Db Write Key Fresh Stmt Res ε α Call} (hc : Sound D E c)
    (events : List (Event T Fresh Call)) :
    Sound D E (Transition.run (Server.step E program) c events) :=
  Transition.run_invariant (P := Sound D E) (fun _ e hs => sound_step hall hs e) hc events

end Soundness

end Discipline

end Transaction
