import PolyglotTicketing.Transaction.RelyGuarantee

/-!
# The history of a server

Rules for what holds of a server in every interleaving of safe programs, besides `sound_run`:

* `begun_run` and `world_run`: an invariant of the committed rows that the guarantees keep;
* `extend_run`: how the committed rows relate to what they become later;
* `committed_run`: what the commit of a transaction establishes and nothing undoes (`Lasting`);
* `settled_run`: how, besides, the results of two committed transactions relate;
* `faithful_run`: the trace of a session is a path through its program (`Follows`).
-/

namespace Transaction

variable {T Db Write Key Fresh Stmt : Type} {Res : Stmt → Type} {ε α Call : Type}

/-- Executing the statements of a trace takes the program `p` with the uncommitted writes `ws` to
the program `p'` with the uncommitted writes `ws'`. -/
inductive Follows (E : Engine T Db Write Key Fresh Stmt Res) :
    Program Stmt Res ε α → List Write → List (Executed T Db Write Key Fresh Stmt Res) →
      Program Stmt Res ε α → List Write → Prop
  /-- Nothing has been executed. -/
  | nil (p : Program Stmt Res ε α) (ws : List Write) : Follows E p ws [] p ws
  /-- The first statement got its reply. -/
  | cons {x : Executed T Db Write Key Fresh Stmt Res} {k : Res x.stmt → Program Stmt Res ε α}
      {trace : List (Executed T Db Write Key Fresh Stmt Res)} {p' : Program Stmt Res ε α}
      {vs ws' : List Write}
      (hexec : E.exec x.stmt x.context (E.applyAll x.written x.world.db) = some (x.reply, vs))
      (hrest : Follows E (k x.reply) (x.written ++ vs) trace p' ws') :
      Follows E (.stmt x.stmt k) x.written (x :: trace) p' ws'

/-- A trace can be extended by the next statement of the program. -/
theorem Follows.concat {E : Engine T Db Write Key Fresh Stmt Res} {p : Program Stmt Res ε α}
    {ws vs : List Write} {trace : List (Executed T Db Write Key Fresh Stmt Res)}
    {x : Executed T Db Write Key Fresh Stmt Res} {k : Res x.stmt → Program Stmt Res ε α}
    (h : Follows E p ws trace (.stmt x.stmt k) x.written)
    (hexec : E.exec x.stmt x.context (E.applyAll x.written x.world.db) = some (x.reply, vs)) :
    Follows E p ws (trace ++ [x]) (k x.reply) (x.written ++ vs) := by
  generalize hq : Program.stmt x.stmt k = q at h
  generalize hv : x.written = v at h
  -- The new statement comes after all others of the trace, so that the end of the trace is reached.
  induction h with
  | nil p ws =>
    subst hq hv
    exact .cons hexec (.nil _ _)
  | cons hexec' _ ih => exact .cons hexec' (ih hq hv)

/-- A program that is done has an empty trace. -/
theorem Follows.of_done {E : Engine T Db Write Key Fresh Stmt Res} {a : α} {ws ws' : List Write}
    {trace : List (Executed T Db Write Key Fresh Stmt Res)} {p : Program Stmt Res ε α}
    (h : Follows E (.done a) ws trace p ws') : trace = [] ∧ p = .done a ∧ ws' = ws := by
  cases h
  exact ⟨rfl, rfl, rfl⟩

/-- A program that has failed has an empty trace. -/
theorem Follows.of_fail {E : Engine T Db Write Key Fresh Stmt Res} {e : ε} {ws ws' : List Write}
    {trace : List (Executed T Db Write Key Fresh Stmt Res)} {p : Program Stmt Res ε α}
    (h : Follows E (.fail e) ws trace p ws') : trace = [] ∧ p = .fail e ∧ ws' = ws := by
  cases h
  exact ⟨rfl, rfl, rfl⟩

/-- The first step of a trace. -/
theorem Follows.of_stmt {E : Engine T Db Write Key Fresh Stmt Res} {s : Stmt}
    {k : Res s → Program Stmt Res ε α} {ws ws' : List Write}
    {trace : List (Executed T Db Write Key Fresh Stmt Res)} {p : Program Stmt Res ε α}
    (h : Follows E (.stmt s k) ws trace p ws') :
    (trace = [] ∧ p = .stmt s k ∧ ws' = ws) ∨
      ∃ w context r vs rest, trace = ⟨s, w, ws, context, r⟩ :: rest ∧
        E.exec s context (E.applyAll ws w.db) = some (r, vs) ∧
        Follows E (k r) (ws ++ vs) rest p ws' := by
  generalize hq : Program.stmt s k = q at h
  cases h with
  | nil => exact Or.inl ⟨rfl, rfl, rfl⟩
  | @cons x k' trace p vs ws' hexec hrest =>
    obtain ⟨q, w, ws, context, r⟩ := x
    cases hq
    exact Or.inr ⟨w, context, r, vs, trace, rfl, hexec, hrest⟩

namespace Session

/-- The program `p` and the uncommitted writes `ws` are what a session has left, or had left when
it ended. -/
def At (s : Session T Db Write Key Fresh Stmt Res ε α Call) (p : Program Stmt Res ε α)
    (ws : List Write) : Prop :=
  match s.phase with
  | .running q => q = p ∧ s.pending = ws
  | .ended (.committed a) => p = .done a ∧ s.pending = []
  | .ended (.failed e) => p = .fail e ∧ s.pending = []
  | .ended .aborted => s.pending = []

variable {s : Session T Db Write Key Fresh Stmt Res ε α Call} {p : Program Stmt Res ε α}
  {ws : List Write}

/-- A session that is done commits, unless it fails. -/
theorem At.of_done {a : α} (h : s.At (.done a) ws) :
    s.phase = .running (.done a) ∨ s.phase = .ended (.committed a) ∨ s.phase = .ended .aborted := by
  unfold At at h
  split at h <;> simp_all

/-- A session that gives up rolls back. -/
theorem At.of_fail {e : ε} (h : s.At (.fail e) ws) :
    s.phase = .running (.fail e) ∨ s.phase = .ended (.failed e) ∨ s.phase = .ended .aborted := by
  unfold At at h
  split at h <;> simp_all

/-- A session that has committed was done. -/
theorem At.eq_done {a : α} (h : s.At p ws) (hend : s.phase = .ended (.committed a)) :
    p = .done a := by
  unfold At at h
  rw [hend] at h
  exact h.1

/-- A session that has written nothing has nothing to commit. -/
theorem At.pending_eq_nil (h : s.At p []) : s.pending = [] := by
  unfold At at h
  split at h <;> simp_all

/-- What a session has left, and what it has written, is where its trace leads. -/
def Faithful (E : Engine T Db Write Key Fresh Stmt Res) (program : Call → Program Stmt Res ε α)
    (s : Session T Db Write Key Fresh Stmt Res ε α Call) : Prop :=
  ∃ p ws, Follows E (program s.call) [] s.trace p ws ∧ s.At p ws

end Session

section Run

variable {E : Engine T Db Write Key Fresh Stmt Res} {program : Call → Program Stmt Res ε α}
  [LinearOrder T]

/-- What holds of all sessions, and of one that takes the place of another. -/
theorem forall_mem_set {σ : Type} {l : List σ} {P : σ → Prop} {i : ℕ} {t : σ}
    (hl : ∀ s ∈ l, P s) (ht : P t) : ∀ s ∈ l.set i t, P s := by
  intro s hs
  rcases List.mem_or_eq_of_mem_set hs with hs | rfl
  · exact hl s hs
  · exact ht

/-- What an event does to the committed rows: nothing, or one session commits. -/
theorem Server.Steps.world_cases {c c' : Server T Db Write Key Fresh Stmt Res ε α Call}
    (h : Server.Steps E program c c') :
    (c'.world.db = c.world.db ∧ c.world.clock ≤ c'.world.clock ∧
        c.world.sequence ≤ c'.world.sequence) ∨
      ∃ (i : ℕ) (s : Session T Db Write Key Fresh Stmt Res ε α Call) (a : α),
        c.sessions[i]? = some s ∧ s.phase = .running (.done a) ∧
        c' = ⟨{ c.world with db := E.applyAll s.pending c.world.db },
          c.sessions.set i (s.close (.committed a))⟩ := by
  cases h with
  | stutter => exact Or.inl ⟨rfl, le_rfl, le_rfl⟩
  | tick now hle => exact Or.inl ⟨rfl, hle, le_rfl⟩
  | start call => exact Or.inl ⟨rfl, le_rfl, le_rfl⟩
  | statement => exact Or.inl ⟨rfl, le_rfl, Nat.le_add_right _ _⟩
  | crash => exact Or.inl ⟨rfl, le_rfl, le_rfl⟩
  | rollback => exact Or.inl ⟨rfl, le_rfl, le_rfl⟩
  | commit i s a hs hphase => exact Or.inr ⟨i, s, a, hs, hphase, rfl⟩

/-- Statements run in the current world. -/
theorem Server.Steps.seen {c c' : Server T Db Write Key Fresh Stmt Res ε α Call}
    (h : Server.Steps E program c c') {P : World T Db → Prop} (hP : P c.world)
    (hc : ∀ s ∈ c.sessions, ∀ x ∈ s.trace, P x.world) :
    ∀ s ∈ c'.sessions, ∀ x ∈ s.trace, P x.world := by
  cases h with
  | stutter => exact hc
  | tick => exact hc
  | start call =>
    intro s hs
    rcases List.mem_append.mp hs with hs | hs
    · exact hc s hs
    · obtain rfl := List.mem_singleton.mp hs
      simp [Session.start]
  | statement i s q k context r ws hs =>
    refine forall_mem_set hc fun x hx => ?_
    rcases List.mem_append.mp hx with hx | hx
    · exact hc s (List.mem_of_getElem? hs) x hx
    · obtain rfl := List.mem_singleton.mp hx
      exact hP
  | crash i s p hs => exact forall_mem_set hc (hc s (List.mem_of_getElem? hs))
  | rollback i s e hs => exact forall_mem_set hc (hc s (List.mem_of_getElem? hs))
  | commit i s a hs => exact forall_mem_set hc (hc s (List.mem_of_getElem? hs))

/-- The `i`-th session is `s`, and it has committed with the result `a`. -/
def Server.Committed (c : Server T Db Write Key Fresh Stmt Res ε α Call) (i : ℕ)
    (s : Session T Db Write Key Fresh Stmt Res ε α Call) (a : α) : Prop :=
  c.sessions[i]? = some s ∧ s.phase = .ended (.committed a)

/-- A session has committed before an event, or it commits with it. -/
theorem Server.Steps.committed_cases {c c' : Server T Db Write Key Fresh Stmt Res ε α Call}
    (h : Server.Steps E program c c') {i : ℕ}
    {s : Session T Db Write Key Fresh Stmt Res ε α Call} {a : α} (hcommitted : c'.Committed i s a) :
    c.Committed i s a ∨
      ∃ t, c.sessions[i]? = some t ∧ t.phase = .running (.done a) ∧ s = t.close (.committed a) ∧
        c' = ⟨{ c.world with db := E.applyAll t.pending c.world.db }, c.sessions.set i s⟩ := by
  obtain ⟨hs, hend⟩ := hcommitted
  -- The sessions of `c'` are those of `c`, up to one that has changed.
  have hset : ∀ {j : ℕ} {t : Session T Db Write Key Fresh Stmt Res ε α Call},
      (c.sessions.set j t)[i]? = some s → c.Committed i s a ∨ (j = i ∧ t = s) := by
    intro j t ht
    rw [List.getElem?_set] at ht
    split at ht
    next hji =>
      split at ht
      next => exact Or.inr ⟨hji, Option.some.inj ht⟩
      next => simp at ht
    next => exact Or.inl ⟨ht, hend⟩
  cases h with
  | stutter => exact Or.inl ⟨hs, hend⟩
  | tick => exact Or.inl ⟨hs, hend⟩
  | start call =>
    rw [List.getElem?_append] at hs
    split at hs
    next => exact Or.inl ⟨hs, hend⟩
    next =>
      obtain rfl := List.mem_singleton.mp (List.mem_of_getElem? hs)
      simp [Session.start] at hend
  | statement j t q k context r ws ht hphase =>
    rcases hset hs with hs | ⟨rfl, rfl⟩
    · exact Or.inl hs
    · simp [Session.advance] at hend
  | crash j t p ht hphase =>
    rcases hset hs with hs | ⟨rfl, rfl⟩
    · exact Or.inl hs
    · simp [Session.close] at hend
  | rollback j t e ht hphase =>
    rcases hset hs with hs | ⟨rfl, rfl⟩
    · exact Or.inl hs
    · simp [Session.close] at hend
  | commit j t b ht hphase =>
    rcases hset hs with hs | ⟨rfl, rfl⟩
    · exact Or.inl hs
    · obtain rfl : b = a := by simpa [Session.close] using hend
      exact Or.inr ⟨t, ht, hphase, rfl, rfl⟩

/-- What the `i`-th session returns to the caller of an operation. A caller whose session has not
ended gets no result. -/
def Server.returned [DecidableEq Call] (c : Server T Db Write Key Fresh Stmt Res ε α Call) (i : ℕ)
    (call : Call) : Outcome ε α :=
  match c.sessions[i]? with
  | none => .aborted
  | some s =>
    match s.phase with
    | .running _ => .aborted
    | .ended outcome => if s.call = call then outcome else .aborted

omit [LinearOrder T] in
/-- A result is that of a session which has committed. -/
theorem Server.exists_of_returned [DecidableEq Call]
    {c : Server T Db Write Key Fresh Stmt Res ε α Call} {i : ℕ} {call : Call} {a : α}
    (h : c.returned i call = .committed a) : ∃ s, s.call = call ∧ c.Committed i s a := by
  unfold returned at h
  split at h
  next => cases h
  next s hs =>
    split at h
    next => cases h
    next outcome hphase =>
      split at h
      next hcall => exact ⟨s, hcall, hs, by rw [hphase, h]⟩
      next => cases h

/-- A session that has committed stays as it is. -/
theorem Server.Committed.stays {c c' : Server T Db Write Key Fresh Stmt Res ε α Call} {i : ℕ}
    {s : Session T Db Write Key Fresh Stmt Res ε α Call} {a : α} (hcommitted : c.Committed i s a)
    (h : Server.Steps E program c c') : c'.Committed i s a := by
  obtain ⟨hs, hend⟩ := hcommitted
  -- Only sessions that are running change.
  have hset : ∀ {j : ℕ} {t t' : Session T Db Write Key Fresh Stmt Res ε α Call}
      {p : Program Stmt Res ε α}, c.sessions[j]? = some t → t.phase = .running p →
        (c.sessions.set j t')[i]? = some s := by
    intro j t t' p ht hphase
    rw [List.getElem?_set_ne, hs]
    rintro rfl
    obtain rfl := Option.some.inj (ht.symm.trans hs)
    rw [hend] at hphase
    cases hphase
  cases h with
  | stutter => exact ⟨hs, hend⟩
  | tick => exact ⟨hs, hend⟩
  | start call => exact ⟨List.getElem?_append_left (List.getElem?_eq_some_iff.mp hs).1 ▸ hs, hend⟩
  | statement j t q k context r ws ht hphase => exact ⟨hset ht hphase, hend⟩
  | crash j t p ht hphase => exact ⟨hset ht hphase, hend⟩
  | rollback j t e ht hphase => exact ⟨hset ht hphase, hend⟩
  | commit j t b ht hphase => exact ⟨hset ht hphase, hend⟩

variable [DecidableEq Key]

/-- What an event does to the committed rows: nothing, or it is the commit of a session. -/
theorem Server.step_world_cases (c : Server T Db Write Key Fresh Stmt Res ε α Call)
    (e : Event T Fresh Call) :
    (c.step E program e).world.db = c.world.db ∨
      ∃ (i : ℕ) (s : Session T Db Write Key Fresh Stmt Res ε α Call) (a : α), e = .finish i ∧
        c.sessions[i]? = some s ∧ s.phase = .running (.done a) ∧
        (c.step E program e).world.db = E.applyAll s.pending c.world.db := by
  cases e with
  | tick now =>
    left
    simp only [step]
    split <;> rfl
  | start call => exact Or.inl rfl
  | statement i fresh =>
    left
    simp only [step]
    repeat' split
    all_goals rfl
  | crash i =>
    left
    simp only [step]
    repeat' split
    all_goals rfl
  | finish i =>
    simp only [step]
    split
    next => exact Or.inl rfl
    next s hs =>
      split
      next a hphase => exact Or.inr ⟨i, s, a, rfl, hs, hphase, rfl⟩
      next => exact Or.inl rfl
      next => exact Or.inl rfl

/-- A session has been there before an event, with the same call and opened in the same world, or
it begins with it. -/
theorem Server.step_session_cases {c : Server T Db Write Key Fresh Stmt Res ε α Call}
    {e : Event T Fresh Call} {s : Session T Db Write Key Fresh Stmt Res ε α Call}
    (hs : s ∈ (c.step E program e).sessions) :
    (∃ t ∈ c.sessions, s.call = t.call ∧ s.opened = t.opened) ∨
      e = .start s.call ∧ s.opened = c.world := by
  -- The sessions after most events are those before, up to one that has gone on.
  have hset : ∀ {i t t'}, c.sessions[i]? = some t → s ∈ c.sessions.set i t' →
      t'.call = t.call → t'.opened = t.opened →
        ∃ t ∈ c.sessions, s.call = t.call ∧ s.opened = t.opened := by
    intro i t t' ht hs hcall hopened
    rcases List.mem_or_eq_of_mem_set hs with hs | rfl
    · exact ⟨s, hs, rfl, rfl⟩
    · exact ⟨t, List.mem_of_getElem? ht, hcall, hopened⟩
  cases e with
  | tick now =>
    left
    simp only [step] at hs
    split at hs <;> exact ⟨s, hs, rfl, rfl⟩
  | start call =>
    rcases List.mem_append.mp hs with hs | hs
    · exact Or.inl ⟨s, hs, rfl, rfl⟩
    · obtain rfl := List.mem_singleton.mp hs
      exact Or.inr ⟨rfl, rfl⟩
  | statement i fresh =>
    left
    simp only [step] at hs
    split at hs
    next => exact ⟨s, hs, rfl, rfl⟩
    next t ht =>
      split at hs
      next q k hphase =>
        split at hs
        next => exact ⟨s, hs, rfl, rfl⟩
        next =>
          split at hs
          next => exact hset ht hs rfl rfl
          next r ws hexec => exact hset ht hs rfl rfl
      next => exact ⟨s, hs, rfl, rfl⟩
  | crash i =>
    left
    simp only [step] at hs
    split at hs
    next => exact ⟨s, hs, rfl, rfl⟩
    next t ht =>
      split at hs
      next => exact hset ht hs rfl rfl
      next => exact ⟨s, hs, rfl, rfl⟩
  | finish i =>
    left
    simp only [step] at hs
    split at hs
    next => exact ⟨s, hs, rfl, rfl⟩
    next t ht =>
      split at hs
      next a hphase => exact hset ht hs rfl rfl
      next e hphase => exact hset ht hs rfl rfl
      next => exact ⟨s, hs, rfl, rfl⟩

/-- Every event keeps the sessions faithful to their programs. -/
theorem faithful_step {c : Server T Db Write Key Fresh Stmt Res ε α Call}
    (hc : ∀ s ∈ c.sessions, s.Faithful E program) (e : Event T Fresh Call) :
    ∀ s ∈ (c.step E program e).sessions, s.Faithful E program := by
  have hsteps := Server.step_cases E program c e
  generalize c.step E program e = c' at hsteps ⊢
  cases hsteps with
  | stutter => exact hc
  | tick now hle => exact hc
  | start call =>
    intro s hs
    rcases List.mem_append.mp hs with hs | hs
    · exact hc s hs
    · obtain rfl := List.mem_singleton.mp hs
      exact ⟨program call, [], .nil _ _, rfl, rfl⟩
  | statement i s q k context r ws hs hphase hnow hseq hfree hexec =>
    -- The session was at this statement, so that its trace goes on with it.
    obtain ⟨p, vs, hfollows, hat⟩ := hc s (List.mem_of_getElem? hs)
    rw [Session.At, hphase] at hat
    obtain ⟨rfl, rfl⟩ := hat
    refine forall_mem_set hc ⟨k r, s.pending ++ ws, ?_, rfl, rfl⟩
    exact Follows.concat (x := ⟨q, c.world, s.pending, context, r⟩) hfollows hexec
  | crash i s p hs hphase =>
    obtain ⟨p, vs, hfollows, -⟩ := hc s (List.mem_of_getElem? hs)
    exact forall_mem_set hc ⟨p, vs, hfollows, rfl⟩
  | rollback i s e hs hphase =>
    obtain ⟨p, vs, hfollows, hat⟩ := hc s (List.mem_of_getElem? hs)
    rw [Session.At, hphase] at hat
    exact forall_mem_set hc ⟨p, vs, hfollows, hat.1.symm, rfl⟩
  | commit i s a hs hphase =>
    obtain ⟨p, vs, hfollows, hat⟩ := hc s (List.mem_of_getElem? hs)
    rw [Session.At, hphase] at hat
    exact forall_mem_set hc ⟨p, vs, hfollows, hat.1.symm, rfl⟩

/-- In every interleaving, each session has followed its program. -/
theorem faithful_run (w : World T Db) (events : List (Event T Fresh Call)) :
    ∀ s ∈ (Transition.run (Server.step E program) ⟨w, []⟩ events).sessions,
      s.Faithful E program :=
  Transition.run_invariant
    (P := fun c : Server T Db Write Key Fresh Stmt Res ε α Call =>
      ∀ s ∈ c.sessions, s.Faithful E program)
    (fun _ e hc => faithful_step hc e) (by simp) events

namespace Discipline

variable {D : Discipline T Db Key α Call} {w : World T Db}

/-- An invariant of the committed rows that time and the guaranteed commits of the operations
`A` keep holds in every interleaving of safe programs that begins only such operations, now and when
any of the statements ran. -/
theorem begun_run (hall : D.AllSafe E program) (hinv : D.Inv w) {A : Call → Prop}
    {P : World T Db → Prop}
    (helapse : ∀ {w : World T Db} {t : T} {n : ℕ},
      P w → w.clock ≤ t → w.sequence ≤ n → P ⟨w.db, t, n⟩)
    (hcommit : ∀ {call opened a held} {w : World T Db} {db'},
      A call → D.Inv w → P w → D.Guar call opened a held w db' → P { w with db := db' })
    (hw : P w) {events : List (Event T Fresh Call)}
    (hevents : ∀ call, .start call ∈ events → A call) :
    P (Transition.run (Server.step E program) ⟨w, []⟩ events).world ∧
      ∀ s ∈ (Transition.run (Server.step E program) ⟨w, []⟩ events).sessions, ∀ x ∈ s.trace,
        P x.world := by
  have hlabels : Transition.EachStep (Server.step E program)
      (fun _ e => ∀ call, e = .start call → A call) ⟨w, []⟩ events := by
    refine Transition.eachStep_of_forall
      (C := fun e : Event T Fresh Call => ∀ call, e = .start call → A call) ?_ _
    rintro e he call rfl
    exact hevents call he
  -- The invariant: the server is sound, has begun such operations only, and `P` holds now and held
  -- whenever a statement ran.
  refine (Transition.run_induction (P := fun c : Server T Db Write Key Fresh Stmt Res ε α Call =>
    Sound D E c ∧ (∀ s ∈ c.sessions, A s.call) ∧ P c.world ∧
      ∀ s ∈ c.sessions, ∀ x ∈ s.trace, P x.world) ?_ ?_ hlabels).2.2
  · rintro c e ⟨hsound, hcalls, hP, hseen⟩ hstart
    have hsteps := Server.step_cases E program c e
    refine ⟨sound_step hall hsound e, ?_, ?_, hsteps.seen hP hseen⟩
    · intro s hs
      rcases Server.step_session_cases hs with ⟨t, ht, hcall, -⟩ | ⟨heq, -⟩
      · exact hcall ▸ hcalls t ht
      · exact hstart s.call heq
    · rcases hsteps.world_cases with ⟨hdb, hle, hseq⟩ | ⟨i, s, a, hs, hphase, heq⟩
      · have hnext := helapse hP hle hseq
        rwa [← hdb] at hnext
      · rw [heq]
        exact hcommit (hcalls s (List.mem_of_getElem? hs)) hsound.inv hP
          (hsound.guar_of_commit hs hphase)
  · exact ⟨sound_init hinv, by simp, hw, by simp⟩

/-- The rule for runs that may begin any operation. -/
theorem world_run (hall : D.AllSafe E program) (hinv : D.Inv w) {P : World T Db → Prop}
    (helapse : ∀ {w : World T Db} {t : T} {n : ℕ},
      P w → w.clock ≤ t → w.sequence ≤ n → P ⟨w.db, t, n⟩)
    (hcommit : ∀ {call opened a held} {w : World T Db} {db'},
      D.Inv w → P w → D.Guar call opened a held w db' → P { w with db := db' })
    (hw : P w) (events : List (Event T Fresh Call)) :
    P (Transition.run (Server.step E program) ⟨w, []⟩ events).world ∧
      ∀ s ∈ (Transition.run (Server.step E program) ⟨w, []⟩ events).sessions, ∀ x ∈ s.trace,
        P x.world :=
  begun_run (A := fun _ => True) hall hinv helapse (fun _ => hcommit) hw fun _ _ => trivial

/-- What all guaranteed commits do to the committed rows, a run does. -/
theorem extend_run (hall : D.AllSafe E program) {G : Db → Db → Prop} (hrefl : ∀ db, G db db)
    (htrans : ∀ {db db' db''}, G db db' → G db' db'' → G db db'')
    (hcommit : ∀ {call opened a held} {w : World T Db} {db'},
      D.Inv w → D.Guar call opened a held w db' → G w.db db')
    {c : Server T Db Write Key Fresh Stmt Res ε α Call} (hc : Sound D E c)
    (later : List (Event T Fresh Call)) :
    G c.world.db (Transition.run (Server.step E program) c later).world.db := by
  refine (Transition.run_invariant (P := fun c' : Server T Db Write Key Fresh Stmt Res ε α Call =>
    Sound D E c' ∧ G c.world.db c'.world.db) ?_ ⟨hc, hrefl _⟩ later).2
  rintro c' e ⟨hsound, hgrown⟩
  refine ⟨sound_step hall hsound e, ?_⟩
  -- Only a commit changes the rows, and it does so as its guarantee says.
  rcases (Server.step_cases E program c' e).world_cases with
    ⟨hdb, -, -⟩ | ⟨i, s, a, hs, hphase, heq⟩
  · rwa [hdb]
  · rw [heq]
    exact htrans hgrown (hcommit hsound.inv (hsound.guar_of_commit hs hphase))

/-- `Q call opened a w`: what the commit of a transaction establishes, and neither time nor later
commits undo. -/
structure Lasting (D : Discipline T Db Key α Call)
    (Q : Call → World T Db → α → World T Db → Prop) : Prop where
  /-- A commit establishes it. -/
  done : ∀ {call : Call} {opened : World T Db} {a : α} {held : List Key} {w : World T Db}
      {db' : Db},
    D.Inv w → D.Guar call opened a held w db' → Q call opened a { w with db := db' }
  /-- Time does not undo it. -/
  elapse : ∀ {call : Call} {opened : World T Db} {a : α} {w : World T Db} {t : T} {n : ℕ},
    Q call opened a w → w.clock ≤ t → w.sequence ≤ n → Q call opened a ⟨w.db, t, n⟩
  /-- Later commits do not undo it. -/
  commit : ∀ {call : Call} {opened : World T Db} {a : α} {call' : Call} {opened' : World T Db}
      {a' : α} {held : List Key} {w : World T Db} {db' : Db},
    D.Inv w → Q call opened a w → D.Guar call' opened' a' held w db' →
      Q call opened a { w with db := db' }

/-- On a server of safe programs, what commits establish holds of the sessions that have
committed. -/
structure Settled (D : Discipline T Db Key α Call) (E : Engine T Db Write Key Fresh Stmt Res)
    (Q : Call → World T Db → α → World T Db → Prop) (R : Call → α → Call → α → Prop)
    (c : Server T Db Write Key Fresh Stmt Res ε α Call) : Prop where
  sound : Sound D E c
  each : ∀ {i : ℕ} {s : Session T Db Write Key Fresh Stmt Res ε α Call} {a : α},
    c.Committed i s a → Q s.call s.opened a c.world
  pair : ∀ {i j : ℕ} {s t : Session T Db Write Key Fresh Stmt Res ε α Call} {a b : α}, i ≠ j →
    c.Committed i s a → c.Committed j t b → R s.call a t.call b

variable {Q : Call → World T Db → α → World T Db → Prop} {R : Call → α → Call → α → Prop}

/-- Every event keeps a server settled, if `R` holds, both ways, between a transaction that
commits and all that have committed before. -/
theorem settled_step (hall : D.AllSafe E program) (hQ : D.Lasting Q)
    (hR : ∀ {call opened a call' opened' a' held} {w : World T Db} {db'},
      D.Inv w → Q call opened a w → D.Guar call' opened' a' held w db' →
        R call a call' a' ∧ R call' a' call a)
    {c : Server T Db Write Key Fresh Stmt Res ε α Call} (hc : Settled D E Q R c)
    (e : Event T Fresh Call) : Settled D E Q R (c.step E program e) := by
  have hsteps := Server.step_cases E program c e
  refine ⟨sound_step hall hc.sound e, ?_, ?_⟩
  · intro i s a hs
    rcases hsteps.committed_cases hs with hold | ⟨t, ht, hphase, rfl, heq⟩
    · -- It has committed before: time and the commit of another session leave it as it is.
      rcases hsteps.world_cases with ⟨hdb, hle, hseq⟩ | ⟨j, t, b, ht, hphase, heq⟩
      · have hnext := hQ.elapse (hc.each hold) hle hseq
        rwa [← hdb] at hnext
      · rw [heq]
        exact hQ.commit hc.sound.inv (hc.each hold) (hc.sound.guar_of_commit ht hphase)
    · rw [heq]
      exact hQ.done hc.sound.inv (hc.sound.guar_of_commit ht hphase)
  · -- Of two sessions, both have committed before, or one of them commits now.
    intro i j s t a b hij hs ht
    rcases hsteps.committed_cases hs with holds | ⟨s₀, hs₀, hphases, rfl, heqs⟩
    · rcases hsteps.committed_cases ht with holdt | ⟨t₀, ht₀, hphaset, rfl, -⟩
      · exact hc.pair hij holds holdt
      · exact (hR hc.sound.inv (hc.each holds) (hc.sound.guar_of_commit ht₀ hphaset)).1
    · rcases hsteps.committed_cases ht with holdt | ⟨t₀, ht₀, hphaset, rfl, -⟩
      · exact (hR hc.sound.inv (hc.each holdt) (hc.sound.guar_of_commit hs₀ hphases)).2
      · -- Only one session can commit at a time.
        have hstill : (c.step E program e).sessions[j]? = some t₀ := by
          rw [heqs, List.getElem?_set_ne hij, ht₀]
        have heq := Option.some.inj (hstill.symm.trans ht.1)
        rw [heq] at hphaset
        simp [Session.close] at hphaset

/-- In every interleaving of safe programs, what commits establish holds of the sessions that have
committed. -/
theorem settled_run (hall : D.AllSafe E program) (hinv : D.Inv w) (hQ : D.Lasting Q)
    (hR : ∀ {call opened a call' opened' a' held} {w : World T Db} {db'},
      D.Inv w → Q call opened a w → D.Guar call' opened' a' held w db' →
        R call a call' a' ∧ R call' a' call a)
    (events : List (Event T Fresh Call)) :
    Settled D E Q R (Transition.run (Server.step E program) ⟨w, []⟩ events) := by
  refine Transition.run_invariant (P := Settled D E Q R)
    (fun c e hc => settled_step hall hQ hR hc e) ⟨sound_init hinv, ?_, ?_⟩ events
  · intro i s a hs
    simp [Server.Committed] at hs
  · intro i j s t a b hij hs
    simp [Server.Committed] at hs

/-- The rule for one session at a time. -/
theorem committed_run (hall : D.AllSafe E program) (hinv : D.Inv w) (hQ : D.Lasting Q)
    (events : List (Event T Fresh Call)) {i : ℕ}
    {s : Session T Db Write Key Fresh Stmt Res ε α Call} {a : α}
    (hs : (Transition.run (Server.step E program) ⟨w, []⟩ events).Committed i s a) :
    Q s.call s.opened a (Transition.run (Server.step E program) ⟨w, []⟩ events).world :=
  (settled_run (R := fun _ _ _ _ => True) hall hinv hQ (fun _ _ _ => ⟨trivial, trivial⟩)
    events).each hs

end Discipline

end Run

end Transaction
