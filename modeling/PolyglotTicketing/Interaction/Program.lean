import Mathlib.Data.List.Basic

/-!
# Programs that call others

A program calls its environment, goes on with each answer, and may catch what is thrown. An
environment answers as it likes, with everything in mind that it has been asked before.

`Program.Triple P Q past p` is a logic of such programs: whatever the answers, `P` holds of every
call that `p` makes and `Q` of the way it ends, if the calls before it were `past`. Its rules are
those of the constructs of a program (`triple_bind`, `triple_tryCatch`), and `Triple.call` and
`Triple.run` say what it means for a run.
-/

namespace Interaction

/-- A program whose calls `r` have answers of type `Rep r` or exceptions of type `ε`. -/
inductive Program (Req : Type) (Rep : Req → Type) (ε α : Type) where
  | done (a : α)
  | throw (e : ε)
  | call (r : Req) (k : Except ε (Rep r) → Program Req Rep ε α)

/-- A call that has been answered. -/
structure Exchange (Req : Type) (Rep : Req → Type) (ε : Type) where
  request : Req
  answer : Except ε (Rep request)

/-- What answers the calls: it may depend on all earlier ones. -/
abbrev Environment (Req : Type) (Rep : Req → Type) (ε : Type) :=
  List (Exchange Req Rep ε) → (r : Req) → Except ε (Rep r)

section Except

variable {ε ε' α β : Type}

/-- A computation in two parts succeeds only if both of them do. -/
theorem exists_of_bind {r : Except ε α} {f : α → Except ε β} {b : β} (h : r.bind f = .ok b) :
    ∃ a, r = .ok a ∧ f a = .ok b := by
  cases r with
  | ok a => exact ⟨a, rfl, h⟩
  | error e => cases h

/-- The translation of exceptions leaves a success alone. -/
theorem ok_of_mapError {r : Except ε α} {f : ε → ε'} {a : α} (h : r.mapError f = .ok a) :
    r = .ok a := by
  cases r with
  | ok a' => exact congrArg Except.ok (Except.ok.inj h)
  | error e => cases h

end Except

namespace Program

variable {Req : Type} {Rep : Req → Type} {ε ε' α β : Type}

/-- Go on with `f` where the first program is done. -/
def bind : Program Req Rep ε α → (α → Program Req Rep ε β) → Program Req Rep ε β
  | .done a, f => f a
  | .throw e, _ => .throw e
  | .call r k, f => .call r fun answer => (k answer).bind f

/-- Go on with `f` where the first program throws. -/
def tryCatch : Program Req Rep ε α → (ε → Program Req Rep ε α) → Program Req Rep ε α
  | .done a, _ => .done a
  | .throw e, f => f e
  | .call r k, f => .call r fun answer => (k answer).tryCatch f

instance : Monad (Program Req Rep ε) where
  pure := .done
  bind := bind

/-- Without a call. -/
def ofExcept : Except ε α → Program Req Rep ε α
  | .ok a => .done a
  | .error e => .throw e

/-- One call, whose exception is thrown. -/
def perform (r : Req) : Program Req Rep ε (Rep r) := .call r ofExcept

/-- The calls that are made, after those of `past`, and how the program ends. -/
def run (env : Environment Req Rep ε) (past : List (Exchange Req Rep ε)) :
    Program Req Rep ε α → List (Exchange Req Rep ε) × Except ε α
  | .done a => (past, .ok a)
  | .throw e => (past, .error e)
  | .call r k => (k (env past r)).run env (past ++ [⟨r, env past r⟩])

/-- Whatever the answers, `P` holds of every call and `Q` of the end. -/
def Triple (P : List (Exchange Req Rep ε) → Req → Prop)
    (Q : List (Exchange Req Rep ε) → Except ε α → Prop) :
    List (Exchange Req Rep ε) → Program Req Rep ε α → Prop
  | past, .done a => Q past (.ok a)
  | past, .throw e => Q past (.error e)
  | past, .call r k => P past r ∧ ∀ answer, Triple P Q (past ++ [⟨r, answer⟩]) (k answer)

variable {env : Environment Req Rep ε} {past : List (Exchange Req Rep ε)}

/-- The run of a composition. -/
theorem run_bind (p : Program Req Rep ε α) (f : α → Program Req Rep ε β) :
    (p.bind f).run env past =
      match (p.run env past).2 with
      | .ok a => (f a).run env (p.run env past).1
      | .error e => ((p.run env past).1, .error e) := by
  induction p generalizing past with
  | done a => rfl
  | throw e => rfl
  | call r k ih => exact ih (env past r)

/-- The run of a program whose exceptions are caught. -/
theorem run_tryCatch (p : Program Req Rep ε α) (f : ε → Program Req Rep ε α) :
    (p.tryCatch f).run env past =
      match (p.run env past).2 with
      | .ok a => ((p.run env past).1, .ok a)
      | .error e => (f e).run env (p.run env past).1 := by
  induction p generalizing past with
  | done a => rfl
  | throw e => rfl
  | call r k ih => exact ih (env past r)

theorem run_ofExcept (r : Except ε α) :
    (ofExcept r : Program Req Rep ε α).run env past = (past, r) := by
  cases r with
  | ok a => rfl
  | error e => rfl

theorem run_perform (r : Req) :
    (perform r).run env past = (past ++ [⟨r, env past r⟩], env past r) :=
  run_ofExcept (env past r)

/-- A composition is done only if both of its parts are. -/
theorem exists_of_run_bind {p : Program Req Rep ε α} {f : α → Program Req Rep ε β}
    {calls : List (Exchange Req Rep ε)} {b : β} (h : (p.bind f).run env past = (calls, .ok b)) :
    ∃ past' a, p.run env past = (past', .ok a) ∧ (f a).run env past' = (calls, .ok b) := by
  rw [run_bind] at h
  cases hend : (p.run env past).2 with
  | ok a =>
    rw [hend] at h
    exact ⟨_, a, Prod.ext rfl hend, h⟩
  | error e =>
    rw [hend] at h
    cases h

theorem exists_of_run_perform {r : Req} {calls : List (Exchange Req Rep ε)} {a : Rep r}
    (h : (perform r).run env past = (calls, .ok a)) :
    env past r = .ok a ∧ calls = past ++ [⟨r, .ok a⟩] := by
  rw [run_perform] at h
  obtain ⟨rfl, hanswer⟩ := Prod.mk.inj h
  rw [hanswer]
  exact ⟨rfl, rfl⟩

/-- A computation without calls may come in two parts. -/
theorem ofExcept_bind (r : Except ε α) (f : α → Except ε β) :
    (ofExcept (r.bind f) : Program Req Rep ε β) = (ofExcept r).bind fun a => ofExcept (f a) := by
  cases r with
  | ok a => rfl
  | error e => rfl

section Rules

variable {P : List (Exchange Req Rep ε) → Req → Prop}
  {Q : List (Exchange Req Rep ε) → Except ε α → Prop}
  {R : List (Exchange Req Rep ε) → Except ε β → Prop} {past : List (Exchange Req Rep ε)}

/-- The rule of consequence. -/
theorem Triple.mono {P' : List (Exchange Req Rep ε) → Req → Prop}
    {Q' : List (Exchange Req Rep ε) → Except ε α → Prop} {p : Program Req Rep ε α}
    (h : p.Triple P Q past) (hP : ∀ past r, P past r → P' past r)
    (hQ : ∀ past end', Q past end' → Q' past end') : p.Triple P' Q' past := by
  induction p generalizing past with
  | done a => exact hQ _ _ h
  | throw e => exact hQ _ _ h
  | call r k ih => exact ⟨hP _ _ h.1, fun answer => ih answer (h.2 answer)⟩

/-- The rule of conjunction. -/
theorem Triple.and {P' : List (Exchange Req Rep ε) → Req → Prop}
    {Q' : List (Exchange Req Rep ε) → Except ε α → Prop} {p : Program Req Rep ε α}
    (h : p.Triple P Q past) (h' : p.Triple P' Q' past) :
    p.Triple (fun past r => P past r ∧ P' past r) (fun past end' => Q past end' ∧ Q' past end')
      past := by
  induction p generalizing past with
  | done a => exact ⟨h, h'⟩
  | throw e => exact ⟨h, h'⟩
  | call r k ih => exact ⟨⟨h.1, h'.1⟩, fun answer => ih answer (h.2 answer) (h'.2 answer)⟩

/-- The rule of composition. -/
theorem triple_bind {p : Program Req Rep ε α} {f : α → Program Req Rep ε β}
    (h : p.Triple P
      (fun past end' => match end' with
        | .ok a => (f a).Triple P R past
        | .error e => R past (.error e)) past) :
    (p.bind f).Triple P R past := by
  induction p generalizing past with
  | done a => exact h
  | throw e => exact h
  | call r k ih => exact ⟨h.1, fun answer => ih answer (h.2 answer)⟩

/-- The rule of exceptions. -/
theorem triple_tryCatch {p : Program Req Rep ε α} {f : ε → Program Req Rep ε α}
    (h : p.Triple P
      (fun past end' => match end' with
        | .ok a => Q past (.ok a)
        | .error e => (f e).Triple P Q past) past) :
    (p.tryCatch f).Triple P Q past := by
  induction p generalizing past with
  | done a => exact h
  | throw e => exact h
  | call r k ih => exact ⟨h.1, fun answer => ih answer (h.2 answer)⟩

/-- The rule of a single call. -/
theorem triple_perform {r : Req} {Q : List (Exchange Req Rep ε) → Except ε (Rep r) → Prop}
    (hP : P past r) (hQ : ∀ answer, Q (past ++ [⟨r, answer⟩]) answer) :
    (perform r).Triple P Q past := by
  refine ⟨hP, fun answer => ?_⟩
  cases answer with
  | ok a => exact hQ (.ok a)
  | error e => exact hQ (.error e)

theorem triple_ofExcept {r : Except ε α} (hQ : Q past r) :
    (ofExcept r : Program Req Rep ε α).Triple P Q past := by
  cases r with
  | ok a => exact hQ
  | error e => exact hQ

/-- A run only adds calls, and its end is as the logic says. -/
theorem Triple.run {p : Program Req Rep ε α} (h : p.Triple P Q past)
    (env : Environment Req Rep ε) :
    past <+: (p.run env past).1 ∧ Q (p.run env past).1 (p.run env past).2 := by
  induction p generalizing past with
  | done a => exact ⟨List.prefix_rfl, h⟩
  | throw e => exact ⟨List.prefix_rfl, h⟩
  | call r k ih =>
    obtain ⟨hpast, hend⟩ := ih (env past r) (h.2 (env past r))
    exact ⟨(List.prefix_append past _).trans hpast, hend⟩

/-- The calls of a run are as the logic says. -/
theorem Triple.call {p : Program Req Rep ε α} (h : p.Triple P Q past)
    (env : Environment Req Rep ε) {front back : List (Exchange Req Rep ε)}
    {x : Exchange Req Rep ε} (hrun : (p.run env past).1 = front ++ x :: back)
    (hpast : past.length ≤ front.length) : P front x.request := by
  induction p generalizing past with
  | done a =>
    have hlength : past.length = (front ++ x :: back).length := congrArg List.length hrun
    rw [List.length_append, List.length_cons] at hlength
    omega
  | throw e =>
    have hlength : past.length = (front ++ x :: back).length := congrArg List.length hrun
    rw [List.length_append, List.length_cons] at hlength
    omega
  | call r k ih =>
    obtain ⟨hcall, hrest⟩ := h
    rcases Nat.lt_or_ge past.length front.length with hlt | hge
    · apply ih (env past r) (hrest (env past r)) hrun
      rw [List.length_append, List.length_singleton]
      omega
    · -- The call is the first one after those of the past.
      have hpast := ((hrest (env past r)).run env).1
      rw [show ((k (env past r)).run env (past ++ [⟨r, env past r⟩])).1 = front ++ x :: back
        from hrun, List.append_cons front x back] at hpast
      obtain ⟨rest, hrest⟩ := hpast
      have hsplit : past ++ [⟨r, env past r⟩] = front ++ [x] := by
        refine List.append_inj_left hrest ?_
        simp only [List.length_append, List.length_singleton]
        omega
      obtain ⟨rfl, hx⟩ := List.append_inj' hsplit rfl
      rw [← List.singleton_inj.mp hx]
      exact hcall

variable {env env' : Environment Req Rep ε}

/-- The answers of the past are those of the environment. -/
def Answered (env : Environment Req Rep ε) (past : List (Exchange Req Rep ε)) : Prop :=
  ∀ front x back, past = front ++ x :: back → x.answer = env front x.request

theorem answered_nil : Answered env [] := by simp [Answered]

theorem Answered.concat (h : Answered env past) (r : Req) :
    Answered env (past ++ [⟨r, env past r⟩]) := by
  intro front x back heq
  rcases List.append_eq_append_iff.mp heq with ⟨l, rfl, hl⟩ | ⟨l, rfl, hl⟩
  · cases l with
    | nil =>
      rw [List.nil_append] at hl
      obtain ⟨rfl, -⟩ := List.cons.inj hl
      rw [List.append_nil]
    | cons y l => simp at hl
  · cases l with
    | nil =>
      rw [List.nil_append] at hl
      obtain ⟨rfl, -⟩ := List.cons.inj hl
      rw [List.append_nil]
    | cons y l =>
      obtain ⟨rfl, -⟩ := List.cons.inj hl
      exact h front x l rfl

/-- So are those of a run. -/
theorem Answered.run (h : Answered env past) (p : Program Req Rep ε α) :
    Answered env (p.run env past).1 := by
  induction p generalizing past with
  | done a => exact h
  | throw e => exact h
  | call r k ih => exact ih (env past r) (h.concat r)

/-- Environments that answer the calls that the logic allows alike lead to the same run. -/
theorem Triple.run_congr {p : Program Req Rep ε α} (h : p.Triple P Q past)
    (hpast : Answered env past)
    (henv : ∀ past r, Answered env past → P past r → env past r = env' past r) :
    p.run env past = p.run env' past := by
  induction p generalizing past with
  | done a => rfl
  | throw e => rfl
  | call r k ih =>
    show (k (env past r)).run env (past ++ [⟨r, env past r⟩]) = _
    rw [ih _ (h.2 _) (hpast.concat r), henv past r hpast h.1]
    rfl

end Rules

end Program

end Interaction
