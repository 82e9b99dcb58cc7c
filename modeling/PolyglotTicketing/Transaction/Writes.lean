import PolyglotTicketing.Transaction.History

/-!
# What is written

A rule for properties of written rows that come from the environment of their statement and not
from the rows of the database, such as the time at which a row was written. If the statements of a
run are executed in environments that meet `F`, and a statement writes in such an environment only
what meets `G`, then everything that is written in the run meets `G`: `written_run`.

`Label` restricts a run to the operations that begin with a request, and to environments that meet
`F`.
-/

namespace Transaction

open Transition

variable {T Db Write Key Fresh Stmt : Type} {Res : Stmt → Type} {ε α Call : Type}
variable {E : Engine T Db Write Key Fresh Stmt Res} {program : Call → Program Stmt Res ε α}

/-- What a statement writes meets `G` if its environment meets `F`. -/
def Engine.Writes (E : Engine T Db Write Key Fresh Stmt Res) (F : Fresh → Prop)
    (G : Write → Prop) : Prop :=
  ∀ {q : Stmt} {context : Context T Key Fresh} {db : Db} {r : Res q} {ws : List Write},
    F context.fresh → E.exec q context db = some (r, ws) → ∀ x ∈ ws, G x

/-- What the sessions are about to write meets `G`. -/
def Server.Pending (G : Write → Prop) (c : Server T Db Write Key Fresh Stmt Res ε α Call) : Prop :=
  ∀ s ∈ c.sessions, ∀ x ∈ s.pending, G x

section Step

variable [LinearOrder T] [DecidableEq Key] {F : Fresh → Prop} {G : Write → Prop}
variable {c : Server T Db Write Key Fresh Stmt Res ε α Call} {e : Event T Fresh Call}

/-- An event of a server keeps it so. -/
theorem Server.Pending.step (hwrites : E.Writes F G) (hc : c.Pending G)
    (he : ∀ i fresh, e = .statement i fresh → F fresh) : (c.step E program e).Pending G := by
  -- A session that ends has nothing left to write; only a statement adds to what it has.
  cases e with
  | tick now =>
    rw [Server.step]
    split
    next => exact hc
    next => exact hc
  | start call =>
    intro s hs
    rcases List.mem_append.mp hs with hs | hs
    · exact hc s hs
    · obtain rfl := List.mem_singleton.mp hs
      simp [Session.start]
  | statement i fresh =>
    rw [Server.step]
    split
    next => exact hc
    next t ht =>
      split
      next q k hphase =>
        dsimp only
        split
        next => exact hc
        next =>
          split
          next => exact forall_mem_set hc (by simp [Session.close])
          next r ws hexec =>
            refine forall_mem_set hc fun x hx => ?_
            rcases List.mem_append.mp hx with hx | hx
            · exact hc t (List.mem_of_getElem? ht) x hx
            · exact hwrites (he i fresh rfl) hexec x hx
      next => exact hc
  | crash i =>
    rw [Server.step]
    split
    next => exact hc
    next t ht =>
      split
      next => exact forall_mem_set hc (by simp [Session.close])
      next => exact hc
  | finish i =>
    rw [Server.step]
    split
    next => exact hc
    next t ht =>
      split
      next => exact forall_mem_set hc (by simp [Session.close])
      next => exact forall_mem_set hc (by simp [Session.close])
      next => exact hc

/-- The rule: what a written row that meets `G` keeps holds after every run. -/
theorem written_run (hwrites : E.Writes F G) {P : Db → Prop}
    (happly : ∀ {db : Db} {x : Write}, P db → G x → P (E.apply db x)) {w : World T Db}
    (hw : P w.db) {events : List (Event T Fresh Call)}
    (hevents : ∀ i fresh, .statement i fresh ∈ events → F fresh) :
    P (run (Server.step E program) ⟨w, []⟩ events).world.db := by
  have happlyAll : ∀ (ws : List Write) (db : Db), P db → (∀ x ∈ ws, G x) →
      P (E.applyAll ws db) := by
    intro ws
    induction ws with
    | nil => exact fun db hdb _ => hdb
    | cons x ws ih =>
      intro db hdb hws
      rw [Engine.applyAll_cons]
      exact ih _ (happly hdb (hws x (by simp))) fun y hy => hws y (by simp [hy])
  have hlabels : EachStep (Server.step E program)
      (fun _ e => ∀ i fresh, e = .statement i fresh → F fresh) ⟨w, []⟩ events := by
    refine eachStep_of_forall
      (C := fun e : Event T Fresh Call => ∀ i fresh, e = .statement i fresh → F fresh) ?_ _
    rintro e he i fresh rfl
    exact hevents i fresh he
  -- The invariant: what is written and not yet committed meets `G`, and the committed rows `P`.
  refine (run_induction (P := fun c : Server T Db Write Key Fresh Stmt Res ε α Call =>
    c.Pending G ∧ P c.world.db) ?_ ⟨by simp [Server.Pending], hw⟩ hlabels).2
  rintro c e ⟨hpending, hP⟩ hfresh
  refine ⟨hpending.step hwrites hfresh, ?_⟩
  rcases Server.step_world_cases c e with hdb | ⟨i, s, a, rfl, hs, -, hdb⟩
  · rwa [hdb]
  · rw [hdb]
    exact happlyAll s.pending _ hP (hpending s (List.mem_of_getElem? hs))

end Step

/-- What happens to a server whose operations begin with requests of type `Input`. -/
inductive Label (T Fresh Call Input : Type) where
  /-- A request comes in. -/
  | request (input : Input)
  /-- Something else happens. -/
  | event (e : Event T Fresh Call)

section Label

variable {Input : Type} (accept : Input → Option Call) (F : Fresh → Prop) [DecidablePred F]

/-- The events on the server. A request begins the operation that it is accepted for, and a
statement is not executed in an environment that does not meet `F`. -/
def Label.events : Label T Fresh Call Input → List (Event T Fresh Call)
  | .request input => ((accept input).map Event.start).toList
  | .event (.start _) => []
  | .event (.statement i fresh) => if F fresh then [.statement i fresh] else []
  | .event (.tick now) => [.tick now]
  | .event (.crash i) => [.crash i]
  | .event (.finish i) => [.finish i]

variable {accept F} {labels : List (Label T Fresh Call Input)}

/-- An operation begins with a request that is accepted for it. -/
theorem exists_request {call : Call} (h : .start call ∈ labels.flatMap (Label.events accept F)) :
    ∃ input, accept input = some call := by
  obtain ⟨l, -, hl⟩ := List.mem_flatMap.mp h
  cases l with
  | request input =>
    obtain ⟨call', hcall, heq⟩ := Option.map_eq_some_iff.mp (Option.mem_toList.mp hl)
    obtain rfl := Event.start.inj heq
    exact ⟨input, hcall⟩
  | event e =>
    cases e with
    | statement i fresh =>
      rw [Label.events] at hl
      split at hl <;> simp at hl
    | _ => simp [Label.events] at hl

/-- Statements are executed in environments that meet `F`. -/
theorem fresh_of_mem {i : ℕ} {fresh : Fresh}
    (h : .statement i fresh ∈ labels.flatMap (Label.events accept F)) : F fresh := by
  obtain ⟨l, -, hl⟩ := List.mem_flatMap.mp h
  cases l with
  | request input =>
    obtain ⟨call', -, heq⟩ := Option.map_eq_some_iff.mp (Option.mem_toList.mp hl)
    cases heq
  | event e =>
    cases e with
    | statement j fresh' =>
      rw [Label.events] at hl
      split at hl
      next hF =>
        obtain ⟨rfl, rfl⟩ := Event.statement.inj (List.mem_singleton.mp hl)
        exact hF
      next => simp at hl
    | _ => simp [Label.events] at hl

end Label

end Transaction
