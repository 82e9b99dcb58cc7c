import PolyglotTicketing.Tickets.Service

/-!
# Reserved tickets are frozen

`UpdateTicket` looks at a ticket without a lock, and may find it free although an order reserves it
before the update begins. It is the second look of the repository, under the lock of the row, that
protects the ticket: `reserved_ticket_frozen`.
-/

namespace Tickets

open Platform Relational Transaction Transition

/-- The label `l` is the commit of a transaction for `call`. -/
def Commits (f : Front) (l : Label) (call : Call) : Prop :=
  ∃ (i : ℕ) (s : Tran) (r : Reply), l = .server (.finish i) ∧ f.server.sessions[i]? = some s ∧
    s.phase = .running (.done r) ∧ s.call = call

/-- A ticket of the database. -/
def Front.ticket (f : Front) (id : Uuid) : Option Ticket := f.server.world.db.tickets.find? id

section Change

variable {call : Call} {w : State} {held : List Key} {r : Reply} {db' : Db} {id : Uuid}

/-- A commit leaves a ticket alone, creates it, or does what its operation does to it. -/
theorem Change.ticket_cases (h : Change call held w r db') (id : Uuid) :
    db'.tickets.find? id = w.db.tickets.find? id ∨ w.db.tickets.find? id = none ∨
      ∃ t t', w.db.tickets.find? id = some t ∧ db'.tickets.find? id = some t' ∧
        t.Next call r t' := by
  cases h with
  | duplicate => exact Or.inl rfl
  | recorded => exact Or.inl rfl
  -- The created ticket was not there before.
  | @created input id' n fresh _ hnew =>
    by_cases hid : id = id'
    · exact Or.inr (Or.inl (hid ▸ hnew))
    · exact Or.inl ((find?_create hnew id).trans (if_neg hid))
  -- The changed ticket is this one, or another one.
  | @changed r t t' n fresh hnext hfind =>
    by_cases hid : id = t.id
    · exact Or.inr (Or.inr ⟨t, t', hid ▸ hfind, by rw [find?_change hfind hnext.id, if_pos hid],
        hnext⟩)
    · exact Or.inl (by rw [find?_change hfind hnext.id, if_neg hid])

/-- An update that commits has edited a free ticket of its owner. -/
theorem Change.of_update {input : UpdateInput} (h : Change (.update id input) held w r db') :
    ∃ t, w.db.tickets.find? id = some t ∧ t.userID = input.userID ∧ t.reservedByOrderID = none ∧
      db'.tickets.find? id = some (t.edit input.title input.price) := by
  cases h with
  | duplicate hevent => simp [Call.eventID?] at hevent
  | recorded hcall => simp at hcall
  | created hcall => simp at hcall
  | @changed r t t' n fresh hnext hfind =>
    cases hnext with
    | updated huser hfree =>
      have hid : (t.edit input.title input.price).id = t.id := rfl
      exact ⟨t, hfind, huser, hfree, (find?_change hfind hid t.id).trans (if_pos rfl)⟩

end Change

section Front

variable {clock : Int} {labels : List Label} {l : Label} {call : Call} {id o : Uuid} {t : Ticket}

/-- What a commit does. -/
theorem Commits.change (h : Commits (attend clock labels) l call) :
    ∃ held r, Change call held (attend clock labels).server.world r
      ((attend clock labels).step l).server.world.db := by
  obtain ⟨events, hevents⟩ := exists_serve clock labels
  obtain ⟨i, s, r, rfl, hs, hphase, rfl⟩ := h
  have hdb : ((attend clock labels).step (.server (.finish i))).server.world.db =
      engine.applyAll s.pending (attend clock labels).server.world.db := by
    simp [Front.step, beginsUpdate, Server.step, hs, hphase]
  rw [hdb]
  rw [hevents] at hs ⊢
  exact ⟨s.held, r, (sound_serve clock events).guar_of_commit hs hphase⟩

/-- Only commits change tickets. -/
theorem ticket_step (f : Front) (l : Label) (id : Uuid) :
    (f.step l).ticket id = f.ticket id ∨ ∃ call, Commits f l call := by
  rcases f.server_step l with hsame | ⟨e, hstep, hl⟩
  · exact Or.inl (by rw [Front.ticket, hsame, Front.ticket])
  · rcases Server.step_world_cases f.server e with hdb | ⟨i, s, r, rfl, hs, hphase, -⟩
    · exact Or.inl (by rw [Front.ticket, hstep, hdb, Front.ticket])
    · -- Beginning an update is no commit.
      rcases hl with rfl | ⟨k, id', input, rfl, he⟩
      · exact Or.inr ⟨s.call, i, s, r, rfl, hs, hphase, rfl⟩
      · cases he

/-- While a ticket is reserved, a step leaves it as it is, or the order that has reserved it
releases it. -/
theorem reserved_step (hfind : (attend clock labels).ticket id = some t)
    (hreserved : t.reservedByOrderID = some o) (l : Label) :
    ((attend clock labels).step l).ticket id = some t ∨
      ((attend clock labels).step l).ticket id = some (t.mark none) ∧
        ∃ eventID, Commits (attend clock labels) l (.unreserveTicketFromOrder eventID o id) := by
  rcases ticket_step (attend clock labels) l id with hsame | ⟨call, hcommits⟩
  · exact Or.inl (hsame.trans hfind)
  · obtain ⟨held, r, hchange⟩ := hcommits.change
    rcases hchange.ticket_cases id with hsame | hnone | ⟨x, t', hx, ht', hnext⟩
    · exact Or.inl (hsame.trans hfind)
    · exact absurd (hfind.symm.trans hnone) (by simp)
    · obtain rfl : t = x := Option.some.inj (hfind.symm.trans hx)
      obtain rfl : t.id = id := Table.key_of_find? hfind
      -- An update and a reservation would have needed a free ticket.
      cases hnext with
      | updated huser hfree => simp [hreserved] at hfree
      | reserved hfree => simp [hreserved] at hfree
      | @unreserved eventID orderID howner =>
        obtain rfl : o = orderID := Option.some.inj (hreserved.symm.trans howner)
        exact Or.inr ⟨ht', eventID, hcommits⟩

/-- An update commits only on a free ticket of its owner. -/
theorem update_step {input : UpdateInput}
    (h : Commits (attend clock labels) l (.update id input)) :
    ∃ t, (attend clock labels).ticket id = some t ∧ t.userID = input.userID ∧
      t.reservedByOrderID = none ∧
      ((attend clock labels).step l).ticket id = some (t.edit input.title input.price) := by
  obtain ⟨held, r, hchange⟩ := h.change
  exact hchange.of_update

/-- Until the order that has reserved a ticket releases it, the ticket stays as it is. -/
theorem reserved_run (hfind : (attend clock labels).ticket id = some t)
    (hreserved : t.reservedByOrderID = some o) {middle : List Label}
    (hmiddle : EachStep Front.step (fun f l => ∀ eventID,
      ¬Commits f l (.unreserveTicketFromOrder eventID o id)) (attend clock labels) middle) :
    (attend clock (labels ++ middle)).ticket id = some t := by
  induction middle using List.reverseRecOn with
  | nil => rwa [List.append_nil]
  | append_singleton middle l ih =>
    obtain ⟨hrest, hlast⟩ := (eachStep_concat _ _ middle l).mp hmiddle
    have hstill := ih hrest
    have hrun : run Front.step (attend clock labels) middle = attend clock (labels ++ middle) :=
      (run_append _ labels middle).symm
    have hstep : attend clock (labels ++ (middle ++ [l])) =
        (attend clock (labels ++ middle)).step l := by
      rw [attend, ← List.append_assoc, run_concat, ← attend]
    rw [hstep]
    -- The last step leaves the ticket as it is, or is a release, which is excluded.
    rcases reserved_step hstill hreserved l with hsame | ⟨-, eventID, hcommits⟩
    · exact hsame
    · rw [hrun] at hlast
      exact absurd hcommits (hlast eventID)

/-- Until the order that has reserved a ticket releases it, no update of the ticket commits. -/
theorem no_update_run (hfind : (attend clock labels).ticket id = some t)
    (hreserved : t.reservedByOrderID = some o) {middle : List Label}
    (hmiddle : EachStep Front.step (fun f l => ∀ eventID,
      ¬Commits f l (.unreserveTicketFromOrder eventID o id)) (attend clock labels) middle) :
    EachStep Front.step (fun f l => ∀ input, ¬Commits f l (.update id input))
      (attend clock labels) middle := by
  rw [eachStep_iff_forall_segment]
  rintro front l back rfl input hcommits
  -- Up to the update the ticket stays reserved, but an update needs a free ticket.
  have hstill : (attend clock (labels ++ front)).ticket id = some t :=
    reserved_run hfind hreserved ((eachStep_append _ _ front (l :: back)).mp hmiddle).1
  have hrun : run Front.step (attend clock labels) front = attend clock (labels ++ front) :=
    (run_append _ labels front).symm
  rw [hrun] at hcommits
  obtain ⟨x, hx, -, hfree, -⟩ := update_step hcommits
  obtain rfl : t = x := Option.some.inj (hstill.symm.trans hx)
  simp [hreserved] at hfree

end Front

/-- A reserved ticket is frozen. From a state in which `o` holds a ticket until an
`UnreserveTicketFromOrder` for `o` commits, the ticket stays as it is and no update of it commits.
While it is held, a step that does not leave the ticket as it is is such a commit, and clears the
field only. An update that commits finds the ticket free and owned by the caller, and changes
nothing but its title, its price and its version, by one. -/
theorem reserved_ticket_frozen (clock : Int) (labels : List Label) (id : Uuid) :
    (∀ t o, (attend clock labels).ticket id = some t → t.reservedByOrderID = some o →
      (∀ middle, EachStep Front.step (fun f l => ∀ eventID,
          ¬Commits f l (.unreserveTicketFromOrder eventID o id)) (attend clock labels) middle →
        (attend clock (labels ++ middle)).ticket id = some t ∧
          EachStep Front.step (fun f l => ∀ input, ¬Commits f l (.update id input))
            (attend clock labels) middle) ∧
      ∀ l, (attend clock (labels ++ [l])).ticket id = some t ∨
        (attend clock (labels ++ [l])).ticket id =
            some { t with reservedByOrderID := none, aggregateVersion := t.aggregateVersion + 1 } ∧
          ∃ eventID, Commits (attend clock labels) l (.unreserveTicketFromOrder eventID o id)) ∧
    ∀ l input, Commits (attend clock labels) l (.update id input) →
      ∃ t, (attend clock labels).ticket id = some t ∧ t.userID = input.userID ∧
        t.reservedByOrderID = none ∧
        (attend clock (labels ++ [l])).ticket id =
          some { t with
            title := input.title, price := input.price
            aggregateVersion := t.aggregateVersion + 1 } := by
  have hlast : ∀ l, attend clock (labels ++ [l]) = (attend clock labels).step l :=
    fun l => run_concat _ labels l
  refine ⟨fun t o hfind hreserved => ⟨fun middle hmiddle => ?_, fun l => ?_⟩,
    fun l input hcommits => ?_⟩
  · exact ⟨reserved_run hfind hreserved hmiddle, no_update_run hfind hreserved hmiddle⟩
  · rw [hlast]
    exact reserved_step hfind hreserved l
  · rw [hlast]
    exact update_step hcommits

end Tickets
