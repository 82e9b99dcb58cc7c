import PolyglotTicketing.Orders.Outbox
import PolyglotTicketing.Orders.Server

/-!
# The orders of a user

What the server of Orders shows a user is a function of the orders of this user, and a commit leaves
them alone unless it is about one of them (`sees_step`).
-/

namespace Orders

open Platform Contracts Relational Transaction Transition

/-- In both databases, the user has the same orders. -/
def SeesSame (db db' : Db) (userID : String) : Prop :=
  ∀ id, getByIDAndUser db id userID = getByIDAndUser db' id userID

section Views

variable {db db' : Db} {userID : String} {o : Order}

theorem getByIDAndUser_eq_some_iff {id : Uuid} : getByIDAndUser db id userID = some o ↔
    db.orders.find? id = some o ∧ o.userID = userID := by
  simp [getByIDAndUser, Option.filter_eq_some_iff]

theorem mem_listByUser : o ∈ listByUser db userID ↔
    o ∈ db.orders.rows ∧ o.userID = userID := by
  simp [listByUser, List.mem_insertionSort]

/-- The list has the orders of the user. -/
theorem mem_listByUser_iff_get : o ∈ listByUser db userID ↔
    getByIDAndUser db o.id userID = some o := by
  rw [mem_listByUser, getByIDAndUser_eq_some_iff]
  refine and_congr_left' ⟨Table.find?_of_mem, Table.mem_of_find?⟩

theorem Order.ListedBefore.total : Std.Total Order.ListedBefore where
  total o o' := by
    unfold ListedBefore
    rcases lt_trichotomy o.expiresAt o'.expiresAt with h | h | h
    · exact Or.inr (Or.inl h)
    · rcases BitVec.le_total o.id o'.id with hid | hid
      · exact Or.inr (Or.inr ⟨h.symm, hid⟩)
      · exact Or.inl (Or.inr ⟨h, hid⟩)
    · exact Or.inl (Or.inl h)

theorem Order.ListedBefore.trans : IsTrans Order Order.ListedBefore where
  trans a b c := by
    rintro (hab | ⟨hab, hid⟩) (hbc | ⟨hbc, hid'⟩)
    · exact Or.inl (hbc.trans hab)
    · exact Or.inl (hbc ▸ hab)
    · exact Or.inl (hab ▸ hbc)
    · exact Or.inr ⟨hab.trans hbc, BitVec.le_trans hid' hid⟩

theorem pairwise_listByUser : (listByUser db userID).Pairwise Order.ListedBefore :=
  have := Order.ListedBefore.total
  have := Order.ListedBefore.trans
  List.pairwise_insertionSort _ _

theorem nodup_listByUser : (listByUser db userID).Nodup := by
  refine (List.perm_insertionSort _ _).nodup_iff.mpr (List.Nodup.filter _ ?_)
  exact List.Nodup.of_map key db.orders.nodup

/-- The order of the list leaves no choice. -/
theorem SeesSame.listByUser (h : SeesSame db db' userID) :
    listByUser db userID = listByUser db' userID := by
  have hmem : ∀ o, o ∈ Orders.listByUser db userID ↔ o ∈ Orders.listByUser db' userID := by
    intro o
    rw [mem_listByUser_iff_get, mem_listByUser_iff_get, h]
  have hperm : (Orders.listByUser db userID).Perm (Orders.listByUser db' userID) :=
    (List.perm_ext_iff_of_nodup nodup_listByUser nodup_listByUser).mpr hmem
  refine hperm.eq_of_pairwise ?_ pairwise_listByUser pairwise_listByUser
  intro a b ha hb hab hba
  -- Orders at one place of the order have one identifier.
  have hid : a.id = b.id := by
    rcases hab with hlt | ⟨heq, hle⟩
    · rcases hba with hlt' | ⟨heq', -⟩
      · exact absurd hlt (lt_asymm hlt')
      · exact absurd heq' hlt.ne
    · rcases hba with hlt' | ⟨-, hle'⟩
      · exact absurd heq hlt'.ne
      · exact BitVec.le_antisymm hle' hle
  have ha' := mem_listByUser_iff_get.mp ha
  have hb' := mem_listByUser_iff_get.mp ((hmem b).mpr hb)
  rw [hid] at ha'
  exact Option.some.inj (ha'.symm.trans hb')

/-- The answers to the two calls that only read are the same. -/
theorem SeesSame.getOrder (h : SeesSame db db' userID) (orderID : String) :
    Server.getOrder (some db) orderID userID = Server.getOrder (some db') orderID userID := by
  unfold Server.getOrder
  cases hquery : Service.getOrder orderID userID with
  | error errors => rfl
  | ok query =>
    dsimp only
    cases hread : query.read with
    | none => rfl
    | some ids =>
      obtain ⟨id, user⟩ := ids
      -- The service passes the user on as it is.
      obtain rfl : user = userID := by
        rw [Service.getOrder, Service.orderOfUser] at hquery
        repeat' split at hquery
        all_goals cases hquery
        rw [Wire.Query.read] at hread
        split at hread
        next => exact (Prod.mk.inj (Option.some.inj hread)).2.symm
        next => cases hread
      dsimp only
      rw [h id]

theorem SeesSame.listOrders (h : SeesSame db db' userID) :
    Server.listOrders (some db) userID = Server.listOrders (some db') userID := by
  simp only [Server.listOrders, h.listByUser]

end Views

section Server

variable {db : Db} {userID : String}

/-- An order that is looked for by its own identifier. -/
theorem Server.getOrder_uuidText (id : Uuid) (huser : ¬Blank userID) :
    Server.getOrder (some db) (uuidText id) userID =
      match getByIDAndUser db id userID with
      | some found => .ok (some (toOrderResponse found))
      | none => .error (refusal .notFound .notFound "Order not found.") := by
  have hservice : Service.getOrder (uuidText id) userID =
      .ok { ids := [uuidText id], call := fun read => (read (uuidText id), userID) } := by
    simp [Service.getOrder, Service.orderOfUser, validateOrderID, validateOrderUser, huser,
      uuidParse_uuidText]
  have hread : Wire.Query.read { ids := [uuidText id], call := fun read : String → Uuid =>
      (read (uuidText id), userID) } = some (id, userID) := by
    simp [Wire.Query.read, Wire.Query.Accepted, uuidIn_uuidText]
  cases hget : getByIDAndUser db id userID with
  | none => simp only [Server.getOrder, hservice, hread, hget]
  | some found => simp only [Server.getOrder, hservice, hread, hget]

/-- A call that creates an order has been validated, and its transaction has committed. -/
theorem Server.exists_of_createOrder {repository : Call → Outcome Err Reply} {now : Int}
    {ticketID : String} {reply : Gateway.CreateOrderGrpcResponse}
    (h : Server.createOrder repository now ticketID userID = .ok reply) :
    ¬Blank userID ∧ ∃ input result, input.userID = userID ∧
      repository (.reserveTicket input) = .committed (.reservation result) ∧
        reply = toCreateOrderResponse result := by
  unfold Server.createOrder at h
  split at h
  next => cases h
  next query hquery =>
    rw [Service.reserveTicket] at hquery
    split at hquery
    next => cases hquery
    next hvalid =>
      obtain rfl := Except.ok.inj hquery
      have huser := of_validateTicketReservation (not_not.mp hvalid)
      unfold Wire.Query.read at h
      split at h
      next result hresult =>
        rw [Option.map_eq_some_iff] at hresult
        obtain ⟨call, hcall, hresult⟩ := hresult
        split at hcall
        next =>
          obtain rfl := Option.some.inj hcall
          exact ⟨huser, _, result, rfl, hresult, (Except.ok.inj h).symm⟩
        next => cases hcall
      all_goals cases h

end Server

/-- The operation is about an order of the user. -/
def Call.Concerns (call : Call) (db : Db) (userID : String) : Prop :=
  (∃ input, call = .reserveTicket input ∧ input.userID = userID) ∨
    ∃ m ∈ call.move?, ∃ o ∈ db.orders.find? m.orderID, o.userID = userID

/-- A commit that is about no order of the user leaves the orders of the user alone. -/
theorem Change.seesSame {call : Call} {opened w : State} {held : List Key} {r : Reply} {db' : Db}
    (h : Change call opened held w r db') {userID : String}
    (hconcerns : ¬call.Concerns w.db userID) : SeesSame w.db db' userID := by
  intro id
  unfold getByIDAndUser
  have hnone : ∀ o : Order, o.userID ≠ userID →
      (some o).filter (fun o => decide (o.userID = userID)) = none :=
    fun _ hother => Option.filter_some_neg (decide_eq_false hother)
  rcases h.orders_cases with hsame | ⟨input, x, hcall, hnew, -, hinsert⟩ |
    ⟨m, o, hmove, hfind, -, -, -, hreplace⟩
  · rw [hsame]
  · -- The new order belongs to somebody else.
    rw [hinsert, Table.find?_insert (r := newOrder input x) hnew]
    split
    next heq =>
      have hid : id = x := heq
      rw [hid, hnew, Option.filter_none, hnone]
      exact fun huser => hconcerns (Or.inl ⟨input, hcall, huser⟩)
    next => rfl
  · -- So does the order that has moved.
    rw [hreplace, find?_move m.target hfind]
    split
    next heq =>
      have hother : o.userID ≠ userID :=
        fun huser => hconcerns (Or.inr ⟨m, hmove, o, hfind, huser⟩)
      rw [heq, hfind, hnone o hother, hnone (o.withStatus m.target) hother]
    next => rfl

/-- In every run, an event leaves the orders of a user alone unless it is the commit of an operation
that is about one of them. -/
theorem sees_step (clock : Int) (events : List (Event Int Fresh Call)) (e : Event Int Fresh Call)
    (userID : String) :
    (∃ i s r, e = .finish i ∧ (serve clock events).sessions[i]? = some s ∧
      s.phase = .running (.done r) ∧ s.call.Concerns (serve clock events).world.db userID) ∨
    SeesSame (serve clock events).world.db (serve clock (events ++ [e])).world.db userID := by
  have hsound := Discipline.sound_run allSafe (Discipline.sound_init (inv_init clock)) events
  rw [serve, serve, run_concat, ← serve]
  rcases Server.step_world_cases (serve clock events) e with hdb | ⟨i, s, r, he, hs, hphase, hdb⟩
  · exact Or.inr (by rw [hdb]; exact fun _ => rfl)
  · by_cases hconcerns : s.call.Concerns (serve clock events).world.db userID
    · exact Or.inl ⟨i, s, r, he, hs, hphase, hconcerns⟩
    · rw [hdb]
      exact Or.inr ((hsound.guar_of_commit hs hphase).2.seesSame hconcerns)

section Lasting

/-- The order is there, with everything of it that never changes. -/
def Kept (db : Db) (o : Order) : Prop :=
  ∃ o', db.orders.find? o.id = some o' ∧ o'.id = o.id ∧ o'.ticketID = o.ticketID ∧
    o'.userID = o.userID ∧ o'.expiresAt = o.expiresAt

theorem Change.kept {call : Call} {opened w : State} {held : List Key} {r : Reply} {db' : Db}
    (h : Change call opened held w r db') {o : Order} (hkept : Kept w.db o) : Kept db' o := by
  obtain ⟨o', hfind, hid, hticket, huser, hexpires⟩ := hkept
  obtain ⟨o'', hfind', hevolves⟩ := h.frame.evolves o.id o' hfind
  exact ⟨o'', hfind', hevolves.id.trans hid, hevolves.ticketID.trans hticket,
    hevolves.userID.trans huser, hevolves.expiresAt.trans hexpires⟩

variable {clock : Int} {events : List (Event Int Fresh Call)} {o : Order}

/-- In every run, orders stay. -/
theorem kept_run (hkept : Kept (serve clock events).world.db o)
    (later : List (Event Int Fresh Call)) : Kept (serve clock (events ++ later)).world.db o := by
  induction later using List.reverseRecOn with
  | nil => rwa [List.append_nil]
  | append_singleton later e ih =>
    have hsound := Discipline.sound_run allSafe (Discipline.sound_init (inv_init clock))
      (events ++ later)
    rw [← List.append_assoc, serve, run_concat, ← serve]
    rcases Server.step_world_cases (serve clock (events ++ later)) e with hdb |
      ⟨i, s, r, -, hs, hphase, hdb⟩
    · rwa [hdb]
    · rw [hdb]
      exact (hsound.guar_of_commit hs hphase).2.kept ih

/-- A reservation that has returned a new order has stored it. -/
theorem kept_of_committed {i : ℕ} {s : Tran} {input : TicketReservationInput}
    (hs : (serve clock events).sessions[i]? = some s) (hcall : s.call = .reserveTicket input)
    (hend : s.phase = .ended (.committed (.reservation ⟨true, o⟩))) :
    o = newOrder input o.id ∧ Kept (serve clock events).world.db o := by
  have hlasting : discipline.Lasting fun call _ r w => ∀ input o,
      call = .reserveTicket input → r = .reservation ⟨true, o⟩ →
        o = newOrder input o.id ∧ Kept w.db o := by
    refine ⟨?_, fun h _ _ => h, fun _ h hguar input o hcall hr => ?_⟩
    · rintro call opened r held w db' - ⟨-, hchange⟩ input o hcall rfl
      cases hchange with
      | unchanged _ hfound => exact absurd (hfound _ rfl) (by simp)
      | @reserved input' _ id _ _ hcall' _ _ hnew =>
        obtain rfl := Call.reserveTicket.inj (hcall.symm.trans hcall')
        have hself := Table.find?_insert_self (r := newOrder input id) hnew
        exact ⟨rfl, newOrder input id, hself, rfl, rfl, rfl, rfl⟩
      | canceled _ _ _ _ _ _ _ _ hfound => exact absurd rfl (hfound _)
    · obtain ⟨hnew, hkept⟩ := h input o hcall hr
      exact ⟨hnew, hguar.2.kept hkept⟩
  exact Discipline.committed_run allSafe (inv_init clock) hlasting events ⟨hs, hend⟩ input o hcall
    rfl

end Lasting

end Orders
