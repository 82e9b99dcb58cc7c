import PolyglotTicketing.Integration.Schedule

/-!
# From the ticket to the payment

What Tickets says of a ticket is copied twice: Orders projects it, and Payments projects the orders.
`ticket_projected` says that what Orders shows of a ticket is a version of it, never one that it has
not had, and the current one as soon as Orders has applied the message about it. `price_paid` says
that what is charged for an order is a price that its ticket has really had, and that it is charged
to the user who placed the order.
-/

namespace Integration

open Platform Contracts Relational Transaction Transition Wire

namespace Services

/-- Tickets has announced a version of a ticket. -/
def Version (db : Tickets.Db) (t : Tickets.Ticket) : Prop :=
  ∃ row ∈ db.outboxEvents.rows, Tickets.Announces t row

/-- What Orders shows of a version. -/
def projectionOf (t : Tickets.Ticket) : Orders.Ticket :=
  Orders.projection t.snapshot t.aggregateVersion

/-- A row of the outbox announces one version only, as far as Orders sees it. -/
theorem projectionOf_eq_of_announces {t t' : Tickets.Ticket}
    {row : OutboxEvent Contracts.TicketEvent}
    (h : Tickets.Announces t row) (h' : Tickets.Announces t' row) :
    projectionOf t = projectionOf t' := by
  have hcall := (handleTicket_of_announces h).symm.trans (handleTicket_of_announces h')
  exact (Orders.Call.upsertTicketFromEvent.inj hcall).2

/-- The versions of a ticket are those before the current one, and the current one. -/
theorem version_cases {db : Tickets.Db} (hdb : Tickets.Chronicled db) {t : Tickets.Ticket}
    (h : Version db t) : ∃ current, db.tickets.find? t.id = some current ∧
      t.aggregateVersion ≤ current.aggregateVersion ∧
      (t.aggregateVersion = current.aggregateVersion → projectionOf t = projectionOf current) := by
  obtain ⟨row, hrow, hannounces⟩ := h
  obtain ⟨current, hfind⟩ := Option.ne_none_iff_exists'.mp (hdb.known row hrow)
  rw [hannounces.ticketID] at hfind
  have hid : current.id = t.id := Table.key_of_find? hfind
  have hhistory := hdb.history current (Table.mem_of_find? hfind)
  -- The row is at the place of its version in the history.
  have hmem : row ∈ Tickets.historyOf db current.id :=
    mem_eventsAbout.mpr ⟨hrow, hannounces.ticketID.trans hid.symm⟩
  obtain ⟨v, hv⟩ := List.getElem?_of_mem hmem
  obtain ⟨t', -, hversion, hannounces'⟩ := hhistory.version v row hv
  have hsame := projectionOf_eq_of_announces hannounces hannounces'
  have hv' : t.aggregateVersion = v :=
    (congrArg Orders.Ticket.aggregateVersion hsame).trans hversion
  have hlt := (List.getElem?_eq_some_iff.mp hv).1
  have hlength := hhistory.length
  refine ⟨current, hfind, by omega, fun heq => ?_⟩
  -- The current version is announced by the last row.
  obtain ⟨last, hlast, hcurrent⟩ := hhistory.current
  rw [List.getLast?_eq_getElem?, show (Tickets.historyOf db current.id).length - 1 = v by omega,
    hv] at hlast
  obtain rfl := Option.some.inj hlast
  exact projectionOf_eq_of_announces hannounces hcurrent

/-- The copies that the services have of each other's data. -/
structure Copied (s : Services) : Prop where
  /-- Orders shows versions of the tickets. -/
  projected : ∀ x ∈ s.orders.world.db.tickets.rows,
    ∃ t, Version s.tickets.world.db t ∧ projectionOf t = x
  /-- The price of an order is that of a version of its ticket. -/
  priced : ∀ e ∈ s.orders.world.db.outboxEvents.rows, ∀ m, e.payload = .created m →
    ∃ t, Version s.tickets.world.db t ∧ t.id = m.ticket.id ∧ t.price = m.ticket.price
  /-- Payments shows the orders as they have been announced. -/
  followed : ∀ x ∈ s.payments.world.db.orders.rows,
    ∃ e ∈ s.orders.world.db.outboxEvents.rows, ∃ m, e.payload = .created m ∧
      m.orderID = x.id ∧ m.userID = x.userID ∧ m.ticket.price = x.price
  /-- Payments charges for the orders that it shows. -/
  charged : ∀ p ∈ s.payments.world.db.payments.rows,
    s.payments.world.db.orders.find? p.orderID ≠ none

theorem copied_init (tickets orders payments expiration : Int) :
    Copied (init tickets orders payments expiration) := by
  constructor <;> simp [init, Orders.State.init, Orders.Db.init, Payments.State.init,
    Payments.Db.init]

variable {protobuf : Protobuf} {s s' : Services}

/-- Versions stay. -/
theorem Linked.version_of_change (h : Linked protobuf s) {call : Tickets.Call}
    {held : List Tickets.Key} {r : Tickets.Reply} {db' : Tickets.Db}
    (hchange : Tickets.Change call held s.tickets.world r db') {t : Tickets.Ticket}
    (hversion : Version s.tickets.world.db t) : Version db' t := by
  obtain ⟨row, hrow, hannounces⟩ := hversion
  refine ⟨row, ?_, hannounces⟩
  rcases hchange.advances fun x hx => (h.chronicled.history x hx).nonneg with
    ⟨-, houtbox⟩ | ⟨-, t', x, hadvances⟩
  · rwa [houtbox]
  · rw [hadvances.outbox]
    exact List.mem_append_left _ hrow

/-- What Orders shows of the tickets after a commit. -/
theorem Linked.projected_of_change (h : Linked protobuf s) (hcopied : Copied s)
    {t : Orders.Tran} (ht : t ∈ s.orders.sessions) {r : Orders.Reply} {db' : Orders.Db}
    (hchange : Orders.Change t.call t.opened t.held s.orders.world r db') :
    ∀ x ∈ db'.tickets.rows, ∃ t, Version s.tickets.world.db t ∧ projectionOf t = x := by
  generalize hcall : t.call = call at hchange
  cases hchange with
  -- A transaction that changes a ticket handles a message of Tickets.
  | @projected e x hcall' =>
    intro y hy
    rcases Table.mem_of_mem_upsert hy with rfl | hy
    · obtain ⟨row, hrow, hhandle⟩ := h.projects t ht e y (hcall.trans hcall')
      obtain ⟨v, hannounces⟩ := announces_of_ticketRow h.chronicled hrow
      rw [handleTicket_of_announces hannounces, hcall, hcall'] at hhandle
      obtain ⟨-, rfl⟩ := Orders.Call.upsertTicketFromEvent.inj hhandle
      exact ⟨v, ⟨row, hrow, hannounces⟩, rfl⟩
    · exact hcopied.projected y hy
  | _ => exact hcopied.projected

/-- The prices of the orders after a commit. -/
theorem Copied.priced_of_change (h : Copied s) {call : Orders.Call} {opened : Orders.State}
    {held : List Orders.Key} {r : Orders.Reply} {db' : Orders.Db}
    (hchange : Orders.Change call opened held s.orders.world r db') :
    ∀ e ∈ db'.outboxEvents.rows, ∀ m, e.payload = .created m →
      ∃ t, Version s.tickets.world.db t ∧ t.id = m.ticket.id ∧ t.price = m.ticket.price := by
  rcases hchange.outbox_cases with hsame | ⟨x, hnew, hinsert, hrow⟩
  · rw [hsame]
    exact h.priced
  rw [hinsert]
  intro e he m hpayload
  rcases (Table.mem_insert hnew).mp he with he | rfl
  · exact h.priced e he m hpayload
  rcases hrow with ⟨input, ticket, id, n, fresh, hticket, -, -, rfl⟩ | ⟨o, n, fresh, -, -, rfl⟩
  · -- The price of a new order is the one that Orders shows for its ticket.
    obtain ⟨t, hversion, hprojected⟩ := h.projected ticket (Table.mem_of_find? hticket)
    obtain rfl := OrderEvent.created.inj hpayload
    exact ⟨t, hversion, congrArg Orders.Ticket.id hprojected,
      congrArg Orders.Ticket.price hprojected⟩
  · cases hpayload

/-- What Payments shows of the orders after a commit. -/
theorem Linked.followed_of_change (h : Linked protobuf s) (hcopied : Copied s)
    {t : Payments.Tran} (ht : t ∈ s.payments.sessions) {r : Payments.Reply} {db' : Payments.Db}
    (hchange : Payments.Change t.call t.held s.payments.world r db') :
    ∀ x ∈ db'.orders.rows, ∃ e ∈ s.orders.world.db.outboxEvents.rows, ∃ m,
      e.payload = .created m ∧ m.orderID = x.id ∧ m.userID = x.userID ∧
        m.ticket.price = x.price := by
  generalize hcall : t.call = call at hchange
  cases hchange with
  -- A transaction that stores an order handles a message of Orders.
  | @projected e o hcall' _ _ _ _ hnew =>
    intro x hx
    rcases (Table.mem_insert hnew).mp hx with hx | rfl
    · exact hcopied.followed x hx
    · obtain ⟨row, hrow, hhandle⟩ :=
        h.follows t ht (by simp [hcall, hcall', Payments.Call.eventID?])
      rw [hcall, hcall'] at hhandle
      refine ⟨row, hrow, ?_⟩
      cases hpayload : row.payload with
      | created m =>
        simp only [hpayload, Payments.handle, Payments.handleCreated] at hhandle
        split at hhandle
        next => cases hhandle
        next =>
          obtain ⟨-, rfl⟩ := Payments.Call.upsertOrderFromEvent.inj (Except.ok.inj hhandle)
          exact ⟨m, rfl, rfl, rfl, rfl⟩
      | canceled m =>
        simp only [hpayload, Payments.handle, Payments.handleCanceled] at hhandle
        split at hhandle <;> cases hhandle
  | @canceled e id version o _ _ _ hfind =>
    have ho := Table.mem_of_find? hfind
    intro x hx
    have hfind' : s.payments.world.db.orders.find? (key o.cancel) = some o := Table.find?_of_mem ho
    rcases (Table.mem_replace hfind').mp hx with rfl | ⟨hx, -⟩
    · exact hcopied.followed o ho
    · exact hcopied.followed x hx
  | _ => exact hcopied.followed

/-- What Payments charges for after a commit. -/
theorem Copied.charged_of_change (h : Copied s) {call : Payments.Call}
    {held : List Payments.Key} {r : Payments.Reply} {db' : Payments.Db}
    (hchange : Payments.Change call held s.payments.world r db') :
    ∀ p ∈ db'.payments.rows, db'.orders.find? p.orderID ≠ none := by
  -- Orders are not deleted from the projection.
  have hkeep : ∀ id, s.payments.world.db.orders.find? id ≠ none → db'.orders.find? id ≠ none := by
    intro id hid
    obtain ⟨o, hfind⟩ := Option.ne_none_iff_exists'.mp hid
    obtain ⟨o', hfind', -⟩ := hchange.frame.orderEvolves id o hfind
    simp [hfind']
  intro p hp
  cases hfind : s.payments.world.db.payments.find? p.id with
  | none =>
    obtain ⟨input, o, -, -, heq, horder, -⟩ := hchange.payment_of_new hp hfind
    rw [heq]
    exact hkeep _ (by simp [horder])
  | some q =>
    obtain ⟨p', hfind', hevolves⟩ := hchange.frame.paymentEvolves p.id q hfind
    obtain rfl : p = p' := Option.some.inj ((Table.find?_of_mem hp).symm.trans hfind')
    rw [hevolves.orderID]
    exact hkeep _ (h.charged q (Table.mem_of_find? hfind))

/-- Every event keeps the copies in order. -/
theorem Copied.move (hcopied : Copied s) (h : Linked protobuf s) (hmoves : Moves s s') :
    Copied s' := by
  cases hmoves with
  | quiet tickets orders payments =>
    constructor
    · simpa only [tickets, orders] using hcopied.projected
    · simpa only [tickets, orders] using hcopied.priced
    · simpa only [orders, payments] using hcopied.followed
    · simpa only [payments] using hcopied.charged
  | tickets ht hchange orders payments =>
    have hkeep : ∀ {t}, Version s.tickets.world.db t → Version s'.tickets.world.db t :=
      fun hversion => h.version_of_change hchange hversion
    constructor
    · intro x hx
      obtain ⟨t, hversion, heq⟩ := hcopied.projected x (orders ▸ hx)
      exact ⟨t, hkeep hversion, heq⟩
    · intro e he m hpayload
      obtain ⟨t, hversion, hrest⟩ := hcopied.priced e (orders ▸ he) m hpayload
      exact ⟨t, hkeep hversion, hrest⟩
    · simpa only [orders, payments] using hcopied.followed
    · simpa only [payments] using hcopied.charged
  | orders ht hchange tickets payments =>
    constructor
    · simpa only [tickets] using h.projected_of_change hcopied ht hchange
    · simpa only [tickets] using hcopied.priced_of_change hchange
    · intro x hx
      obtain ⟨e, he, hrest⟩ := hcopied.followed x (payments ▸ hx)
      exact ⟨e, hchange.outbox_subset e he, hrest⟩
    · simpa only [payments] using hcopied.charged
  | payments ht hchange tickets orders =>
    constructor
    · simpa only [tickets, orders] using hcopied.projected
    · simpa only [tickets, orders] using hcopied.priced
    · simpa only [orders] using h.followed_of_change hcopied ht hchange
    · exact hcopied.charged_of_change hchange

variable (protobuf) in
/-- The copies are in order in every reachable state. -/
theorem copied_run (tickets orders payments expiration : Int) (events : List Event) :
    Copied (run (step protobuf) (init tickets orders payments expiration) events) :=
  (run_invariant (P := fun s => Linked protobuf s ∧ Copied s)
    (fun _ e h => ⟨h.1.step e, h.2.move h.1 (h.1.moves e)⟩)
    ⟨linked_init protobuf tickets orders payments expiration,
      copied_init tickets orders payments expiration⟩ events).2

/-- Orders shows a ticket, in this version or a later one. -/
def Shows (id : Uuid) (version : Int) (s : Services) : Prop :=
  ∃ x, s.orders.world.db.tickets.find? id = some x ∧ version ≤ x.aggregateVersion

/-- A commit of Orders does not go back to an older version. -/
theorem shows_of_change {id : Uuid} {version : Int} {call : Orders.Call} {opened w : Orders.State}
    {held : List Orders.Key} {r : Orders.Reply} {db' : Orders.Db}
    (hchange : Orders.Change call opened held w r db')
    (hshows : ∃ x, w.db.tickets.find? id = some x ∧ version ≤ x.aggregateVersion) :
    ∃ x, db'.tickets.find? id = some x ∧ version ≤ x.aggregateVersion := by
  cases hchange with
  | @projected e t _ _ _ _ hnext =>
    obtain ⟨x, hfind, hle⟩ := hshows
    by_cases hid : id = t.id
    · -- The version that is stored is the next one.
      rw [← hid, hfind] at hnext
      simp only [Option.elim_some] at hnext
      exact ⟨t, by rw [Table.find?_upsert, Orders.key_ticket, if_pos hid], by omega⟩
    · exact ⟨x, by rwa [Table.find?_upsert, Orders.key_ticket, if_neg hid], hle⟩
  | _ => exact hshows

/-- Orders does not go back to an older version. -/
theorem Shows.step {id : Uuid} {version : Int} (h : Linked protobuf s) (e : Event)
    (hshows : Shows id version s) : Shows id version (s.step protobuf e) := by
  cases h.moves e with
  | quiet tickets orders payments => rwa [Shows, orders]
  | tickets ht hchange orders payments => rwa [Shows, orders]
  | orders ht hchange tickets payments => exact shows_of_change hchange hshows
  | payments ht hchange tickets orders => rwa [Shows, orders]

/-- When Orders applies a version of a ticket, it shows this version or a later one. -/
theorem Applies.shows {t : Tickets.Ticket} {row : OutboxEvent Contracts.TicketEvent} {e : Event}
    (h : Linked protobuf s) (hannounces : Tickets.Announces t row)
    (happlies : Applies (Orders.handleTicket row.payload) s e) :
    Shows t.id t.aggregateVersion (s.step protobuf e) := by
  obtain ⟨t', -, -, ⟨r, hchange⟩, hnew⟩ := happlies.change h
  rw [handleTicket_of_announces hannounces] at hchange hnew
  have hnew := hnew row.eventID rfl
  unfold Shows
  generalize (s.step protobuf e).orders.world.db = db' at hchange ⊢
  cases hchange with
  | unchanged hwhy =>
    rcases hwhy with ⟨x, hx, hmem⟩ | ⟨hnone, -⟩
    · obtain rfl := Option.some.inj hx
      exact absurd hmem hnew
    · cases hnone
  | recorded _ _ hlate => exact hlate.ticket _ _ rfl
  | projected hcall =>
    obtain ⟨-, rfl⟩ := Orders.Call.upsertTicketFromEvent.inj hcall
    exact ⟨projectionOf t, (Table.find?_upsert _ _ _).trans (if_pos rfl), le_refl _⟩
  | reserved hcall => cases hcall
  | advanced hmove => cases hmove
  | canceled hmove => cases hmove

/-- In every run of the services, whatever is delivered late, repeatedly or never: a ticket that
Orders shows is a version of a ticket of Tickets, and not a newer one than the current; and as soon
as Orders has applied the message about the current version, it shows the ticket as it is. -/
theorem ticket_projected (protobuf : Protobuf) (tickets orders payments expiration : Int)
    (events : List Event) :
    let init := init tickets orders payments expiration
    let s := run (step protobuf) init events
    (∀ x ∈ s.orders.world.db.tickets.rows, ∃ t, Version s.tickets.world.db t ∧
      projectionOf t = x ∧ ∃ current ∈ s.tickets.world.db.tickets.rows,
        current.id = x.id ∧ x.aggregateVersion ≤ current.aggregateVersion) ∧
    ∀ t ∈ s.tickets.world.db.tickets.rows, ∀ row,
      (Tickets.historyOf s.tickets.world.db t.id).getLast? = some row →
      Applied protobuf (Orders.handleTicket row.payload) init events →
        s.orders.world.db.tickets.find? t.id = some (projectionOf t) := by
  intro start s
  have h : Linked protobuf s := linked_run protobuf tickets orders payments expiration events
  have hcopied : Copied s := copied_run protobuf tickets orders payments expiration events
  refine ⟨?_, ?_⟩
  · intro x hx
    obtain ⟨t, hversion, rfl⟩ := hcopied.projected x hx
    obtain ⟨current, hfind, hle, -⟩ := version_cases h.chronicled hversion
    exact ⟨t, hversion, rfl, current, Table.mem_of_find? hfind, Table.key_of_find? hfind, hle⟩
  · intro t ht row hlast happlied
    obtain ⟨last, hlast', hannounces⟩ := (h.chronicled.history t ht).current
    obtain rfl := Option.some.inj (hlast'.symm.trans hlast)
    have hshows : Shows t.id t.aggregateVersion s :=
      happlied.lasting (linked_init protobuf tickets orders payments expiration)
        (fun _ _ hs => Applies.shows hs hannounces) fun _ e hs => Shows.step hs e
    obtain ⟨x, hfind, hle⟩ := hshows
    -- What Orders shows is a version, and not an older one than the current.
    obtain ⟨v, hversion, rfl⟩ := hcopied.projected x (Table.mem_of_find? hfind)
    obtain ⟨current, hcurrent, hle', hsame⟩ := version_cases h.chronicled hversion
    have hid : v.id = t.id := Table.key_of_find? hfind
    have hself : s.tickets.world.db.tickets.find? t.id = some t := Table.find?_of_mem ht
    obtain rfl : t = current := Option.some.inj (hself.symm.trans (hid ▸ hcurrent))
    rw [hfind, hsame (le_antisymm hle' hle)]

/-- In the sale, Orders applies the message about the current version of the ticket. -/
theorem applied_locked_sale (protobuf : Protobuf) :
    Applied protobuf (Orders.handleTicket locked) (init 0 0 0 0) (sale protobuf) :=
  applied_sale protobuf 4 2 rfl rfl (by decide +kernel) (by decide +kernel) (by decide +kernel)

/-- After the sale, Orders shows the ticket as it is. -/
theorem ticket_projected_sale :
    ∃ t ∈ (run (step .unary) (init 0 0 0 0) (sale .unary)).tickets.world.db.tickets.rows,
      t.reservedByOrderID = some 22 ∧
      (run (step .unary) (init 0 0 0 0) (sale .unary)).orders.world.db.tickets.find? t.id =
        some (projectionOf t) := by
  have hcurrent : ∃ t ∈ (Tickets.serve 0 (offering ++ locking)).world.db.tickets.rows,
      t.reservedByOrderID = some 22 ∧
        ∃ row, (Tickets.historyOf (Tickets.serve 0 (offering ++ locking)).world.db
          t.id).getLast? = some row ∧ row.payload = locked := by decide +kernel
  obtain ⟨t, ht, hreserved, row, hlast, hpayload⟩ := hcurrent
  obtain ⟨-, hprojected⟩ := ticket_projected .unary 0 0 0 0 (sale .unary)
  have happlied := applied_locked_sale .unary
  rw [← hpayload] at happlied
  rw [run_sale] at hprojected ⊢
  exact ⟨t, ht, hreserved, hprojected t ht row hlast happlied⟩

/-- Payments charges for the order `x`, as it shows it, what is right: the order is one of Orders,
it is charged to the user who has placed it, and its price is one that Tickets has announced for
its ticket. -/
def Charges (s : Services) (p : Payments.Payment) (x : Payments.Order) : Prop :=
  x.id = p.orderID ∧ ∃ o ∈ s.orders.world.db.orders.rows, o.id = p.orderID ∧
    o.userID = x.userID ∧ ∃ t, Version s.tickets.world.db t ∧ t.id = o.ticketID ∧ t.price = x.price

/-- Every payment is charged for an order at a price that its ticket has had. -/
def Charged (s : Services) : Prop :=
  ∀ p ∈ s.payments.world.db.payments.rows, ∃ x ∈ s.payments.world.db.orders.rows, Charges s p x

/-- In every state of every run of the services, all payments are charged for what is right. -/
theorem price_paid (protobuf : Protobuf) (tickets orders payments expiration : Int)
    (events : List Event) :
    EachState (step protobuf) Charged (init tickets orders payments expiration) events := by
  rw [eachState_iff_forall_segment]
  rintro front back - p hp
  have h := linked_run protobuf tickets orders payments expiration front
  have hcopied := copied_run protobuf tickets orders payments expiration front
  obtain ⟨x, hfind⟩ := Option.ne_none_iff_exists'.mp (hcopied.charged p hp)
  have hx := Table.mem_of_find? hfind
  have hid : x.id = p.orderID := Table.key_of_find? hfind
  -- The projected order is that of an announcement, which shows the order and its ticket.
  obtain ⟨e, he, m, hpayload, horder, huser, hprice⟩ := hcopied.followed x hx
  obtain ⟨t, hversion, hticket, hpriced⟩ := hcopied.priced e he m hpayload
  obtain ⟨o, ho, ⟨-, occurredAt, price, -, hcreated⟩ | ⟨-, -, occurredAt, hcanceled⟩⟩ :=
    announces_of_row h.coherent.consistent he
  · obtain rfl := OrderEvent.created.inj (hpayload.symm.trans hcreated)
    exact ⟨x, hx, hid, o, ho, horder.trans hid, huser, t, hversion, hticket,
      hpriced.trans hprice⟩
  · cases hpayload.symm.trans hcanceled

end Services

end Integration
