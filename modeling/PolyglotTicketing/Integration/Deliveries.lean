import PolyglotTicketing.Expiration.Handler
import PolyglotTicketing.Orders.OrderHistory
import PolyglotTicketing.Orders.Outbox
import PolyglotTicketing.Payments.Outbox
import PolyglotTicketing.Payments.Projection
import PolyglotTicketing.Tickets.VersionHistory
import PolyglotTicketing.Tickets.Handlers

/-!
# Deliveries

A service learns of the rows of the others' outboxes through their encoded payloads. The lemmas say
which call a handler makes for a row, if it makes one at all: the one with the identifiers and the
values that were written into the row.
-/

namespace Tickets

open Contracts

/-- The call that the handlers make for a message of Orders. -/
def handle : OrderEvent → Call
  | .created event => .reserveTicketFromOrder event.eventID event.orderID event.ticket.id
  | .canceled event => .unreserveTicketFromOrder event.eventID event.orderID event.ticket.id

end Tickets

namespace Orders

open Contracts

/-- The projection of a ticket that a message of Tickets shows. -/
def projection (ticket : ProtoTicket) (aggregateVersion : Int) : Ticket where
  aggregateVersion := aggregateVersion
  id := ticket.id
  title := ticket.title
  price := ticket.price

/-- The call that the handler makes for a message of Tickets. -/
def handleTicket : TicketEvent → Call
  | .created event =>
    .upsertTicketFromEvent event.eventID (projection event.ticket event.aggregateVersion)
  | .updated event =>
    .upsertTicketFromEvent event.eventID (projection event.ticket event.aggregateVersion)

end Orders

namespace Integration

open Platform Contracts Messaging Relational Wire

variable {protobuf : Protobuf}

/-- What a check lets pass. -/
private theorem ok_of_check {ε α : Type} {fault : Prop} [Decidable fault] {err : ε} {a b : α}
    (h : (if fault then .error err else .ok a : Except ε α) = .ok b) : ¬fault ∧ b = a := by
  split at h
  next => simp at h
  next hfault => exact ⟨hfault, (Except.ok.inj h).symm⟩

/-- What gets past a check leads to its call. -/
private theorem call_of_received {ε Call : Type} {fault : Prop} [Decidable fault] {err : ε}
    {q : Query Call} {call : Call}
    (h : received (if fault then .error err else .ok q) = some call) :
    ¬fault ∧ call = q.call fun id => (uuidIn id).getD 0 := by
  obtain ⟨q', hq, rfl⟩ := exists_of_received h
  obtain ⟨hfault, rfl⟩ := ok_of_check hq
  exact ⟨hfault, rfl⟩

section Orders

variable {e : OutboxEvent OrderEvent}

/-- A row of the outbox of Orders announces the creation or the cancellation of an order. -/
theorem announces_of_row {db : Orders.Db} (hdb : Orders.Consistent db)
    (he : e ∈ db.outboxEvents.rows) :
    ∃ o ∈ db.orders.rows, Orders.AnnouncesCreation o e ∨
      o.status = .canceled ∧ Orders.AnnouncesCancellation o e := by
  obtain ⟨o, hfind⟩ := Option.ne_none_iff_exists'.mp (hdb.known e he)
  have ho := Table.mem_of_find? hfind
  have hid : o.id = e.payload.orderID := Table.key_of_find? hfind
  have hmem := mem_eventsAbout.mpr ⟨he, hid.symm⟩
  refine ⟨o, ho, ?_⟩
  have hannounced := hdb.announced o ho
  unfold Orders.Announced at hannounced
  split at hannounced
  next hcanceled =>
    obtain ⟨created, canceled, hevents, hcreation, hcancellation, -⟩ := hannounced
    rw [hevents] at hmem
    rcases List.mem_pair.mp hmem with rfl | rfl
    · exact Or.inl hcreation
    · exact Or.inr ⟨hcanceled, hcancellation⟩
  next =>
    obtain ⟨created, hevents, hcreation⟩ := hannounced
    rw [hevents] at hmem
    obtain rfl := List.mem_singleton.mp hmem
    exact Or.inl hcreation

/-- What Tickets does with a row of Orders. -/
theorem handle_of_ticketsOrderHandler {db : Orders.Db} (hdb : Orders.Consistent db)
    (he : e ∈ db.outboxEvents.rows) {call : Tickets.Call}
    (h : received (Tickets.OrderHandler.handle protobuf e.subject
      (marshalOrder protobuf e.payload)) = some call) :
    call = Tickets.handle e.payload := by
  obtain ⟨o, -, ⟨hsubject, occurredAt, price, -, hpayload⟩ |
    ⟨-, hsubject, occurredAt, hpayload⟩⟩ := announces_of_row hdb he
  · rw [hsubject, hpayload, marshalOrder, Tickets.OrderHandler.handle, if_pos rfl,
      Tickets.OrderHandler.handleCreated, Codec.unmarshal_marshal] at h
    obtain ⟨-, rfl⟩ := call_of_received h
    simp [hpayload, Tickets.handle, ofOrderCreated, uuidIn_uuidText]
  · rw [hsubject, hpayload, marshalOrder, Tickets.OrderHandler.handle, if_neg (by decide),
      if_pos rfl, Tickets.OrderHandler.handleCanceled, Codec.unmarshal_marshal] at h
    obtain ⟨-, rfl⟩ := call_of_received h
    simp [hpayload, Tickets.handle, ofOrderCanceled, uuidIn_uuidText]

/-- What Payments does with a row of Orders. -/
theorem handle_of_paymentsOrderHandler {db : Orders.Db} (hdb : Orders.Consistent db)
    (he : e ∈ db.outboxEvents.rows) {call : Payments.Call}
    (h : received (Payments.OrderHandler.handle protobuf e.subject
      (marshalOrder protobuf e.payload)) = some call) :
    Payments.handle e.payload = .ok call := by
  obtain ⟨o, -, ⟨hsubject, occurredAt, price, -, hpayload⟩ |
    ⟨-, hsubject, occurredAt, hpayload⟩⟩ := announces_of_row hdb he
  · rw [hsubject, hpayload, marshalOrder, Payments.OrderHandler.handle, if_pos rfl,
      Payments.OrderHandler.handleCreated, Codec.unmarshal_marshal] at h
    obtain ⟨hvalid, rfl⟩ := call_of_received h
    -- What the handler has checked is what the check of the decoded message asks for.
    simp only [ofOrderCreated, not_or] at hvalid
    rw [hpayload, Payments.handle, Payments.handleCreated, if_neg (by simp [hvalid])]
    simp [ofOrderCreated, uuidIn_uuidText]
  · rw [hsubject, hpayload, marshalOrder, Payments.OrderHandler.handle, if_neg (by decide),
      if_pos rfl, Payments.OrderHandler.handleCanceled, Codec.unmarshal_marshal] at h
    obtain ⟨hvalid, rfl⟩ := call_of_received h
    simp only [ofOrderCanceled, not_or] at hvalid
    rw [hpayload, Payments.handle, Payments.handleCanceled, if_neg (by simp [hvalid])]
    simp [ofOrderCanceled, uuidIn_uuidText]

/-- What Expiration does with a row of Orders that says that an order was created. -/
theorem job_of_orderCreatedHandler {db : Orders.Db} (hdb : Orders.Consistent db)
    (he : e ∈ db.outboxEvents.rows) (hsubject : e.subject = orderCreatedSubject)
    {job : Expiration.Job}
    (h : Expiration.OrderCreatedHandler.handle protobuf (marshalOrder protobuf e.payload) =
      .ok job) :
    ∃ o ∈ db.orders.rows, job.orderID = uuidText o.id ∧
      job.expiresAt = Expiration.timestampMs (.new o.expiresAt) := by
  obtain ⟨o, ho, ⟨-, occurredAt, price, -, hpayload⟩ | ⟨-, hcanceled, -⟩⟩ :=
    announces_of_row hdb he
  · rw [hpayload, marshalOrder, Expiration.OrderCreatedHandler.handle,
      Codec.unmarshal_marshal] at h
    obtain ⟨-, rfl⟩ := ok_of_check h
    exact ⟨o, ho, rfl, rfl⟩
  · exact absurd (hsubject.symm.trans hcanceled) (by decide)

/-- What Orders does with a message of Expiration about an order. -/
theorem call_of_expirationCompleteHandler {now : Int} {id : Uuid} {call : Orders.Call}
    (h : received (Orders.ExpirationCompleteHandler.handle protobuf
      (Expiration.publishExpirationComplete protobuf now (uuidText id))) = some call) :
    call = .applyExpirationComplete id id := by
  rw [Expiration.publishExpirationComplete, Orders.ExpirationCompleteHandler.handle,
    Codec.unmarshal_marshal] at h
  obtain ⟨-, rfl⟩ := call_of_received h
  simp [uuidIn_uuidText]

end Orders

section Tickets

variable {e : OutboxEvent Contracts.TicketEvent}

/-- A row of the outbox of Tickets announces a version of a ticket. -/
theorem announces_of_ticketRow {db : Tickets.Db} (hdb : Tickets.Chronicled db)
    (he : e ∈ db.outboxEvents.rows) : ∃ t, Tickets.Announces t e := by
  obtain ⟨t, hfind⟩ := Option.ne_none_iff_exists'.mp (hdb.known e he)
  have hid : t.id = e.payload.ticketID := Table.key_of_find? hfind
  -- The row is one of the history of its ticket.
  have hmem : e ∈ Tickets.historyOf db t.id := mem_eventsAbout.mpr ⟨he, hid.symm⟩
  obtain ⟨v, hv⟩ := List.getElem?_of_mem hmem
  obtain ⟨t', -, -, hannounces⟩ := (hdb.history t (Table.mem_of_find? hfind)).version v e hv
  exact ⟨t', hannounces⟩

/-- The call that Orders makes for a version of a ticket. -/
theorem handleTicket_of_announces {t : Tickets.Ticket} (h : Tickets.Announces t e) :
    Orders.handleTicket e.payload =
      .upsertTicketFromEvent e.eventID (Orders.projection t.snapshot t.aggregateVersion) := by
  obtain ⟨n, fresh, ⟨-, rfl⟩ | ⟨-, rfl⟩⟩ := h <;> rfl

/-- What Orders does with a message about a ticket. -/
private theorem call_of_ticketEvent {eventID : Uuid} {occurredAt : Option Timestamp}
    {ticket : ProtoTicket} {aggregateVersion : Int} {call : Orders.Call}
    (h : received (Orders.TicketHandler.apply
      ⟨uuidText eventID, occurredAt, some (ofTicket ticket), aggregateVersion⟩) = some call) :
    call = .upsertTicketFromEvent eventID (Orders.projection ticket aggregateVersion) := by
  rw [Orders.TicketHandler.apply] at h
  obtain ⟨-, rfl⟩ := call_of_received h
  simp [ofTicket, uuidIn_uuidText, Orders.projection]

/-- What Orders does with a row of Tickets. -/
theorem handle_of_ticketHandler {db : Tickets.Db} (hdb : Tickets.Chronicled db)
    (he : e ∈ db.outboxEvents.rows) {call : Orders.Call}
    (h : received (Orders.TicketHandler.handle protobuf e.subject
      (marshalTicket protobuf e.payload)) = some call) :
    call = Orders.handleTicket e.payload := by
  obtain ⟨t, hannounces⟩ := announces_of_ticketRow hdb he
  rw [handleTicket_of_announces hannounces]
  obtain ⟨n, fresh, ⟨-, rfl⟩ | ⟨-, rfl⟩⟩ := hannounces
  · change received (Orders.TicketHandler.handle protobuf ticketCreatedSubject
      (protobuf.ticketCreated.marshal _)) = _ at h
    rw [Orders.TicketHandler.handle, if_pos rfl, Codec.unmarshal_marshal] at h
    exact call_of_ticketEvent h
  · change received (Orders.TicketHandler.handle protobuf ticketUpdatedSubject
      (protobuf.ticketUpdated.marshal _)) = _ at h
    rw [Orders.TicketHandler.handle, if_neg (by decide), if_pos rfl,
      Codec.unmarshal_marshal] at h
    exact call_of_ticketEvent h

end Tickets

section Payments

variable {e : OutboxEvent Contracts.PaymentEvent}

/-- The consumers of Orders have a handler for `PaymentCreated` and one for the results. -/
def receivePayment (protobuf : Protobuf) (subject : String) (payload : List UInt8) :
    Option Orders.Call :=
  if subject = paymentCreatedSubject then
    received (Orders.PaymentCreatedHandler.handle protobuf payload)
  else received (Orders.PaymentResultHandler.handle protobuf subject payload)

/-- The handlers of payment events read the event and the order. -/
private theorem call_of_handlePayment {codec : Codec Wire.PaymentEvent}
    {make : Uuid → Uuid → Orders.Call} {eventID paymentID orderID : Uuid}
    {occurredAt : Option Timestamp} {call : Orders.Call}
    (h : received (Orders.handlePayment codec make (codec.marshal
      ⟨uuidText eventID, occurredAt, uuidText paymentID, uuidText orderID⟩)) = some call) :
    call = make eventID orderID := by
  rw [Orders.handlePayment, Codec.unmarshal_marshal] at h
  obtain ⟨-, rfl⟩ := call_of_received h
  simp [uuidIn_uuidText]

/-- What Orders does with a row of Payments. -/
theorem handle_of_receivePayment (he : Payments.Announced e) {call : Orders.Call}
    (h : receivePayment protobuf e.subject (marshalPayment protobuf e.payload) = some call) :
    call = Orders.handle e.payload := by
  obtain ⟨p, n, fresh, rfl | rfl | rfl⟩ := he
  · change receivePayment protobuf paymentCreatedSubject _ = _ at h
    rw [receivePayment, if_pos rfl] at h
    exact call_of_handlePayment h
  · change receivePayment protobuf paymentSucceededSubject _ = _ at h
    rw [receivePayment, if_neg (by decide), Orders.PaymentResultHandler.handle, if_pos rfl] at h
    exact call_of_handlePayment h
  · change receivePayment protobuf paymentFailedSubject _ = _ at h
    rw [receivePayment, if_neg (by decide), Orders.PaymentResultHandler.handle,
      if_neg (by decide), if_pos rfl] at h
    exact call_of_handlePayment h

end Payments

end Integration
