import PolyglotTicketing.Expiration.Handler
import PolyglotTicketing.Orders.Outbox
import PolyglotTicketing.Payments.Outbox
import PolyglotTicketing.Tickets.Outbox

/-!
# What one service announces, the others accept

Every handler of an event checks what it gets. `nothing_rejected` traces all of these checks back to
what the service that announces the event has checked itself, or to a constraint of its database:
in every reachable state of Tickets, Orders and Payments, no handler rejects a row of their
outboxes, and none rejects what Expiration makes of such a row.
-/

namespace Integration

open Platform Contracts Messaging Wire

/-- A handler finds no fault with an event, and the database none with the identifiers in it. -/
def Passes {ε Call : Type} (r : Except ε (Query Call)) : Prop := ∃ q, r = .ok q ∧ q.Accepted

/-- What has no fault passes. -/
theorem Passes.of_not {ε Call : Type} {fault : Prop} [Decidable fault] {err : ε} {q : Query Call}
    (hfault : ¬fault) (hids : ∀ id ∈ q.ids, ∃ u, id = uuidText u) :
    Passes (if fault then .error err else .ok q) := by
  refine ⟨q, if_neg hfault, fun id hid => ?_⟩
  obtain ⟨u, rfl⟩ := hids id hid
  simp [uuidIn_uuidText]

variable {protobuf : Protobuf}

section Tickets

variable {e : OutboxEvent Contracts.TicketEvent}

/-- Orders accepts an event about a proper ticket. -/
theorem passes_ticketEvent {t : Tickets.Ticket} (ht : t.Proper) (eventID : Uuid)
    (occurredAt : Int) :
    Passes (Orders.TicketHandler.apply ⟨uuidText eventID, some (.new occurredAt),
      some (ofTicket t.snapshot), t.aggregateVersion⟩) := by
  obtain ⟨htitle, hversion, hprice⟩ := ht
  rw [Orders.TicketHandler.apply]
  refine .of_not ?_ ?_
  · simp [ofTicket, Tickets.Ticket.snapshot, htitle, hprice, hversion]
  · simp [ofTicket]

/-- Orders accepts what Tickets announces. -/
theorem passes_ticketHandler (h : Tickets.Announced e) :
    Passes (Orders.TicketHandler.handle protobuf e.subject (marshalTicket protobuf e.payload)) := by
  obtain ⟨t, n, fresh, ht, rfl | rfl⟩ := h
  · -- The subject selects the message, and decoding gives back what was encoded.
    change Passes (Orders.TicketHandler.handle protobuf ticketCreatedSubject
      (protobuf.ticketCreated.marshal _))
    rw [Orders.TicketHandler.handle, if_pos rfl, Codec.unmarshal_marshal]
    exact passes_ticketEvent ht fresh.id fresh.occurredAt
  · change Passes (Orders.TicketHandler.handle protobuf ticketUpdatedSubject
      (protobuf.ticketUpdated.marshal _))
    rw [Orders.TicketHandler.handle, if_neg (by decide), if_pos rfl, Codec.unmarshal_marshal]
    exact passes_ticketEvent ht fresh.id fresh.occurredAt

end Tickets

section Orders

variable {e : OutboxEvent OrderEvent}

/-- Tickets accepts what Orders announces. -/
theorem passes_ticketsOrderHandler (hdatable : Datable e.createdAt)
    (h : Orders.AnnouncedCreated e ∨ Orders.AnnouncedCanceled e) :
    Passes (Tickets.OrderHandler.handle protobuf e.subject (marshalOrder protobuf e.payload)) := by
  rcases h with ⟨input, id, ticket, n, fresh, ⟨huser, hexpires⟩, ⟨hprice, -⟩, rfl⟩ |
    ⟨o, n, fresh, hversion, rfl⟩
  · -- The announcement shows the time at which its row was written.
    have hoccurred : Datable fresh.occurredAt := hdatable
    change Passes (Tickets.OrderHandler.handle protobuf orderCreatedSubject
      (protobuf.orderCreated.marshal _))
    rw [Tickets.OrderHandler.handle, if_pos rfl, Tickets.OrderHandler.handleCreated,
      Codec.unmarshal_marshal]
    refine .of_not ?_ (by simp [ofOrderCreated])
    simp [ofOrderCreated, huser, hprice, hexpires, hoccurred, Orders.newOrder,
      Orders.toProtoOrderStatus]
  · have hoccurred : Datable fresh.occurredAt := hdatable
    change Passes (Tickets.OrderHandler.handle protobuf orderCanceledSubject
      (protobuf.orderCanceled.marshal _))
    rw [Tickets.OrderHandler.handle, if_neg (by decide), if_pos rfl,
      Tickets.OrderHandler.handleCanceled, Codec.unmarshal_marshal]
    refine .of_not ?_ (by simp [ofOrderCanceled])
    simp [ofOrderCanceled, hversion, hoccurred]

/-- Payments accepts what Orders announces. -/
theorem passes_paymentsOrderHandler (hdatable : Datable e.createdAt)
    (h : Orders.AnnouncedCreated e ∨ Orders.AnnouncedCanceled e) :
    Passes (Payments.OrderHandler.handle protobuf e.subject (marshalOrder protobuf e.payload)) := by
  rcases h with ⟨input, id, ticket, n, fresh, ⟨huser, hexpires⟩, ⟨hprice, -⟩, rfl⟩ |
    ⟨o, n, fresh, hversion, rfl⟩
  · have hoccurred : Datable fresh.occurredAt := hdatable
    change Passes (Payments.OrderHandler.handle protobuf orderCreatedSubject
      (protobuf.orderCreated.marshal _))
    rw [Payments.OrderHandler.handle, if_pos rfl, Payments.OrderHandler.handleCreated,
      Codec.unmarshal_marshal]
    refine .of_not ?_ (by simp [ofOrderCreated])
    simp [ofOrderCreated, huser, hprice, hexpires, hoccurred, Orders.newOrder,
      Orders.toProtoOrderStatus, Payments.OrderHandler.ValidEnvelope, uuidParse_uuidText]
  · have hoccurred : Datable fresh.occurredAt := hdatable
    change Passes (Payments.OrderHandler.handle protobuf orderCanceledSubject
      (protobuf.orderCanceled.marshal _))
    rw [Payments.OrderHandler.handle, if_neg (by decide), if_pos rfl,
      Payments.OrderHandler.handleCanceled, Codec.unmarshal_marshal]
    refine .of_not ?_ (by simp [ofOrderCanceled])
    simp [ofOrderCanceled, hversion, hoccurred, Payments.OrderHandler.ValidEnvelope,
      uuidParse_uuidText]

/-- A time in the years 1 to 9999 is a valid date. -/
theorem not_invalidDate {time : Int} (h : Datable time) :
    ¬Expiration.InvalidDate (Expiration.timestampMs (.new time)) := by
  simp only [Datable, Platform.seconds] at h
  simp only [Expiration.InvalidDate, Expiration.timestampMs, Timestamp.new]
  omega

/-- The text of an identifier is more than white space. -/
theorem not_trimmedEmpty_uuidText (u : Uuid) : ¬Expiration.TrimmedEmpty (uuidText u) := by
  intro hempty
  have htrimmed := List.all_eq_true.mp hempty '-' (dash_mem_uuidText u)
  exact absurd htrimmed (by decide)

/-- Expiration schedules a job for what Orders announces as created. -/
theorem schedules_orderCreated (h : Orders.AnnouncedCreated e) :
    ∃ job orderID,
      Expiration.OrderCreatedHandler.handle protobuf (marshalOrder protobuf e.payload) = .ok job ∧
        job.orderID = uuidText orderID := by
  obtain ⟨input, id, ticket, n, fresh, ⟨huser, hexpires⟩, -, rfl⟩ := h
  change ∃ job orderID, Expiration.OrderCreatedHandler.handle protobuf
    (protobuf.orderCreated.marshal _) = .ok job ∧ _
  rw [Expiration.OrderCreatedHandler.handle, Codec.unmarshal_marshal]
  refine ⟨_, id, if_neg ?_, rfl⟩
  simp [ofOrderCreated, not_trimmedEmpty_uuidText, not_invalidDate hexpires, Orders.newOrder,
    Orders.toProtoOrderStatus]

/-- The milliseconds of a time in the years 1 to 9999 lie in them. -/
theorem dated_timestampNow {now : Int} (h : Datable now) :
    Dated (some (Expiration.timestampNow now)) := by
  simp only [Datable, Platform.seconds] at h
  simp only [Expiration.timestampNow, dated_new_iff, Datable, Platform.seconds]
  omega

/-- Orders accepts what Expiration publishes for a job. -/
theorem passes_expirationComplete (orderID : Uuid) {now : Int} (hnow : Datable now) :
    Passes (Orders.ExpirationCompleteHandler.handle protobuf
      (Expiration.publishExpirationComplete protobuf now (uuidText orderID))) := by
  rw [Expiration.publishExpirationComplete, Orders.ExpirationCompleteHandler.handle,
    Codec.unmarshal_marshal]
  refine .of_not ?_ (by simp)
  simp [dated_timestampNow hnow, uuidParse_uuidText]

end Orders

section Payments

/-- Orders accepts an event about a payment. -/
theorem passes_handlePayment (codec : Codec Wire.PaymentEvent) (call : Uuid → Uuid → Orders.Call)
    (eventID paymentID orderID : Uuid) {occurredAt : Int} (h : Datable occurredAt) :
    Passes (Orders.handlePayment codec call (codec.marshal
      ⟨uuidText eventID, some (.new occurredAt), uuidText paymentID, uuidText orderID⟩)) := by
  rw [Orders.handlePayment, Codec.unmarshal_marshal]
  refine .of_not ?_ (by simp)
  simp [Orders.ValidPaymentEvent, h, uuidParse_uuidText]

variable {e : OutboxEvent Contracts.PaymentEvent}

/-- Orders accepts what Payments announces as created. -/
theorem passes_paymentCreatedHandler (hdatable : Datable e.createdAt) (h : Payments.Announced e)
    (hsubject : e.subject = paymentCreatedSubject) :
    Passes (Orders.PaymentCreatedHandler.handle protobuf (marshalPayment protobuf e.payload)) := by
  obtain ⟨p, n, fresh, rfl | rfl | rfl⟩ := h
  · exact passes_handlePayment _ _ _ _ _ hdatable
  · exact absurd hsubject (by decide : paymentSucceededSubject ≠ paymentCreatedSubject)
  · exact absurd hsubject (by decide : paymentFailedSubject ≠ paymentCreatedSubject)

/-- Orders accepts what Payments announces as a result. -/
theorem passes_paymentResultHandler (hdatable : Datable e.createdAt) (h : Payments.Announced e)
    (hsubject : e.subject ≠ paymentCreatedSubject) :
    Passes (Orders.PaymentResultHandler.handle protobuf e.subject
      (marshalPayment protobuf e.payload)) := by
  obtain ⟨p, n, fresh, rfl | rfl | rfl⟩ := h
  · exact absurd rfl hsubject
  · change Passes (Orders.PaymentResultHandler.handle protobuf paymentSucceededSubject _)
    rw [Orders.PaymentResultHandler.handle, if_pos rfl]
    exact passes_handlePayment _ _ _ _ _ hdatable
  · change Passes (Orders.PaymentResultHandler.handle protobuf paymentFailedSubject _)
    rw [Orders.PaymentResultHandler.handle, if_neg (by decide), if_pos rfl]
    exact passes_handlePayment _ _ _ _ _ hdatable

end Payments

/-- No service rejects what another one produces: in every reachable state, every row of an outbox
passes every handler of its subject, and so does what Expiration publishes, at any time, for the job
it has scheduled for a row. -/
theorem nothing_rejected (protobuf : Protobuf) :
    (∀ db, Tickets.Reachable protobuf db → ∀ e ∈ db.outboxEvents.rows,
      Passes (Orders.TicketHandler.handle protobuf e.subject (marshalTicket protobuf e.payload))) ∧
    (∀ db, Orders.Reachable protobuf db → ∀ e ∈ db.outboxEvents.rows,
      Passes (Tickets.OrderHandler.handle protobuf e.subject (marshalOrder protobuf e.payload)) ∧
      Passes (Payments.OrderHandler.handle protobuf e.subject (marshalOrder protobuf e.payload)) ∧
      (e.subject = orderCreatedSubject → ∃ job,
        Expiration.OrderCreatedHandler.handle protobuf (marshalOrder protobuf e.payload) = .ok job ∧
        ∀ now, Datable now → Passes (Orders.ExpirationCompleteHandler.handle protobuf
          (Expiration.publishExpirationComplete protobuf now job.orderID)))) ∧
    ∀ db, Payments.Reachable protobuf db → ∀ e ∈ db.outboxEvents.rows,
      (e.subject = paymentCreatedSubject → Passes (Orders.PaymentCreatedHandler.handle protobuf
        (marshalPayment protobuf e.payload))) ∧
      (e.subject ≠ paymentCreatedSubject → Passes (Orders.PaymentResultHandler.handle protobuf
        e.subject (marshalPayment protobuf e.payload))) := by
  refine ⟨?_, ?_, ?_⟩
  · intro db hdb e he
    exact passes_ticketHandler ((Tickets.proper_of_reachable hdb).outbox e he)
  · intro db hdb e he
    have hannounced := (Orders.proper_of_reachable hdb).outbox e he
    have hdatable := Orders.datable_of_reachable hdb e he
    refine ⟨passes_ticketsOrderHandler hdatable hannounced,
      passes_paymentsOrderHandler hdatable hannounced, fun hsubject => ?_⟩
    rcases hannounced with hcreated | ⟨o, n, fresh, -, rfl⟩
    · obtain ⟨job, orderID, hjob, horder⟩ := schedules_orderCreated hcreated
      refine ⟨job, hjob, fun now hnow => ?_⟩
      rw [horder]
      exact passes_expirationComplete orderID hnow
    · exact absurd hsubject (by decide : orderCanceledSubject ≠ orderCreatedSubject)
  · intro db hdb e he
    have hannounced := Payments.announced_of_reachable hdb e he
    have hdatable := Payments.datable_of_reachable hdb e he
    exact ⟨passes_paymentCreatedHandler hdatable hannounced,
      passes_paymentResultHandler hdatable hannounced⟩

end Integration
