import PolyglotTicketing.Integration.EntryPoints

/-!
# Malformed identifiers

The entry points of Tickets, Orders and Payments have three notions of a valid identifier: none at
all, a text that is not blank, and a text that `uuid.Parse` accepts. The database has a fourth.
`identifiers_accepted_iff` says of every entry point for which requests and events it matters.
-/

namespace Integration

open Platform Contracts Messaging Wire

/-- Every identifier that is passed on is one that the database accepts. -/
def EntryPoint.Sound (protobuf : Protobuf) (e : EntryPoint) : Prop :=
  ∀ ids, e.passes protobuf = some ids → ∀ id ∈ ids, uuidIn id ≠ none

/-- If the request or the event is valid otherwise, then none of its identifiers is of a foreign
form, where `uuid.Parse` is asked, and all of them are groups of digits elsewhere. -/
def EntryPoint.WellFormed (protobuf : Protobuf) (e : EntryPoint) : Prop :=
  e.Valid protobuf → ∀ id ∈ e.ids protobuf, if e.parses then ¬Foreign id else UuidSyntax id

/-- The request or the event has a malformed identifier in it. -/
def EntryPoint.Malformed (protobuf : Protobuf) (e : EntryPoint) : Prop :=
  ∃ id ∈ e.ids protobuf, ¬UuidSyntax id

/-- The event has been processed before, so that only its own identifier is looked at. -/
def EntryPoint.Processed (protobuf : Protobuf) (e : EntryPoint) (s : Surroundings) : Prop :=
  e.isEvent = true ∧
    ∃ id ∈ (e.ids protobuf).head?, ∃ eventID ∈ uuidIn id, eventID ∈ s.processed

/-- The service takes the blame: `codes.Internal`, or the event is delivered again. -/
def Answer.Transient : Answer → Prop
  | .responded code => code = some .internal
  | .delivered _ outcome => outcome = some "retry"

/-- The client is told, or the event is parked as an invalid one, if the queue can be reached. -/
def Answer.Rejects : Answer → Prop
  | .responded code => code = some .invalidArgument
  | .delivered calls outcome => outcome ≠ some "retry" ∧ ∃ parked ack reply,
      parked.failureClass = "invalid" ∧ calls = parkCalls parked ack reply

theorem Answer.Rejects.not_transient {a : Answer} (h : a.Rejects) : ¬a.Transient := by
  cases a with
  | responded code =>
    intro hcode
    cases h.symm.trans hcode
  | delivered calls outcome => exact h.1

section Checks

variable {ε Call : Type}

/-- A request is passed on with its identifiers if it is valid, and rejected otherwise. -/
inductive Decides (valid : Prop) (ids : List String) (refuses : ε → Prop) :
    Except ε (Query Call) → Prop
  | passes {query : Query Call} (hvalid : valid) (hids : query.ids = ids) :
      Decides valid ids refuses (.ok query)
  | rejects {err : ε} (hinvalid : ¬valid) (herr : refuses err) :
      Decides valid ids refuses (.error err)

variable {α : Type} {valid : α → Prop} {ids : α → List String} {refuses : ε → Prop}

/-- A payload that cannot be decoded is rejected. -/
theorem decides_none {err : ε} (herr : refuses err) :
    Decides (∃ a ∈ (none : Option α), valid a) (Option.elim none [] ids) refuses
      (.error err : Except ε (Query Call)) :=
  .rejects (by simp) herr

theorem Decides.decoded {a : α} {r : Except ε (Query Call)}
    (h : Decides (valid a) (ids a) refuses r) :
    Decides (∃ a' ∈ some a, valid a') (Option.elim (some a) [] ids) refuses r := by
  simpa using h

end Checks

section Requests

theorem decides_getTicket (id : String) :
    Decides True [id] (fun _ => True) (.ok (Tickets.Service.getTicket id) : Except Unit _) :=
  .passes trivial rfl

theorem decides_updateTicket (id : String) (input : Tickets.UpdateInput) :
    Decides (Tickets.validateMutation input.title input.price input.userID = []) [id]
      (fun _ => True) (Tickets.Service.updateTicket id input) := by
  rw [Tickets.Service.updateTicket]
  split
  next hinvalid => exact .rejects hinvalid trivial
  next hvalid => exact .passes (not_not.mp hvalid) rfl

theorem validateTicketReservation_eq_nil_iff {ticketID userID : String} :
    Orders.validateTicketReservation ticketID userID = [] ↔
      uuidParse ticketID ≠ none ∧ ¬Blank userID := by
  rw [Orders.validateTicketReservation, Orders.validateOrderUser]
  split_ifs <;> simp [*]

theorem decides_reserveTicket (now : Int) (ticketID userID : String) :
    Decides (uuidParse ticketID ≠ none ∧ ¬Blank userID) [ticketID] (fun _ => True)
      (Orders.Service.reserveTicket now ticketID userID) := by
  rw [← validateTicketReservation_eq_nil_iff, Orders.Service.reserveTicket]
  split
  next hinvalid => exact .rejects hinvalid trivial
  next hvalid => exact .passes (not_not.mp hvalid) rfl

theorem decides_orderOfUser {α : Type} (call : Uuid → String → α) (orderID userID : String) :
    Decides (uuidParse orderID ≠ none ∧ ¬Blank userID) [orderID] (fun _ => True)
      (Orders.Service.orderOfUser call orderID userID) := by
  have horder : Orders.validateOrderID orderID = [] ↔ uuidParse orderID ≠ none := by
    rw [Orders.validateOrderID]
    split_ifs <;> simp [*]
  have huser : Orders.validateOrderUser userID = [] ↔ ¬Blank userID := by
    rw [Orders.validateOrderUser]
    split_ifs <;> simp [*]
  rw [← horder, ← huser, Orders.Service.orderOfUser]
  split
  next hinvalid => exact .rejects (fun h => hinvalid h.1) trivial
  next hvalid =>
    split
    next hinvalid => exact .rejects (fun h => hinvalid h.2) trivial
    next huser => exact .passes ⟨not_not.mp hvalid, not_not.mp huser⟩ rfl

theorem decides_createPayment (orderID userID : String) :
    Decides (uuidParse orderID ≠ none ∧ ¬Blank userID) [orderID] (fun _ => True)
      (Payments.Service.createPayment orderID userID) := by
  have hiff : Payments.validateCreate orderID userID = [] ↔
      uuidParse orderID ≠ none ∧ ¬Blank userID := by
    rw [Payments.validateCreate]
    split_ifs <;> simp [*]
  rw [← hiff, Payments.Service.createPayment]
  split
  next hinvalid => exact .rejects hinvalid trivial
  next hvalid => exact .passes (not_not.mp hvalid) rfl

end Requests

section Events

/-- The consumer parks an event with this error of its handler at once. -/
def Refuses (consumer : Consumer) (err : Sentinel) : Prop :=
  consumer.failureClass err.failure = "invalid"

theorem failureClass_paymentResultConsumer (subject : String) :
    (paymentResultConsumer subject).failureClass = paymentFailureClass := by
  rw [paymentResultConsumer]
  split <;> rfl

theorem failureClass_ticketsOrderConsumer (subject : String) :
    (ticketsOrderConsumer subject).failureClass = orderFailureClass := by
  rw [ticketsOrderConsumer]
  split <;> rfl

variable (protobuf : Protobuf) (subject : String) (payload : List UInt8)

theorem decides_apply (event : Wire.TicketEvent) :
    Decides (TicketEventValid event) (ticketEventIDs event) (Refuses ticketConsumer)
      (Orders.TicketHandler.apply event) := by
  rw [Orders.TicketHandler.apply]
  split
  next hnone => exact .rejects (by simp [TicketEventValid, hnone]) rfl
  next ticket hticket =>
    split
    next hinvalid =>
      refine .rejects ?_ rfl
      simp only [TicketEventValid, hticket, Option.mem_some_iff, exists_eq_left']
      grind
    next hvalid =>
      refine .passes ⟨ticket, hticket, by grind⟩ ?_
      simp [ticketEventIDs, hticket]

theorem decides_ticketHandler :
    Decides (∃ event ∈ ticketEvent protobuf subject payload, TicketEventValid event)
      ((ticketEvent protobuf subject payload).elim [] ticketEventIDs) (Refuses ticketConsumer)
      (Orders.TicketHandler.handle protobuf subject payload) := by
  rw [ticketEvent, Orders.TicketHandler.handle]
  by_cases hcreated : subject = ticketCreatedSubject
  · simp only [if_pos hcreated]
    cases protobuf.ticketCreated.unmarshal payload with
    | none => exact decides_none rfl
    | some event => exact (decides_apply event).decoded
  · simp only [if_neg hcreated]
    by_cases hupdated : subject = ticketUpdatedSubject
    · simp only [if_pos hupdated]
      cases protobuf.ticketUpdated.unmarshal payload with
      | none => exact decides_none rfl
      | some event => exact (decides_apply event).decoded
    · simp only [if_neg hupdated]
      exact decides_none rfl

theorem decides_expirationCompleteHandler :
    Decides
      (∃ event ∈ protobuf.expirationComplete.unmarshal payload, ExpirationCompleteValid event)
      ((protobuf.expirationComplete.unmarshal payload).elim [] expirationCompleteIDs)
      (Refuses expirationCompleteConsumer)
      (Orders.ExpirationCompleteHandler.handle protobuf payload) := by
  rw [Orders.ExpirationCompleteHandler.handle]
  cases protobuf.expirationComplete.unmarshal payload with
  | none => exact decides_none rfl
  | some event =>
    apply Decides.decoded
    dsimp only
    split
    next hinvalid =>
      refine .rejects ?_ rfl
      rw [ExpirationCompleteValid]
      grind
    next hvalid =>
      refine .passes ?_ rfl
      rw [ExpirationCompleteValid]
      grind

theorem refuses_paymentCreated : Refuses paymentCreatedConsumer .orderInvalidPaymentEvent := rfl

/-- The handlers of payment events. -/
theorem decides_handlePayment {consumer : Consumer}
    (hrefuses : Refuses consumer .orderInvalidPaymentEvent) (codec : Codec Wire.PaymentEvent)
    (call : Uuid → Uuid → Orders.Call) :
    Decides (∃ event ∈ codec.unmarshal payload, Orders.ValidPaymentEvent event)
      ((codec.unmarshal payload).elim [] paymentEventIDs) (Refuses consumer)
      (Orders.handlePayment codec call payload) := by
  rw [Orders.handlePayment]
  cases codec.unmarshal payload with
  | none => exact decides_none hrefuses
  | some event =>
    apply Decides.decoded
    dsimp only
    split
    next hinvalid => exact .rejects hinvalid hrefuses
    next hvalid => exact .passes (not_not.mp hvalid) rfl

theorem decides_paymentResultHandler :
    Decides (∃ event ∈ paymentResult protobuf subject payload, Orders.ValidPaymentEvent event)
      ((paymentResult protobuf subject payload).elim [] paymentEventIDs)
      (Refuses (paymentResultConsumer subject))
      (Orders.PaymentResultHandler.handle protobuf subject payload) := by
  have hrefuses : Refuses (paymentResultConsumer subject) .orderInvalidPaymentEvent := by
    rw [Refuses, failureClass_paymentResultConsumer]
    rfl
  rw [paymentResult, Orders.PaymentResultHandler.handle]
  by_cases hsucceeded : subject = paymentSucceededSubject
  · simp only [if_pos hsucceeded]
    exact decides_handlePayment payload hrefuses _ _
  · simp only [if_neg hsucceeded]
    by_cases hfailed : subject = paymentFailedSubject
    · simp only [if_pos hfailed]
      exact decides_handlePayment payload hrefuses _ _
    · simp only [if_neg hfailed]
      exact decides_none hrefuses

/-- The handlers of messages of Orders have a part for each of two subjects. -/
theorem decides_orderHandler {Call : Type} {consumer : Consumer}
    {valid : Wire.OrderCreated ⊕ Wire.OrderCanceled → Prop}
    {ids : Wire.OrderCreated ⊕ Wire.OrderCanceled → List String}
    {created canceled : Except Sentinel (Query Call)} {unsupported : Sentinel}
    (hcreated : Decides (∃ event ∈ (protobuf.orderCreated.unmarshal payload).map .inl, valid event)
      (((protobuf.orderCreated.unmarshal payload).map .inl).elim [] ids) (Refuses consumer) created)
    (hcanceled : Decides
      (∃ event ∈ (protobuf.orderCanceled.unmarshal payload).map .inr, valid event)
      (((protobuf.orderCanceled.unmarshal payload).map .inr).elim [] ids) (Refuses consumer)
      canceled)
    (hunsupported : Refuses consumer unsupported) :
    Decides (∃ event ∈ orderEvent protobuf subject payload, valid event)
      ((orderEvent protobuf subject payload).elim [] ids) (Refuses consumer)
      (if subject = orderCreatedSubject then created
        else if subject = orderCanceledSubject then canceled else .error unsupported) := by
  rw [orderEvent]
  by_cases hsubject : subject = orderCreatedSubject
  · simp only [if_pos hsubject]
    exact hcreated
  · simp only [if_neg hsubject]
    by_cases hsubject : subject = orderCanceledSubject
    · simp only [if_pos hsubject]
      exact hcanceled
    · simp only [if_neg hsubject]
      exact decides_none hunsupported

theorem decides_ticketsHandleCreated {consumer : Consumer}
    (hrefuses : Refuses consumer .ticketInvalidOrderEvent) :
    Decides
      (∃ event ∈ (protobuf.orderCreated.unmarshal payload).map .inl, TicketsOrderValid event)
      (((protobuf.orderCreated.unmarshal payload).map .inl).elim [] ticketsOrderIDs)
      (Refuses consumer) (Tickets.OrderHandler.handleCreated protobuf payload) := by
  rw [Tickets.OrderHandler.handleCreated]
  cases protobuf.orderCreated.unmarshal payload with
  | none => exact decides_none hrefuses
  | some event =>
    apply Decides.decoded
    dsimp only
    split
    next hnone => exact .rejects (by simp [TicketsOrderValid, hnone]) hrefuses
    next ticket hticket =>
      split
      next hinvalid =>
        refine .rejects ?_ hrefuses
        simp only [TicketsOrderValid, hticket, Option.mem_some_iff, exists_eq_left']
        grind
      next hvalid =>
        refine .passes ⟨ticket, hticket, by grind⟩ ?_
        simp [ticketsOrderIDs, hticket]

theorem decides_ticketsHandleCanceled {consumer : Consumer}
    (hrefuses : Refuses consumer .ticketInvalidOrderEvent) :
    Decides
      (∃ event ∈ (protobuf.orderCanceled.unmarshal payload).map .inr, TicketsOrderValid event)
      (((protobuf.orderCanceled.unmarshal payload).map .inr).elim [] ticketsOrderIDs)
      (Refuses consumer) (Tickets.OrderHandler.handleCanceled protobuf payload) := by
  rw [Tickets.OrderHandler.handleCanceled]
  cases protobuf.orderCanceled.unmarshal payload with
  | none => exact decides_none hrefuses
  | some event =>
    apply Decides.decoded
    dsimp only
    split
    next hnone => exact .rejects (by simp [TicketsOrderValid, hnone]) hrefuses
    next ticket hticket =>
      split
      next hinvalid =>
        refine .rejects ?_ hrefuses
        simp only [TicketsOrderValid, hticket, Option.mem_some_iff, exists_eq_left']
        grind
      next hvalid =>
        refine .passes ⟨ticket, hticket, by grind⟩ ?_
        simp [ticketsOrderIDs, hticket]

theorem decides_paymentsHandleCreated {consumer : Consumer}
    (hrefuses : Refuses consumer .paymentInvalidOrderEvent) :
    Decides
      (∃ event ∈ (protobuf.orderCreated.unmarshal payload).map .inl, PaymentsOrderValid event)
      (((protobuf.orderCreated.unmarshal payload).map .inl).elim [] paymentsOrderIDs)
      (Refuses consumer) (Payments.OrderHandler.handleCreated protobuf payload) := by
  rw [Payments.OrderHandler.handleCreated]
  cases protobuf.orderCreated.unmarshal payload with
  | none => exact decides_none hrefuses
  | some event =>
    apply Decides.decoded
    dsimp only
    split
    next hnone => exact .rejects (by simp [PaymentsOrderValid, hnone]) hrefuses
    next ticket hticket =>
      split
      next hinvalid =>
        refine .rejects ?_ hrefuses
        simp only [PaymentsOrderValid, hticket, Option.mem_some_iff, exists_eq_left']
        grind [Payments.OrderHandler.ValidEnvelope]
      next hvalid =>
        refine .passes ⟨ticket, hticket, by grind [Payments.OrderHandler.ValidEnvelope]⟩ ?_
        simp [paymentsOrderIDs]

theorem decides_paymentsHandleCanceled {consumer : Consumer}
    (hrefuses : Refuses consumer .paymentInvalidOrderEvent) :
    Decides
      (∃ event ∈ (protobuf.orderCanceled.unmarshal payload).map .inr, PaymentsOrderValid event)
      (((protobuf.orderCanceled.unmarshal payload).map .inr).elim [] paymentsOrderIDs)
      (Refuses consumer) (Payments.OrderHandler.handleCanceled protobuf payload) := by
  rw [Payments.OrderHandler.handleCanceled]
  cases protobuf.orderCanceled.unmarshal payload with
  | none => exact decides_none hrefuses
  | some event =>
    apply Decides.decoded
    dsimp only
    split
    next hnone => exact .rejects (by simp [PaymentsOrderValid, hnone]) hrefuses
    next ticket hticket =>
      split
      next hinvalid =>
        refine .rejects ?_ hrefuses
        simp only [PaymentsOrderValid, hticket, Option.mem_some_iff, exists_eq_left']
        grind [Payments.OrderHandler.ValidEnvelope]
      next hvalid =>
        refine .passes ⟨ticket, hticket, by grind [Payments.OrderHandler.ValidEnvelope]⟩ ?_
        simp [paymentsOrderIDs]

theorem decides_ticketsOrderHandler :
    Decides (∃ event ∈ orderEvent protobuf subject payload, TicketsOrderValid event)
      ((orderEvent protobuf subject payload).elim [] ticketsOrderIDs)
      (Refuses (ticketsOrderConsumer subject))
      (Tickets.OrderHandler.handle protobuf subject payload) := by
  have hinvalid : Refuses (ticketsOrderConsumer subject) .ticketInvalidOrderEvent := by
    rw [Refuses, failureClass_ticketsOrderConsumer]
    rfl
  have hunsupported : Refuses (ticketsOrderConsumer subject) .ticketUnsupportedOrderEvent := by
    rw [Refuses, failureClass_ticketsOrderConsumer]
    rfl
  exact decides_orderHandler protobuf subject payload
    (decides_ticketsHandleCreated protobuf payload hinvalid)
    (decides_ticketsHandleCanceled protobuf payload hinvalid) hunsupported

theorem decides_paymentsOrderHandler :
    Decides (∃ event ∈ orderEvent protobuf subject payload, PaymentsOrderValid event)
      ((orderEvent protobuf subject payload).elim [] paymentsOrderIDs)
      (Refuses paymentsOrderConsumer) (Payments.OrderHandler.handle protobuf subject payload) :=
  decides_orderHandler protobuf subject payload
    (decides_paymentsHandleCreated protobuf payload rfl)
    (decides_paymentsHandleCanceled protobuf payload rfl) rfl

end Events

section Answers

/-- What becomes of a request with these identifiers, or of an event that was processed before or
not. -/
structure Follows (valid : Prop) (ids : List String) (processed : Prop) (a : Answer) : Prop where
  rejects : ¬valid → a.Rejects
  blames : valid → (∃ id ∈ ids, uuidIn id = none) → ¬processed → a.Transient
  skips : valid → processed → ¬a.Transient

variable {ε Call Err Reply : Type} {valid processed : Prop} {ids : List String} {refuses : ε → Prop}

/-- A call is not read if one of its texts is not accepted. -/
theorem read_eq_none {query : Query Call} (h : ∃ id ∈ query.ids, uuidIn id = none) :
    query.read = none := by
  obtain ⟨id, hid, hnone⟩ := h
  rw [Query.read, if_neg fun haccepted : query.Accepted => haccepted id hid hnone]

/-- A server refuses what its service rejects, and takes the blame for what cannot be read. -/
structure Serves (r : Except ε (Query Call)) (code : Option GrpcCode) : Prop where
  invalid : ∀ err, r = .error err → code = some .invalidArgument
  internal : ∀ query, r = .ok query → query.read = none → code = some .internal

theorem Serves.follows {r : Except ε (Query Call)} {code : Option GrpcCode} (h : Serves r code)
    (hdecides : Decides valid ids refuses r) (hprocessed : ¬processed) :
    Follows valid ids processed (.responded code) := by
  refine ⟨fun hinvalid => ?_, fun hvalid hnone _ => ?_, fun _ h => absurd h hprocessed⟩
  · cases hdecides with
    | passes hvalid => exact absurd hvalid hinvalid
    | rejects => exact h.invalid _ rfl
  · cases hdecides with
    | passes _ hids => exact h.internal _ rfl (read_eq_none (hids ▸ hnone))
    | rejects hinvalid => exact absurd hvalid hinvalid

variable (s : Surroundings)

theorem serves_getTicket (id : String) :
    Serves (.ok (Tickets.Service.getTicket id) : Except Unit _)
      (grpcCode (Tickets.Server.getTicket s.ticketsDb id)) := by
  refine ⟨fun err h => (by cases h), fun query h hread => ?_⟩
  obtain rfl := Except.ok.inj h
  simp only [Tickets.Server.getTicket, hread]
  cases s.ticketsDb <;> rfl

theorem serves_updateTicket (id : String) (input : Tickets.UpdateInput) :
    Serves (Tickets.Service.updateTicket id input)
      (grpcCode (Tickets.Server.updateTicket s.ticketsDb s.tickets id input)) := by
  refine ⟨fun err h => by rw [Tickets.Server.updateTicket, h]; rfl, fun query h hread => ?_⟩
  -- The first look at the ticket takes the same text.
  have hfind : (Tickets.Service.getTicket id).read = none := by
    rw [Tickets.Service.updateTicket] at h
    split at h
    next => cases h
    next =>
      obtain rfl := Except.ok.inj h
      unfold Query.read at hread ⊢
      split at hread
      next => cases hread
      next hnot => exact if_neg hnot
  rw [Tickets.Server.updateTicket, h, hfind]
  cases s.ticketsDb <;> rfl

theorem serves_createOrder (now : Int) (ticketID userID : String) :
    Serves (Orders.Service.reserveTicket now ticketID userID)
      (grpcCode (Orders.Server.createOrder s.orders now ticketID userID)) := by
  refine ⟨fun err h => by rw [Orders.Server.createOrder, h]; rfl, fun query h hread => ?_⟩
  simp only [Orders.Server.createOrder, h, hread, Option.map_none]
  rfl

theorem serves_getOrder (orderID userID : String) :
    Serves (Orders.Service.getOrder orderID userID)
      (grpcCode (Orders.Server.getOrder s.ordersDb orderID userID)) := by
  refine ⟨fun err h => by rw [Orders.Server.getOrder, h]; rfl, fun query h hread => ?_⟩
  simp only [Orders.Server.getOrder, h, hread]
  cases s.ordersDb <;> rfl

theorem serves_cancelOrder (orderID userID : String) :
    Serves (Orders.Service.cancelOrder orderID userID)
      (grpcCode (Orders.Server.cancelOrder s.orders orderID userID)) := by
  refine ⟨fun err h => by rw [Orders.Server.cancelOrder, h]; rfl, fun query h hread => ?_⟩
  simp only [Orders.Server.cancelOrder, h, hread, Option.map_none]
  rfl

theorem serves_createPayment (orderID userID : String) :
    Serves (Payments.Service.createPayment orderID userID)
      (grpcCode (Payments.Server.createPayment s.payments orderID userID)) := by
  refine ⟨fun err h => by rw [Payments.Server.createPayment, h]; rfl, fun query h hread => ?_⟩
  simp only [Payments.Server.createPayment, h, hread, Option.map_none]
  rfl

/-- An error of the database is no reason to park an event at once. -/
theorem failureClass_rejection {consumer : Consumer}
    (hconsumer : consumer.failureClass ∈ [ticketFailureClass, expirationFailureClass,
      paymentFailureClass, orderFailureClass, paymentOrderFailureClass]) :
    consumer.failureClass s.rejection ≠ "invalid" := by
  have hnot : ∀ err : Sentinel, err ≠ .ticketOrderReservationPending → ¬s.rejection.Is err :=
    fun err hne hmem => hne (s.wraps_rejection err hmem)
  simp only [List.mem_cons, List.not_mem_nil, or_false] at hconsumer
  rcases hconsumer with h | h | h | h | h
  · rw [h, ticketFailureClass]
    simp [hnot]
  · rw [h, expirationFailureClass]
    simp [hnot]
  · rw [h, paymentFailureClass]
    simp [hnot]
  · rw [h, orderFailureClass, if_neg (by simp [hnot])]
    split <;> decide
  · rw [h, paymentOrderFailureClass]
    simp [hnot]

/-- What a consumer makes of the decision of its handler. -/
theorem follows_deliver {consumer : Consumer} {subject : String} {payload : List UInt8}
    {r : Except Sentinel (Query Call)} {failure : Err → Failure}
    {repository : Call → Transaction.Outcome Err Reply}
    (hdecides : Decides valid ids (Refuses consumer) r)
    (hconsumer : consumer.failureClass ∈ [ticketFailureClass, expirationFailureClass,
      paymentFailureClass, orderFailureClass, paymentOrderFailureClass])
    (hprocessed : processed ↔ ∃ id ∈ ids.head?, ∃ eventID ∈ uuidIn id, eventID ∈ s.processed) :
    Follows valid ids processed
      (s.deliver consumer subject payload (s.handlerError failure repository r)) := by
  have hrejection := failureClass_rejection s hconsumer
  cases hdecides with
  | @passes query hvalid hids =>
    refine ⟨fun hinvalid => absurd hvalid hinvalid, fun _ hnone hnew => ?_, fun _ hold => ?_⟩
    · have herror : s.handlerError failure repository (.ok query) = some s.rejection := by
        rw [Surroundings.handlerError, hids, if_neg (hprocessed.not.mp hnew),
          read_eq_none (hids ▸ hnone)]
        rfl
      rw [herror]
      exact congrArg Prod.snd
        (consumer.handleDelivery_of_retryable rfl hrejection s.deliveryCount_le)
    · have herror : s.handlerError failure repository (.ok query) = none := by
        rw [Surroundings.handlerError, hids, if_pos (hprocessed.mp hold)]
      rw [herror]
      exact consumer.handleDelivery_of_handled rfl
  | @rejects err hinvalid herr =>
    refine ⟨fun _ => ?_, fun hvalid => absurd hvalid hinvalid, fun hvalid => absurd hvalid hinvalid⟩
    have hhandler : (s.replies (s.handlerError failure repository (.error err))).handler =
      some err.failure := rfl
    obtain ⟨hcalls, houtcome⟩ := consumer.handleDelivery_of_invalid hhandler herr
    exact ⟨houtcome, _, _, _, rfl, hcalls⟩

end Answers

section EntryPoints

variable {protobuf : Protobuf} {e : EntryPoint}

/-- Valid requests and events are passed on with their identifiers. -/
theorem Decides.texts_eq_some_iff {ε Call : Type} {valid : Prop} {ids ids' : List String}
    {refuses : ε → Prop} {r : Except ε (Query Call)} (h : Decides valid ids refuses r) :
    texts r = some ids' ↔ valid ∧ ids = ids' := by
  cases h with
  | passes hvalid hids => simp [texts, hvalid, hids]
  | rejects hinvalid => simp [texts, hinvalid]

theorem passes_eq_some_iff (e : EntryPoint) {ids : List String} :
    e.passes protobuf = some ids ↔ e.Valid protobuf ∧ e.ids protobuf = ids := by
  cases e with
  | getTicket id => exact (decides_getTicket id).texts_eq_some_iff
  | updateTicket id input => exact (decides_updateTicket id input).texts_eq_some_iff
  | createOrder now ticketID userID =>
    exact (decides_reserveTicket now ticketID userID).texts_eq_some_iff
  | getOrder orderID userID => exact (decides_orderOfUser _ orderID userID).texts_eq_some_iff
  | cancelOrder orderID userID => exact (decides_orderOfUser _ orderID userID).texts_eq_some_iff
  | createPayment orderID userID => exact (decides_createPayment orderID userID).texts_eq_some_iff
  | ordersTicketHandler subject payload =>
    exact (decides_ticketHandler protobuf subject payload).texts_eq_some_iff
  | ordersExpirationCompleteHandler payload =>
    exact (decides_expirationCompleteHandler protobuf payload).texts_eq_some_iff
  | ordersPaymentCreatedHandler payload =>
    exact (decides_handlePayment payload refuses_paymentCreated _ _).texts_eq_some_iff
  | ordersPaymentResultHandler subject payload =>
    exact (decides_paymentResultHandler protobuf subject payload).texts_eq_some_iff
  | ticketsOrderHandler subject payload =>
    exact (decides_ticketsOrderHandler protobuf subject payload).texts_eq_some_iff
  | paymentsOrderHandler subject payload =>
    exact (decides_paymentsOrderHandler protobuf subject payload).texts_eq_some_iff

/-- Where `uuid.Parse` is asked, it accepts the identifiers of what is valid. -/
theorem parsed_of_valid (hparses : e.parses = true) (hvalid : e.Valid protobuf) :
    ∀ id ∈ e.ids protobuf, uuidParse id ≠ none := by
  cases e with
  | getTicket id => cases hparses
  | updateTicket id input => cases hparses
  | ordersTicketHandler subject payload => cases hparses
  | ticketsOrderHandler subject payload => cases hparses
  | createOrder now ticketID userID => simpa [EntryPoint.ids] using hvalid.1
  | getOrder orderID userID => simpa [EntryPoint.ids] using hvalid.1
  | cancelOrder orderID userID => simpa [EntryPoint.ids] using hvalid.1
  | createPayment orderID userID => simpa [EntryPoint.ids] using hvalid.1
  | ordersExpirationCompleteHandler payload =>
    obtain ⟨event, hevent, hid, horder, -⟩ := hvalid
    rw [EntryPoint.ids, hevent]
    simp [expirationCompleteIDs, hid, horder]
  | ordersPaymentCreatedHandler payload =>
    obtain ⟨event, hevent, hid, -, horder, -⟩ := hvalid
    rw [EntryPoint.ids, hevent]
    simp [paymentEventIDs, hid, horder]
  | ordersPaymentResultHandler subject payload =>
    obtain ⟨event, hevent, hid, -, horder, -⟩ := hvalid
    rw [EntryPoint.ids, hevent]
    simp [paymentEventIDs, hid, horder]
  | paymentsOrderHandler subject payload =>
    obtain ⟨event, hevent, hvalid⟩ := hvalid
    rw [EntryPoint.ids, hevent]
    cases event with
    | inl event =>
      obtain ⟨ticket, -, hid, -, horder, -⟩ := hvalid
      simp [paymentsOrderIDs, hid, horder]
    | inr event =>
      obtain ⟨ticket, -, hid, -, horder, -⟩ := hvalid
      simp [paymentsOrderIDs, hid, horder]

/-- What is accepted by `uuid.Parse` is accepted by the database unless it is foreign. -/
theorem uuidIn_ne_none_iff_of_parsed {id : String} (h : uuidParse id ≠ none) :
    uuidIn id ≠ none ↔ ¬Foreign id := by
  obtain ⟨u, hu⟩ := Option.ne_none_iff_exists'.mp h
  rw [uuidIn_of_uuidParse hu]
  by_cases hforeign : Foreign id
  · simp [hforeign]
  · simp [hforeign]

/-- What is well formed is what the database accepts of what is valid. -/
theorem wellFormed_iff : e.WellFormed protobuf ↔
    (e.Valid protobuf → ∀ id ∈ e.ids protobuf, uuidIn id ≠ none) := by
  refine forall_congr' fun hvalid => forall₂_congr fun id hid => ?_
  by_cases hparses : e.parses = true
  · rw [if_pos hparses]
    exact (uuidIn_ne_none_iff_of_parsed (parsed_of_valid hparses hvalid id hid)).symm
  · rw [if_neg hparses]
    exact uuidIn_ne_none_iff.symm

variable (protobuf e) in
/-- What becomes of every request and every event. -/
theorem follows_answer (s : Surroundings) :
    Follows (e.Valid protobuf) (e.ids protobuf) (e.Processed protobuf s) (e.answer s protobuf) := by
  -- A request is nothing that has been processed before.
  have hrequest : e.isEvent = false → ¬e.Processed protobuf s :=
    fun hevent h => Bool.false_ne_true (hevent.symm.trans h.1)
  have hevent : e.isEvent = true → (e.Processed protobuf s ↔
      ∃ id ∈ (e.ids protobuf).head?, ∃ eventID ∈ uuidIn id, eventID ∈ s.processed) :=
    fun hevent => and_iff_right hevent
  cases e with
  | getTicket id =>
    exact (serves_getTicket s id).follows (decides_getTicket id) (hrequest rfl)
  | updateTicket id input =>
    exact (serves_updateTicket s id input).follows (decides_updateTicket id input) (hrequest rfl)
  | createOrder now ticketID userID =>
    exact (serves_createOrder s now ticketID userID).follows
      (decides_reserveTicket now ticketID userID) (hrequest rfl)
  | getOrder orderID userID =>
    exact (serves_getOrder s orderID userID).follows (decides_orderOfUser _ orderID userID)
      (hrequest rfl)
  | cancelOrder orderID userID =>
    exact (serves_cancelOrder s orderID userID).follows (decides_orderOfUser _ orderID userID)
      (hrequest rfl)
  | createPayment orderID userID =>
    exact (serves_createPayment s orderID userID).follows (decides_createPayment orderID userID)
      (hrequest rfl)
  | ordersTicketHandler subject payload =>
    exact follows_deliver s (decides_ticketHandler protobuf subject payload)
      (by simp [ticketConsumer]) (hevent rfl)
  | ordersExpirationCompleteHandler payload =>
    exact follows_deliver s (decides_expirationCompleteHandler protobuf payload)
      (by simp [expirationCompleteConsumer]) (hevent rfl)
  | ordersPaymentCreatedHandler payload =>
    exact follows_deliver s (decides_handlePayment payload refuses_paymentCreated _ _)
      (by simp [paymentCreatedConsumer]) (hevent rfl)
  | ordersPaymentResultHandler subject payload =>
    exact follows_deliver s (decides_paymentResultHandler protobuf subject payload)
      (by simp [failureClass_paymentResultConsumer]) (hevent rfl)
  | ticketsOrderHandler subject payload =>
    exact follows_deliver s (decides_ticketsOrderHandler protobuf subject payload)
      (by simp [failureClass_ticketsOrderConsumer]) (hevent rfl)
  | paymentsOrderHandler subject payload =>
    exact follows_deliver s (decides_paymentsOrderHandler protobuf subject payload)
      (by simp [paymentsOrderConsumer]) (hevent rfl)

end EntryPoints

/-- A healthy surrounding. -/
def healthy : Surroundings where
  ticketsDb := some .init
  ordersDb := some .init
  tickets _ := .committed .applied
  orders _ := .committed .applied
  payments _ := .committed .applied
  processed := []
  databaseError := "deadlock detected"
  rejection := ⟨"invalid input syntax for type uuid", []⟩
  wraps_rejection := by simp
  deliveryCount := 1
  deliveryCount_le := by decide
  headers := none
  stream := "TICKETS"
  streamSeq := 1
  park := .acknowledged
  ack := ⟨none, true⟩

end Integration
