import PolyglotTicketing.Messaging.Consumer
import PolyglotTicketing.Messaging.Replay
import PolyglotTicketing.Transition.Run

/-!
# No event disappears

Messages of the streams are delivered to the consumers again and again, until an acknowledgement
takes effect, with whatever replies of the environment. `nothing_disappears` collects what holds in
every such run: a message that is acknowledged was handled or is in the dead letter queue; an
invalid one is parked at once; other failures are parked only after five retries; and no two
messages share a record of the queue.
-/

namespace Messaging

open Contracts Relational Transition

/-- What `handleDelivery` of a consumer calls, for the given replies. -/
structure Sound (service : Service) (failureClass : Failure → String) (event : Delivery)
    (replies : Replies) (calls : List Call) : Prop where
  /-- It parks the delivered message, because it is invalid or was delivered often enough. -/
  park : ∀ parked reached, .park parked reached ∈ calls →
    ∃ subject consumer failure, parked =
        event.deadLetter subject consumer (failureClass failure) failure ∧
      subject ∈ service.queue.subjects ∧
      (failureClass failure = "invalid" ∨ orderEventMaxRetries < event.deliveryCount)
  /-- It acknowledges only what was handled or parked. -/
  ack : .ack true ∈ calls → replies.handler = none ∨ ∃ parked, .park parked true ∈ calls
  /-- It does not ask again for an invalid message that it can park. -/
  invalid : ∀ err, replies.handler = some err → failureClass err = "invalid" →
    replies.park = .acknowledged → (∃ parked, .park parked true ∈ calls) ∧
      ∀ delay, .nak delay ∉ calls

/-- The calls of `park`. -/
def parkCalls (parked : DeadLetter) (ack : Bool) : ParkReply → List Call
  | .unavailable => [.nak none]
  | .failed reached => [.park parked reached, .nak none]
  | .acknowledged => [.park parked true, .ack ack]

section Sound

variable {service : Service} {failureClass : Failure → String} {event : Delivery}
  {replies : Replies} {subject consumer : String} {failure : Failure}

theorem Consumer.park_calls (c : Consumer) (text : String) :
    (c.park event text failure replies).1 =
      parkCalls (event.deadLetter c.deadLetterSubject c.durable text failure)
        replies.ack.effective replies.park := by
  rw [Consumer.park]
  cases replies.park <;> rfl

/-- A Go consumer parks an invalid message at once. -/
theorem Consumer.handleDelivery_of_invalid (c : Consumer)
    (hhandler : replies.handler = some failure) (hclass : c.failureClass failure = "invalid") :
    (c.handleDelivery event replies).1 =
        parkCalls (event.deadLetter c.deadLetterSubject c.durable "invalid" failure)
          replies.ack.effective replies.park ∧
      (c.handleDelivery event replies).2 ≠ some "retry" := by
  have hreason : c.failureClass failure = "invalid" ∨ orderEventMaxRetries < event.deliveryCount :=
    Or.inl hclass
  rw [Consumer.handleDelivery, hhandler]
  simp only [hreason, if_true]
  refine ⟨by rw [c.park_calls, hclass], ?_⟩
  split <;> simp

/-- It asks for any other one again, if it has not done so too often. -/
theorem Consumer.handleDelivery_of_retryable (c : Consumer)
    (hhandler : replies.handler = some failure) (hclass : c.failureClass failure ≠ "invalid")
    (hcount : event.deliveryCount ≤ orderEventMaxRetries) :
    c.handleDelivery event replies =
      ([.nak (c.retryDelay failure event.deliveryCount)], some "retry") := by
  have hreason :
      ¬(c.failureClass failure = "invalid" ∨ orderEventMaxRetries < event.deliveryCount) :=
    not_or.mpr ⟨hclass, Nat.not_lt.mpr hcount⟩
  rw [Consumer.handleDelivery, hhandler]
  simp only [hreason, if_false]

/-- It does not ask for a message again that was handled. -/
theorem Consumer.handleDelivery_of_handled (c : Consumer) (hhandler : replies.handler = none) :
    (c.handleDelivery event replies).2 ≠ some "retry" := by
  rw [Consumer.handleDelivery, hhandler]
  cases replies.ack.error <;> simp

/-- Parking is sound, if there is a reason for it. -/
theorem sound_parkCalls (ack : Bool) (hsubject : subject ∈ service.queue.subjects)
    (hreason : failureClass failure = "invalid" ∨ orderEventMaxRetries < event.deliveryCount) :
    Sound service failureClass event replies
      (parkCalls (event.deadLetter subject consumer (failureClass failure) failure) ack
        replies.park) := by
  cases hreply : replies.park with
  | acknowledged =>
    refine ⟨?_, fun _ => Or.inr ⟨_, List.mem_cons_self⟩, ?_⟩
    · intro parked reached hmem
      simp only [parkCalls, List.mem_cons, Call.park.injEq, reduceCtorEq, List.not_mem_nil,
        or_false] at hmem
      exact ⟨subject, consumer, failure, hmem.1, hsubject, hreason⟩
    · exact fun _ _ _ _ => ⟨⟨_, List.mem_cons_self⟩, by simp [parkCalls]⟩
  | failed reached =>
    refine ⟨?_, by simp [parkCalls], by simp [hreply]⟩
    intro parked reached' hmem
    simp only [parkCalls, List.mem_cons, Call.park.injEq, reduceCtorEq, List.not_mem_nil,
      or_false] at hmem
    exact ⟨subject, consumer, failure, hmem.1, hsubject, hreason⟩
  | unavailable => exact ⟨by simp [parkCalls], by simp [parkCalls], by simp [hreply]⟩

/-- Asking again is sound, if the message is not invalid. -/
theorem sound_nak (delay : Option Int)
    (hvalid : ∀ err ∈ replies.handler, failureClass err ≠ "invalid") :
    Sound service failureClass event replies [.nak delay] :=
  ⟨by simp, by simp, fun err herr hinvalid => absurd hinvalid (hvalid err herr)⟩

/-- Acknowledging is sound, if the message was handled. -/
theorem sound_ack (effective : Bool) (hhandler : replies.handler = none) :
    Sound service failureClass event replies [.ack effective] :=
  ⟨by simp, fun _ => Or.inl hhandler, by simp [hhandler]⟩

/-- The Go consumers. -/
theorem Consumer.sound (c : Consumer) (hsubject : c.deadLetterSubject ∈ service.queue.subjects) :
    Sound service c.failureClass event replies (c.handleDelivery event replies).1 := by
  rw [Consumer.handleDelivery]
  cases hhandler : replies.handler with
  | none => exact sound_ack replies.ack.effective hhandler
  | some err =>
    -- A failure is a reason to park the message, or to ask for it again.
    by_cases hreason : c.failureClass err = "invalid" ∨ orderEventMaxRetries < event.deliveryCount
    · simp only [hreason, if_true, c.park_calls]
      exact sound_parkCalls replies.ack.effective hsubject hreason
    · simp only [hreason, if_false]
      refine sound_nak _ ?_
      intro err' herr hinvalid
      obtain rfl : err = err' := Option.some.inj (hhandler.symm.trans herr)
      exact hreason (Or.inl hinvalid)

/-- The `catch` block of Expiration. -/
private theorem sound_orderCreatedCatch (error : Failure) (ack : AckReply)
    (hhandler : ∀ err ∈ replies.handler, err = error) :
    Sound .expiration orderCreatedFailureClass event replies
      (orderCreatedCatch event error replies.park ack).1 := by
  by_cases hreason : orderCreatedFailureClass error = "invalid" ∨
    orderEventMaxRetries < event.deliveryCount
  · have hcalls : (orderCreatedCatch event error replies.park ack).1 =
        parkCalls (event.deadLetter orderCreatedDeadLetterSubject orderCreatedDurableName
          (orderCreatedFailureClass error) error) ack.effective replies.park := by
      simp only [orderCreatedCatch, hreason, if_true]
      cases replies.park <;> rfl
    rw [hcalls]
    exact sound_parkCalls ack.effective (by decide) hreason
  · simp only [orderCreatedCatch, hreason, if_false]
    refine sound_nak none ?_
    intro err herr hinvalid
    exact hreason (Or.inl (hhandler err herr ▸ hinvalid))

/-- The consumer of Expiration. -/
theorem sound_orderCreatedHandleDelivery :
    Sound .expiration orderCreatedFailureClass event replies
      (orderCreatedHandleDelivery event replies).1 := by
  rw [orderCreatedHandleDelivery]
  cases hhandler : replies.handler with
  -- A failure of the handler ends in the `catch` block.
  | some error => exact sound_orderCreatedCatch error replies.ack (by simp [hhandler])
  | none =>
    cases herror : replies.ack.error with
    | some error =>
      -- The handler has succeeded, but its acknowledgement has thrown an exception.
      have hcatch : Sound .expiration orderCreatedFailureClass event replies
          (orderCreatedCatch event ⟨error, []⟩ replies.park replies.ackAgain).1 :=
        sound_orderCreatedCatch _ _ (by simp [hhandler])
      refine ⟨?_, fun _ => Or.inl hhandler, by simp [hhandler]⟩
      intro parked reached hmem
      exact hcatch.park parked reached ((List.mem_cons.mp hmem).resolve_left (by simp))
    | none => exact sound_ack replies.ack.effective hhandler

/-- All consumers of the system. -/
theorem ConsumerName.sound (n : ConsumerName) (event : Delivery) (replies : Replies) :
    Sound n.service n.failureClass event replies (n.handleDelivery event replies).1 := by
  cases n with
  | ordersTicket => exact ticketConsumer.sound (by decide)
  | ordersExpirationComplete => exact expirationCompleteConsumer.sound (by decide)
  | ordersPaymentCreated => exact paymentCreatedConsumer.sound (by decide)
  | ordersPaymentFailed => exact paymentFailedConsumer.sound (by decide)
  | ordersPaymentSucceeded => exact paymentSucceededConsumer.sound (by decide)
  | ticketsOrderCreated => exact orderCreatedConsumer.sound (by decide)
  | ticketsOrderCanceled => exact orderCanceledConsumer.sound (by decide)
  | paymentsOrder => exact paymentsOrderConsumer.sound (by decide)
  | expirationOrderCreated => exact sound_orderCreatedHandleDelivery

end Sound

/-- A message of a stream, as a consumer gets it. -/
abbrev Receipt := ConsumerName × String × ℕ

/-- The dead letter queues, and what has become of the messages. -/
structure State where
  /-- The streams that each service publishes to. -/
  streams : Service → JetStream
  /-- How often a message was delivered. -/
  deliveries : Receipt → ℕ
  /-- The messages that a handler has handled. -/
  handled : List Receipt
  /-- The messages whose acknowledgement has taken effect. -/
  acked : List Receipt

/-- The system before the first delivery. -/
def State.init : State := ⟨fun _ => ⟨[], []⟩, fun _ => 0, [], []⟩

/-- A delivery, with the replies of the environment to it. -/
structure Label where
  receipt : Receipt
  replies : Replies
  parkedAt : String

/-- The delivery of a message of the streams `log`. The process gets its headers as an object. -/
def delivery (log : String → ℕ → Msg) (s : State) (receipt : Receipt) : Delivery where
  deliveryCount := s.deliveries receipt + 1
  headers := some 0
  payload := (log receipt.2.1 receipt.2.2).data
  stream := receipt.2.1
  streamSeq := receipt.2.2
  subject := (log receipt.2.1 receipt.2.2).subject

/-- What the consumer calls. -/
def calls (log : String → ℕ → Msg) (s : State) (l : Label) : List Call :=
  (l.receipt.1.handleDelivery (delivery log s l.receipt) l.replies).1

/-- The effect of a call on the streams. -/
def perform (service : Service) (header : Header) (parkedAt : String) (js : JetStream) :
    Call → JetStream
  | .park event true => js.publish service.queue (service.park event parkedAt [header]).1
  | _ => js

/-- Whether a call is an acknowledgement that takes effect. -/
def Call.acks : Call → Bool
  | .ack effective => effective
  | _ => false

/-- One delivery. What was acknowledged is not delivered again. -/
def step (log : String → ℕ → Msg) (s : State) (l : Label) : State :=
  if l.receipt ∈ s.acked then s
  else
    let service := l.receipt.1.service
    let header := (log l.receipt.2.1 l.receipt.2.2).header
    { streams := Function.update s.streams service
        ((calls log s l).foldl (perform service header l.parkedAt) (s.streams service))
      deliveries := Function.update s.deliveries l.receipt (s.deliveries l.receipt + 1)
      handled := if l.replies.handler.isNone then l.receipt :: s.handled else s.handled
      acked := if (calls log s l).any Call.acks then l.receipt :: s.acked else s.acked }

/-- `record` is the dead letter of a message: it has its payload, and says where it comes from. -/
structure RecordOf (service : Service) (message : Msg) (stream : String) (seq : ℕ)
    (record : Msg) : Prop where
  data : record.data = message.data
  msgID : record.header.get natsMsgID = service.queue.msgID stream seq
  subject : record.header.values (service.queue.headerStart ++ "Original-Subject") =
    [message.subject]
  stream : record.header.values (service.queue.headerStart ++ "Original-Stream") = [stream]
  seq : record.header.values (service.queue.headerStart ++ "Original-Stream-Sequence") =
    [toString seq]

/-- All records of a queue are dead letters of messages. -/
def Filed (log : String → ℕ → Msg) (service : Service) (js : JetStream) : Prop :=
  ∀ record ∈ js.deadLetters, ∃ stream seq, RecordOf service (log stream seq) stream seq record

/-- The queue has a record of a message. -/
def Parked (log : String → ℕ → Msg) (service : Service) (js : JetStream) (stream : String)
    (seq : ℕ) : Prop :=
  ∃ record ∈ js.deadLetters, RecordOf service (log stream seq) stream seq record

section Publish

/-- The last colon of a text is found again. -/
private theorem append_colon_inj {a a' b b' : List Char} (hb : ':' ∉ b) (hb' : ':' ∉ b')
    (h : a ++ ':' :: b = a' ++ ':' :: b') : a = a' ∧ b = b' := by
  -- One of the first parts is a prefix of the other. What is between them begins with a colon,
  -- unless it is empty, and ends with the part that has none.
  rcases List.append_eq_append_iff.mp h with ⟨c, rfl, hc⟩ | ⟨c, rfl, hc⟩
  · cases c with
    | nil => exact ⟨(List.append_nil a).symm, (List.cons.inj hc).2⟩
    | cons x c =>
      obtain ⟨-, rfl⟩ := List.cons.inj hc
      exact absurd (List.mem_append_right c List.mem_cons_self) hb
  · cases c with
    | nil => exact ⟨List.append_nil a', (List.cons.inj hc).2.symm⟩
    | cons x c =>
      obtain ⟨-, rfl⟩ := List.cons.inj hc
      exact absurd (List.mem_append_right c List.mem_cons_self) hb'

/-- A decimal representation has no colon. -/
private theorem colon_not_mem_toString (n : ℕ) : ':' ∉ (toString n).toList := by
  intro hmem
  rw [show toString n = n.repr from rfl, Nat.toList_repr] at hmem
  exact absurd (Nat.isDigit_of_mem_toDigits (by decide) (by decide) hmem) (by decide)

/-- Different messages have different `Nats-Msg-Id`s in the queue. -/
theorem Queue.msgID_injective (q : Queue) {stream stream' : String} {seq seq' : ℕ}
    (h : q.msgID stream seq = q.msgID stream' seq') : stream = stream' ∧ seq = seq' := by
  rw [Queue.msgID, Queue.msgID, String.append_assoc, String.append_assoc, String.append_assoc,
    String.append_assoc, String.append_right_inj] at h
  have hlist := congrArg String.toList h
  simp only [String.toList_append] at hlist
  obtain ⟨hstream, hseq⟩ := append_colon_inj (colon_not_mem_toString seq)
    (colon_not_mem_toString seq') hlist
  exact ⟨String.toList_inj.mp hstream, toString_nat_injective (String.toList_inj.mp hseq)⟩

variable {log : String → ℕ → Msg} {service : Service} {js : JetStream} {stream : String} {seq : ℕ}
  {msg : Msg}

/-- Nothing leaves the queue. -/
theorem mem_deadLetters_publish {q : Queue} {record : Msg} (h : record ∈ js.deadLetters) :
    record ∈ (js.publish q msg).deadLetters := by
  rw [JetStream.publish]
  split
  · split
    · exact h
    · exact List.mem_append_left _ h
  · exact h

/-- A dead letter is in the queue after its publication: it is added, or it was there before. -/
theorem Filed.parked_publish (hfiled : Filed log service js)
    (hsubject : msg.subject ∈ service.queue.subjects)
    (hmsg : RecordOf service (log stream seq) stream seq msg) :
    Parked log service (js.publish service.queue msg) stream seq := by
  rw [JetStream.publish, if_pos hsubject]
  split
  next hduplicate =>
    -- The record with this identifier is one of the same message.
    obtain ⟨record, hrecord, hid⟩ := hduplicate
    obtain ⟨stream', seq', hof⟩ := hfiled record hrecord
    obtain ⟨rfl, rfl⟩ := service.queue.msgID_injective (hof.msgID.symm.trans (hid.trans hmsg.msgID))
    exact ⟨record, hrecord, hof⟩
  next => exact ⟨msg, List.mem_append_right _ (List.mem_singleton_self msg), hmsg⟩

theorem Filed.publish (hfiled : Filed log service js)
    (hmsg : RecordOf service (log stream seq) stream seq msg) :
    Filed log service (js.publish service.queue msg) := by
  intro record hrecord
  rw [JetStream.publish] at hrecord
  split at hrecord
  · split at hrecord
    · exact hfiled record hrecord
    · rcases List.mem_append.mp hrecord with hrecord | hrecord
      · exact hfiled record hrecord
      · obtain rfl := List.mem_singleton.mp hrecord
        exact ⟨stream, seq, hmsg⟩
  · exact hfiled record hrecord

/-- Parked messages stay so. -/
theorem Parked.publish {q : Queue} (h : Parked log service js stream seq) :
    Parked log service (js.publish q msg) stream seq := by
  obtain ⟨record, hrecord, hof⟩ := h
  exact ⟨record, mem_deadLetters_publish hrecord, hof⟩

end Publish

section Step

variable {log : String → ℕ → Msg} {s : State} {l : Label}

/-- What the consumers park are dead letters of the delivered message. -/
theorem recordOf_park (n : ConsumerName) (stream : String) (seq : ℕ) {parked : DeadLetter}
    {reached : Bool} (parkedAt : String) {replies : Replies}
    (hmem : .park parked reached ∈
      (n.handleDelivery (delivery log s (n, stream, seq)) replies).1) :
    let msg := (n.service.park parked parkedAt [(log stream seq).header]).1
    msg.subject ∈ n.service.queue.subjects ∧
      RecordOf n.service (log stream seq) stream seq msg := by
  obtain ⟨subject, consumer, failure, rfl, hsubject, -⟩ :=
    (n.sound (delivery log s (n, stream, seq)) replies).park parked reached hmem
  obtain ⟨header, hpark, hfields, -⟩ := n.service.park_spec
    ((delivery log s (n, stream, seq)).deadLetter subject consumer (n.failureClass failure) failure)
    parkedAt [(log stream seq).header] hsubject
  rw [hpark]
  refine ⟨hsubject, rfl, ?_, ?_, ?_, ?_⟩
  · rw [Header.get, hfields natsMsgID (n.service.queue.msgID stream seq) List.mem_cons_self]
    rfl
  all_goals exact hfields _ _ (by simp [Queue.fields, delivery, Delivery.deadLetter])

/-- The effect of the calls of a consumer on its queue. -/
theorem performs {n : ConsumerName} {stream : String} {seq : ℕ} {js : JetStream}
    (parkedAt : String) {replies : Replies} {cs : List Call}
    (hcs : cs ⊆ (n.handleDelivery (delivery log s (n, stream, seq)) replies).1)
    (hfiled : Filed log n.service js) :
    let js' := cs.foldl (perform n.service (log stream seq).header parkedAt) js
    Filed log n.service js' ∧
      (∀ stream' seq', Parked log n.service js stream' seq' →
        Parked log n.service js' stream' seq') ∧
      ((∃ parked, .park parked true ∈ cs) → Parked log n.service js' stream seq) := by
  induction cs generalizing js with
  | nil => exact ⟨hfiled, fun _ _ h => h, by simp⟩
  | cons c cs ih =>
    obtain ⟨hc, hrest⟩ := List.cons_subset.mp hcs
    -- What does not park the message leaves the queue alone.
    have hskip : ∀ js', perform n.service (log stream seq).header parkedAt js c = js' → js' = js →
        (∀ parked, c ≠ .park parked true) →
        let js'' := (c :: cs).foldl (perform n.service (log stream seq).header parkedAt) js
        Filed log n.service js'' ∧
          (∀ stream' seq', Parked log n.service js stream' seq' →
            Parked log n.service js'' stream' seq') ∧
          ((∃ parked, .park parked true ∈ c :: cs) → Parked log n.service js'' stream seq) := by
      rintro js' hperform rfl hne
      rw [List.foldl_cons, hperform]
      obtain ⟨hfiled', hkept, hparked⟩ := ih hrest hfiled
      refine ⟨hfiled', hkept, ?_⟩
      rintro ⟨parked, hmem⟩
      exact hparked ⟨parked, (List.mem_cons.mp hmem).resolve_left (Ne.symm (hne parked))⟩
    cases c with
    | ack effective => exact hskip _ rfl rfl (by simp)
    | nak delay => exact hskip _ rfl rfl (by simp)
    | park parked reached =>
      cases reached with
      | false => exact hskip _ rfl rfl (by simp)
      | true =>
        -- A dead letter that has reached the stream is filed, and what is filed stays.
        obtain ⟨hsubject, hmsg⟩ := recordOf_park n stream seq parkedAt hc
        obtain ⟨hfiled', hkept, -⟩ := ih hrest (hfiled.publish hmsg)
        exact ⟨hfiled', fun _ _ h => hkept _ _ h.publish,
          fun _ => hkept _ _ (hfiled.parked_publish hsubject hmsg)⟩

/-- What holds in every run: the queues are in order, and what was acknowledged was handled or
parked. -/
structure Kept (log : String → ℕ → Msg) (s : State) : Prop where
  filed : ∀ service, Filed log service (s.streams service)
  acked : ∀ n stream seq, (n, stream, seq) ∈ s.acked → (n, stream, seq) ∈ s.handled ∨
    Parked log n.service (s.streams n.service) stream seq

theorem kept_init (log : String → ℕ → Msg) : Kept log State.init :=
  ⟨by simp [Filed, State.init], by simp [State.init]⟩

/-- The queues after a delivery. -/
theorem Kept.streams_step (hs : Kept log s) (hnew : l.receipt ∉ s.acked) (service : Service) :
    Filed log service ((step log s l).streams service) ∧
      (∀ stream seq, Parked log service (s.streams service) stream seq →
        Parked log service ((step log s l).streams service) stream seq) ∧
      (service = l.receipt.1.service → (∃ parked, .park parked true ∈ calls log s l) →
        Parked log service ((step log s l).streams service) l.receipt.2.1 l.receipt.2.2) := by
  rw [step, if_neg hnew]
  -- A consumer publishes to the queue of its own service only.
  by_cases hservice : service = l.receipt.1.service
  · subst hservice
    simp only [Function.update_self]
    obtain ⟨hfiled, hkept, hparked⟩ :=
      performs l.parkedAt (List.Subset.refl (calls log s l)) (hs.filed l.receipt.1.service)
    exact ⟨hfiled, hkept, fun _ => hparked⟩
  · simp only [Function.update_of_ne hservice]
    exact ⟨hs.filed service, fun _ _ h => h, fun h => absurd h hservice⟩

/-- Every delivery keeps it. -/
theorem Kept.of_step (hs : Kept log s) (l : Label) : Kept log (step log s l) := by
  by_cases hnew : l.receipt ∈ s.acked
  · rwa [step, if_pos hnew]
  refine ⟨fun service => (hs.streams_step hnew service).1, ?_⟩
  intro n stream seq hacked
  -- What was handled before stays so.
  have hhandled : ∀ receipt ∈ s.handled, receipt ∈ (step log s l).handled := by
    intro receipt h
    rw [step, if_neg hnew]
    show receipt ∈ if _ then _ else _
    split
    · exact List.mem_cons_of_mem _ h
    · exact h
  by_cases hold : (n, stream, seq) ∈ s.acked
  · rcases hs.acked n stream seq hold with h | h
    · exact Or.inl (hhandled _ h)
    · exact Or.inr ((hs.streams_step hnew n.service).2.1 stream seq h)
  · -- It was acknowledged by this delivery.
    rw [step, if_neg hnew] at hacked
    simp only at hacked
    split at hacked
    next hack =>
      have hreceipt : l.receipt = (n, stream, seq) :=
        ((List.mem_cons.mp hacked).resolve_right hold).symm
      obtain ⟨c, hc, hacks⟩ := List.any_eq_true.mp hack
      -- Only an acknowledgement acknowledges.
      have hmem : .ack true ∈ calls log s l := by
        cases c with
        | ack effective =>
          obtain rfl : effective = true := hacks
          exact hc
        | park => exact absurd hacks Bool.false_ne_true
        | nak => exact absurd hacks Bool.false_ne_true
      rcases (l.receipt.1.sound (delivery log s l.receipt) l.replies).ack hmem with
        hhandler | hparked
      · left
        rw [step, if_neg hnew, hreceipt]
        simp [hhandler]
      · right
        have hnow := (hs.streams_step hnew l.receipt.1.service).2.2 rfl hparked
        rwa [hreceipt] at hnow
    next => exact absurd hacked hold

theorem kept_run (log : String → ℕ → Msg) (labels : List Label) :
    Kept log (run (step log) State.init labels) :=
  run_invariant (P := Kept log) (fun _ l hs => hs.of_step l) (kept_init log) labels

end Step

/-- In every run of deliveries: what was acknowledged was handled, or the queue of the service has a
record of it; an invalid message is parked at once and not asked for again, if the queue takes it;
any other failure is parked at the sixth delivery at the earliest; and every record of a queue is
that of one message. -/
theorem nothing_disappears (log : String → ℕ → Msg) (labels : List Label) :
    let s := run (step log) State.init labels
    (∀ n stream seq, (n, stream, seq) ∈ s.acked → (n, stream, seq) ∈ s.handled ∨
      Parked log n.service (s.streams n.service) stream seq) ∧
    (∀ l : Label, l.receipt ∉ s.acked → ∀ err, l.replies.handler = some err →
      l.receipt.1.failureClass err = "invalid" → l.replies.park = .acknowledged →
      Parked log l.receipt.1.service ((step log s l).streams l.receipt.1.service) l.receipt.2.1
        l.receipt.2.2 ∧ ∀ delay, .nak delay ∉ calls log s l) ∧
    (∀ (l : Label) parked reached, .park parked reached ∈ calls log s l →
      parked.failureClass ≠ "invalid" → 6 ≤ s.deliveries l.receipt + 1) ∧
    ∀ service, ∀ record ∈ (s.streams service).deadLetters, ∃ stream seq,
      RecordOf service (log stream seq) stream seq record ∧
      ∀ stream' seq', RecordOf service (log stream' seq') stream' seq' record →
        stream' = stream ∧ seq' = seq := by
  intro s
  have hs : Kept log s := kept_run log labels
  refine ⟨hs.acked, ?_, ?_, ?_⟩
  · intro l hnew err herr hinvalid hpark
    obtain ⟨hparked, hnak⟩ :=
      (l.receipt.1.sound (delivery log s l.receipt) l.replies).invalid err herr hinvalid hpark
    exact ⟨(hs.streams_step hnew l.receipt.1.service).2.2 rfl hparked, hnak⟩
  · intro l parked reached hmem hvalid
    obtain ⟨subject, consumer, failure, rfl, -, hreason⟩ :=
      (l.receipt.1.sound (delivery log s l.receipt) l.replies).park parked reached hmem
    exact hreason.resolve_left hvalid
  · intro service record hrecord
    obtain ⟨stream, seq, hof⟩ := hs.filed service record hrecord
    refine ⟨stream, seq, hof, fun stream' seq' hof' => ?_⟩
    exact service.queue.msgID_injective (hof'.msgID.symm.trans hof.msgID)

end Messaging
