import Mathlib.Data.List.Nodup
import PolyglotTicketing.Contracts.Expiration
import PolyglotTicketing.Contracts.Orders
import PolyglotTicketing.Contracts.Payments
import PolyglotTicketing.Contracts.Tickets
import PolyglotTicketing.Messaging.Header

/-!
# Dead letter queues

The functions that park a message in the dead letter queue of a service and replay it from there:
`dead_letter.go` of Orders, Tickets and Payments, and `jetstream.service.ts` of Expiration.

A parked message carries its original headers and a family of headers of its own, whose names begin
with the name of the queue. The replay takes this family away again. The three Go services have the
same functions with other names in them; Expiration copies header values one by one, and tells
`Nats-Msg-Id` apart in another way.
-/

namespace Messaging

open Contracts Relational

/-- A message of a stream. -/
structure Msg where
  subject : String
  header : Header
  data : List UInt8

/-- The type `ordersDeadLetter` and its two copies, and the arguments of `parkOrderCreated`. The
headers of the original message are an object of the process. -/
structure DeadLetter where
  consumer : String
  deliveryCount : ℕ
  failureClass : String
  failureReason : String
  originalHeader : Option ℕ
  originalStream : String
  originalSeq : ℕ
  originalSubject : String
  payload : List UInt8
  subject : String

/-- The constants of a dead letter queue. -/
structure Queue where
  /-- The subjects of the stream. -/
  subjects : List String
  /-- How the names of its headers begin. -/
  headerStart : String
  /-- How they began in an earlier version. -/
  legacyStart : Option String
  /-- How the `Nats-Msg-Id` of a parked message begins. -/
  idStart : String
  /-- How the `Nats-Msg-Id` of a replayed message begins. -/
  replayIDStart : String
  /-- The subjects of the messages that the service consumes. -/
  consumed : List String

/-- The stream `ORDERS_DLQ`. -/
def ordersQueue : Queue where
  subjects := [ticketProjectionDeadLetterSubject, expirationCompleteDeadLetterSubject,
    paymentCreatedDeadLetterSubject, paymentSucceededDeadLetterSubject,
    paymentFailedDeadLetterSubject]
  headerStart := "X-Orders-DLQ-"
  legacyStart := some "X-Ticket-DLQ-"
  idStart := "orders-dlq-v1:"
  replayIDStart := "orders-dlq-replay-v1:"
  consumed := [ticketCreatedSubject, ticketUpdatedSubject, expirationCompleteSubject,
    paymentCreatedSubject, paymentSucceededSubject, paymentFailedSubject]

/-- The stream `TICKETS_DLQ`. -/
def ticketsQueue : Queue where
  subjects := [orderReservationDeadLetterSubject, orderCancellationDeadLetterSubject]
  headerStart := "X-Tickets-DLQ-"
  legacyStart := none
  idStart := "tickets-dlq-v1:"
  replayIDStart := "tickets-dlq-replay-v1:"
  consumed := [orderCreatedSubject, orderCanceledSubject]

/-- The stream `PAYMENTS_DLQ`. -/
def paymentsQueue : Queue where
  subjects := [orderProjectionDeadLetterSubject]
  headerStart := "X-Payments-DLQ-"
  legacyStart := none
  idStart := "payments-dlq-v1:"
  replayIDStart := "payments-dlq-replay-v1:"
  consumed := [orderCreatedSubject, orderCanceledSubject]

/-- The stream `EXPIRATION_DLQ`. -/
def expirationQueue : Queue where
  subjects := [orderCreatedDeadLetterSubject]
  headerStart := "X-Expiration-DLQ-"
  legacyStart := none
  idStart := "expiration-dlq-v1:"
  replayIDStart := "expiration-dlq-replay-v1:"
  consumed := [orderCreatedSubject]

/-- The header that JetStream tells duplicates by. -/
def natsMsgID : String := "Nats-Msg-Id"

/-- The failure text without line breaks. -/
def sanitize (failureReason : String) : String :=
  failureReason.map fun c => if c = '\r' ∨ c = '\n' then ' ' else c

/-- The `Nats-Msg-Id` of a parked message. -/
def Queue.msgID (q : Queue) (stream : String) (seq : ℕ) : String :=
  q.idStart ++ stream ++ ":" ++ toString seq

/-- The `Nats-Msg-Id` of a replayed message. -/
def Queue.replayID (q : Queue) (sequence : ℕ) : String := q.replayIDStart ++ toString sequence

/-- Different numbers have different decimal representations. -/
theorem toString_nat_injective {n n' : ℕ} (h : toString n = toString n') : n = n' := by
  have hdigits : Nat.toDigits 10 n = Nat.toDigits 10 n' := by
    rw [← Nat.toList_repr, ← Nat.toList_repr]
    exact congrArg String.toList h
  rw [← Nat.ofDigitChars_ten_toDigits (n := n), hdigits, Nat.ofDigitChars_ten_toDigits]

/-- The headers that are set on a parked message. -/
def Queue.fields (q : Queue) (event : DeadLetter) (parkedAt : String) : List (String × String) :=
  [(natsMsgID, q.msgID event.originalStream event.originalSeq),
    (q.headerStart ++ "Original-Subject", event.originalSubject),
    (q.headerStart ++ "Original-Stream", event.originalStream),
    (q.headerStart ++ "Original-Stream-Sequence", toString event.originalSeq),
    (q.headerStart ++ "Consumer", event.consumer),
    (q.headerStart ++ "Delivery-Count", toString event.deliveryCount),
    (q.headerStart ++ "Failure-Class", event.failureClass),
    (q.headerStart ++ "Failure-Reason", sanitize event.failureReason),
    (q.headerStart ++ "Parked-At", parkedAt)]

/-- Several calls of `Set` on an object. -/
def setAll (heap : Heap) (address : ℕ) (fields : List (String × String)) : Heap :=
  fields.foldl (fun heap field => heap.modify address fun header => header.set field.1 field.2) heap

/-- The loop that copies entries into the object at an address, unless their name is skipped. -/
def copyInto (copy : Header → Entry → Header) (skip : String → Bool) (heap : Heap) (address : ℕ)
    (entries : List Entry) : Heap :=
  entries.foldl (fun heap entry =>
    if skip entry.name then heap else heap.modify address fun header => copy header entry) heap

/-- `headers[key] = append([]string(nil), values...)`. -/
def assignEntry (header : Header) (entry : Entry) : Header := header.upsert entry

/-- `for (const value of values) { copy.append(key, value); }`. -/
def appendEntry (header : Header) (entry : Entry) : Header :=
  entry.values.foldl (fun header value => header.append entry.name value) header

/-- `cloneHeaders` and its two copies. The clone is the object at the end of the heap. -/
def cloneHeaders (heap : Heap) (original : Option ℕ) : Heap :=
  copyInto assignEntry (fun _ => false) (heap ++ [.empty]) heap.length (heap.header original).rows

/-- `Park` of the Go services: the message that it publishes, and the heap after it. -/
def Queue.park (q : Queue) (event : DeadLetter) (parkedAt : String) (heap : Heap) : Msg × Heap :=
  let headers := heap.length
  let heap := cloneHeaders heap event.originalHeader
  let heap := setAll heap headers (q.fields event parkedAt)
  ({ subject := event.subject, header := heap.header (some headers), data := event.payload }, heap)

/-- `originalSubject` of Orders. The other services know no older name. -/
def Queue.originalSubject (q : Queue) (header : Header) : String :=
  let subject := header.get (q.headerStart ++ "Original-Subject")
  if subject ≠ "" then subject
  else q.legacyStart.elim "" fun start => header.get (start ++ "Original-Subject")

/-- Why a message is not replayed. -/
inductive ReplayError where
  /-- The stream has no such message. -/
  | notFound
  /-- It is no message of a dead letter queue. -/
  | notDeadLetter
  /-- The service does not consume messages of its original subject. -/
  | unsupportedSubject (subject : String)
deriving DecidableEq

/-- What `ReplayOrdersDeadLetter` and its copies leave out. -/
def Queue.skips (q : Queue) (name : String) : Bool :=
  HasStart name q.headerStart ∨ (∃ start ∈ q.legacyStart, HasStart name start) ∨
    EqualFold name natsMsgID

/-- `ReplayOrdersDeadLetter` and its two copies, for the message that the stream has at `sequence`:
the message that it publishes, and the heap after it. The message comes as a new object. -/
def Queue.replay (q : Queue) (sequence : ℕ) (stored : Option Msg) (heap : Heap) :
    Except ReplayError (Msg × Heap) :=
  match stored with
  | none => .error .notFound
  | some message =>
    if message.subject ∉ q.subjects then .error .notDeadLetter
    else
      let subject := q.originalSubject message.header
      if subject ∉ q.consumed then .error (.unsupportedSubject subject)
      else
        -- The headers of the message and their copy are two objects.
        let heap := heap ++ [message.header]
        let headers := heap.length
        let heap := copyInto assignEntry q.skips (heap ++ [.empty]) headers message.header.rows
        let heap := setAll heap headers [(natsMsgID, q.replayID sequence)]
        .ok ({ subject := subject
               header := heap.header (some headers)
               data := message.data }, heap)

/-- `parkOrderCreated`. The client sets `Nats-Msg-Id` when it publishes the message. -/
def parkOrderCreated (event : DeadLetter) (parkedAt : String) (heap : Heap) : Msg × Heap :=
  let messageHeaders := heap.length
  let heap := copyInto appendEntry (fun _ => false) (heap ++ [.empty]) messageHeaders
    (heap.header event.originalHeader).rows
  let heap := setAll heap messageHeaders (expirationQueue.fields event parkedAt).tail
  let heap := setAll heap messageHeaders
    [(natsMsgID, expirationQueue.msgID event.originalStream event.originalSeq)]
  ({ subject := orderCreatedDeadLetterSubject
     header := heap.header (some messageHeaders)
     data := event.payload }, heap)

/-- What `withoutDeadLetterHeaders` leaves out. -/
def expirationSkips (name : String) : Bool :=
  HasStart name expirationQueue.headerStart ∨ LowerCaseIs name "nats-msg-id"

/-- `replayExpirationDeadLetter`. -/
def replayExpirationDeadLetter (sequence : ℕ) (stored : Option Msg) (heap : Heap) :
    Except ReplayError (Msg × Heap) :=
  match stored with
  | none => .error .notDeadLetter
  | some message =>
    if message.subject ≠ orderCreatedDeadLetterSubject then .error .notDeadLetter
    else
      let subject := message.header.get (expirationQueue.headerStart ++ "Original-Subject")
      if subject ≠ orderCreatedSubject then .error (.unsupportedSubject subject)
      else
        -- The headers of the message and their copy are two objects.
        let heap := heap ++ [message.header]
        let copy := heap.length
        let heap := copyInto appendEntry expirationSkips (heap ++ [.empty]) copy message.header.rows
        let heap := setAll heap copy [(natsMsgID, expirationQueue.replayID sequence)]
        .ok ({ subject := subject, header := heap.header (some copy), data := message.data }, heap)

/-- The services with a dead letter queue. -/
inductive Service where
  | orders
  | tickets
  | payments
  | expiration
deriving DecidableEq

/-- The queue of a service. -/
def Service.queue : Service → Queue
  | .orders => ordersQueue
  | .tickets => ticketsQueue
  | .payments => paymentsQueue
  | .expiration => expirationQueue

/-- Park a message. -/
def Service.park : Service → DeadLetter → String → Heap → Msg × Heap
  | .expiration => parkOrderCreated
  | s => s.queue.park

/-- Replay a message. -/
def Service.replay : Service → ℕ → Option Msg → Heap → Except ReplayError (Msg × Heap)
  | .expiration => replayExpirationDeadLetter
  | s => s.queue.replay

/-- The header names that a replay leaves out. -/
def Service.skips : Service → String → Bool
  | .expiration => expirationSkips
  | s => s.queue.skips

end Messaging
