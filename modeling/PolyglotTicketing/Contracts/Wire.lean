import Mathlib.Logic.Equiv.List
import Mathlib.Tactic.DeriveEncodable
import PolyglotTicketing.Contracts.Expiration
import PolyglotTicketing.Contracts.Orders
import PolyglotTicketing.Contracts.Payments
import PolyglotTicketing.Contracts.Tickets
import PolyglotTicketing.Platform.UuidText

/-!
# Messages as they are decoded

A handler sees a message as protobuf has decoded it: identifiers are texts, and a field with a
message in it may be missing. `Query` is a call of a repository with such texts in it.
-/

namespace Wire

open Platform Contracts

instance instEncodableChar : Encodable Char :=
  Encodable.ofLeftInverse Char.toNat Char.ofNat fun c => Char.ofNat_toNat c

instance instEncodableString : Encodable String :=
  Encodable.ofLeftInverse String.toList String.ofList fun _ => String.ofList_toList

deriving instance Encodable for ProtoOrderStatus

/-- The message `google.protobuf.Timestamp`. -/
structure Timestamp where
  seconds : Int
  nanos : Int
deriving DecidableEq, Encodable

/-- `timestamppb.New`, for a time in microseconds. -/
def Timestamp.new (time : Int) : Timestamp where
  seconds := time / 1000000
  nanos := time % 1000000 * 1000

/-- `CheckValid() == nil`: the time lies in the years 1 to 9999. -/
def Timestamp.CheckValid (t : Timestamp) : Prop :=
  -62135596800 ≤ t.seconds ∧ t.seconds ≤ 253402300799 ∧ 0 ≤ t.nanos ∧ t.nanos < 1000000000

instance (t : Timestamp) : Decidable t.CheckValid := inferInstanceAs (Decidable (_ ∧ _))

/-- A time in the years 1 to 9999. -/
def Datable (time : Int) : Prop := seconds (-62135596800) ≤ time ∧ time < seconds 253402300800

instance (time : Int) : Decidable (Datable time) := inferInstanceAs (Decidable (_ ∧ _))

theorem Timestamp.checkValid_new_iff (time : Int) :
    (Timestamp.new time).CheckValid ↔ Datable time := by
  simp only [Timestamp.CheckValid, Timestamp.new, Datable, Platform.seconds]
  omega

/-- A field with a time is there and valid. -/
def Dated (field : Option Timestamp) : Prop := ∃ t ∈ field, t.CheckValid

instance (field : Option Timestamp) : Decidable (Dated field) :=
  inferInstanceAs (Decidable (∃ t ∈ field, t.CheckValid))

/-- A time is encoded as a valid one if it lies in the years 1 to 9999. -/
@[simp]
theorem dated_new_iff (time : Int) : Dated (some (Timestamp.new time)) ↔ Datable time := by
  simp [Dated, Timestamp.checkValid_new_iff]

structure OrderTicket where
  id : String
  price : Int
deriving Encodable

/-- The message `orders.v1.OrderCreated`. An order status without a name is `none`. -/
structure OrderCreated where
  eventID : String
  occurredAt : Option Timestamp
  orderID : String
  orderStatus : Option ProtoOrderStatus
  userID : String
  expiresAt : Option Timestamp
  aggregateVersion : Int
  ticket : Option OrderTicket
deriving Encodable

structure OrderCanceledTicket where
  id : String
deriving Encodable

/-- The message `orders.v1.OrderCanceled`. -/
structure OrderCanceled where
  eventID : String
  occurredAt : Option Timestamp
  orderID : String
  aggregateVersion : Int
  ticket : Option OrderCanceledTicket
deriving Encodable

structure Ticket where
  id : String
  title : String
  price : Int
  userID : String
deriving Encodable

/-- The messages `tickets.v1.TicketCreated` and `tickets.v1.TicketUpdated`, whose fields are the
same. -/
structure TicketEvent where
  eventID : String
  occurredAt : Option Timestamp
  ticket : Option Ticket
  aggregateVersion : Int
deriving Encodable

/-- The messages `payments.v1.PaymentCreated`, `payments.v1.PaymentSucceeded` and
`payments.v1.PaymentFailed`, whose fields are the same. -/
structure PaymentEvent where
  eventID : String
  occurredAt : Option Timestamp
  paymentID : String
  orderID : String
deriving Encodable

/-- The message `expiration.v1.ExpirationComplete`. -/
structure ExpirationComplete where
  eventID : String
  occurredAt : Option Timestamp
  orderID : String
deriving Encodable

/-- The text form of a message and what is decoded from it, for one type of messages. -/
structure Codec (α : Type) where
  marshal : α → List UInt8
  unmarshal : List UInt8 → Option α
  /-- Decoding inverts encoding. -/
  unmarshal_marshal : ∀ m, unmarshal (marshal m) = some m

/-- Protobuf, for the types of messages that the services exchange. -/
structure Protobuf where
  orderCreated : Codec OrderCreated
  orderCanceled : Codec OrderCanceled
  ticketCreated : Codec TicketEvent
  ticketUpdated : Codec TicketEvent
  paymentCreated : Codec PaymentEvent
  paymentSucceeded : Codec PaymentEvent
  paymentFailed : Codec PaymentEvent
  expirationComplete : Codec ExpirationComplete

/-- A coding by numbers in unary. -/
def Codec.unary (α : Type) [Encodable α] : Codec α where
  marshal m := List.replicate (Encodable.encode m) 0
  unmarshal payload := Encodable.decode payload.length
  unmarshal_marshal m := by rw [List.length_replicate, Encodable.encodek]

/-- A protobuf of such codings. -/
def Protobuf.unary : Protobuf where
  orderCreated := .unary _
  orderCanceled := .unary _
  ticketCreated := .unary _
  ticketUpdated := .unary _
  paymentCreated := .unary _
  paymentSucceeded := .unary _
  paymentFailed := .unary _
  expirationComplete := .unary _

/-- The decoded form of a message of Orders. -/
def ofOrderCreated (e : Contracts.OrderCreated) : OrderCreated where
  eventID := uuidText e.eventID
  occurredAt := some (.new e.occurredAt)
  orderID := uuidText e.orderID
  orderStatus := some e.orderStatus
  userID := e.userID
  expiresAt := some (.new e.expiresAt)
  aggregateVersion := e.aggregateVersion
  ticket := some { id := uuidText e.ticket.id, price := e.ticket.price }

/-- The decoded form of a message of Orders. -/
def ofOrderCanceled (e : Contracts.OrderCanceled) : OrderCanceled where
  eventID := uuidText e.eventID
  occurredAt := some (.new e.occurredAt)
  orderID := uuidText e.orderID
  aggregateVersion := e.aggregateVersion
  ticket := some { id := uuidText e.ticket.id }

/-- The decoded form of a ticket. -/
def ofTicket (t : ProtoTicket) : Ticket where
  id := uuidText t.id
  title := t.title
  price := t.price
  userID := t.userID

variable (protobuf : Protobuf)

/-- The payload of a message of Orders. -/
def marshalOrder : OrderEvent → List UInt8
  | .created e => protobuf.orderCreated.marshal (ofOrderCreated e)
  | .canceled e => protobuf.orderCanceled.marshal (ofOrderCanceled e)

/-- The payload of a message of Tickets. -/
def marshalTicket : Contracts.TicketEvent → List UInt8
  | .created e => protobuf.ticketCreated.marshal
      ⟨uuidText e.eventID, some (.new e.occurredAt), some (ofTicket e.ticket), e.aggregateVersion⟩
  | .updated e => protobuf.ticketUpdated.marshal
      ⟨uuidText e.eventID, some (.new e.occurredAt), some (ofTicket e.ticket), e.aggregateVersion⟩

/-- The payload of a message of Payments. -/
def marshalPayment : Contracts.PaymentEvent → List UInt8
  | .created e => protobuf.paymentCreated.marshal
      ⟨uuidText e.eventID, some (.new e.occurredAt), uuidText e.paymentID, uuidText e.orderID⟩
  | .succeeded e => protobuf.paymentSucceeded.marshal
      ⟨uuidText e.eventID, some (.new e.occurredAt), uuidText e.paymentID, uuidText e.orderID⟩
  | .failed e => protobuf.paymentFailed.marshal
      ⟨uuidText e.eventID, some (.new e.occurredAt), uuidText e.paymentID, uuidText e.orderID⟩

/-- A call of a repository with texts for columns of type `UUID`, and the same call with the values
that are read from these texts. -/
structure Query (Call : Type) where
  ids : List String
  call : (String → Uuid) → Call

/-- The database accepts the texts. -/
def Query.Accepted {Call : Type} (q : Query Call) : Prop := ∀ id ∈ q.ids, uuidIn id ≠ none

instance {Call : Type} (q : Query Call) : Decidable q.Accepted :=
  inferInstanceAs (Decidable (∀ id ∈ q.ids, uuidIn id ≠ none))

/-- The call that the database gets to see, if it accepts the texts. -/
def Query.read {Call : Type} (q : Query Call) : Option Call :=
  if q.Accepted then some (q.call fun id => (uuidIn id).getD 0) else none

/-- The call that a request leads to, unless the service or the database rejects it. -/
def received {ε Call : Type} : Except ε (Query Call) → Option Call
  | .error _ => none
  | .ok q => q.read

/-- A call comes from texts that have been read. -/
theorem exists_of_received {ε Call : Type} {r : Except ε (Query Call)} {call : Call}
    (h : received r = some call) :
    ∃ q, r = .ok q ∧ q.call (fun id => (uuidIn id).getD 0) = call := by
  cases r with
  | error e => simp [received] at h
  | ok q =>
    -- The database has read all texts, or there is no call.
    simp only [received, Query.read] at h
    split at h
    next => exact ⟨q, rfl, Option.some.inj h⟩
    next => simp at h

end Wire
