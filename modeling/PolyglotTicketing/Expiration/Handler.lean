import PolyglotTicketing.Contracts.Wire
import PolyglotTicketing.Messaging.Consumer

/-!
# Expiration

`OrderCreatedHandler` of `apps/expiration/src/expiration/order-created.handler.ts` schedules a job
for a new order, and `JetStreamExpirationPublisher` publishes `ExpirationComplete` for a job that is
due.
-/

namespace Expiration

open Platform Contracts Messaging Wire

/-- What `trim` strips off. -/
def isTrimmed (c : Char) : Bool :=
  c ∈ ['\t', '\n', '\x0b', '\x0c', '\r', ' ', '\u00a0', '\u1680', '\u2028', '\u2029', '\u202f',
    '\u205f', '\u3000', '\ufeff'] ∨ '\u2000' ≤ c ∧ c ≤ '\u200a'

/-- `s.trim() === ''`. -/
def TrimmedEmpty (s : String) : Prop := s.toList.all isTrimmed = true

instance (s : String) : Decidable (TrimmedEmpty s) := inferInstanceAs (Decidable (_ = true))

/-- The milliseconds of `timestampDate`. -/
def timestampMs (t : Timestamp) : Int := t.seconds * 1000 + (t.nanos + 500000) / 1000000

/-- `Number.isNaN(date.getTime())`, for a date with these milliseconds. -/
def InvalidDate (ms : Int) : Prop := 8640000000000000 < ms ∨ ms < -8640000000000000

instance (ms : Int) : Decidable (InvalidDate ms) := inferInstanceAs (Decidable (_ ∨ _))

/-- A job of the queue. -/
structure Job where
  orderID : String
  /-- When it is due, in milliseconds. -/
  expiresAt : Int

variable (protobuf : Protobuf)

/-- `OrderCreatedHandler.handle`, which schedules a job. -/
def OrderCreatedHandler.handle (payload : List UInt8) : Except Sentinel Job :=
  match protobuf.orderCreated.unmarshal payload with
  | none => .error .invalidOrderCreatedEvent
  | some event =>
    match event.expiresAt with
    | none => .error .invalidOrderCreatedEvent
    | some expiresAt =>
      if TrimmedEmpty event.orderID ∨ event.orderStatus ≠ some .created ∨
          InvalidDate (timestampMs expiresAt) then .error .invalidOrderCreatedEvent
      else .ok { orderID := event.orderID, expiresAt := timestampMs expiresAt }

/-- `timestampNow()`, which has the time in milliseconds. -/
def timestampNow (now : Int) : Timestamp := .new (now / 1000 * 1000)

/-- The payload of `publishExpirationComplete(orderId)` at the time `now`. -/
def publishExpirationComplete (now : Int) (orderID : String) : List UInt8 :=
  protobuf.expirationComplete.marshal
    { eventID := orderID, occurredAt := some (timestampNow now), orderID := orderID }

end Expiration
