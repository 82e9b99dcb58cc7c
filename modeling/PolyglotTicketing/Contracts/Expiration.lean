/-!
# Expiration events

The subjects of `contracts/expiration` and of the constants of the Expiration service.
-/

namespace Contracts

/-- The subject of `ExpirationComplete`. -/
def expirationCompleteSubject : String := "expiration.expiration.complete.v1"

/-- The subject of the `OrderCreated` events that Expiration has parked. -/
def orderCreatedDeadLetterSubject : String := "dlq.expiration.order-created.v1"

end Contracts
