import PolyglotTicketing.Orders.Redelivery
import PolyglotTicketing.Payments.Redelivery
import PolyglotTicketing.Tickets.Redelivery

/-!
# Redelivery is harmless

What `Outbox.Layout.Harmless` says of a run holds in each of the three services, whatever is
attempted, fails or is delivered again.
-/

namespace Integration

/-- In every run of Orders, Payments and Tickets from a migrated database, an event is processed
exactly if it was delivered successfully, a delivery that fails changes nothing, and the last state
is that of the run without the deliveries that failed or were repeated. -/
theorem redelivery_harmless :
    (∀ (clock : Int) (steps : List (Outbox.Step Orders.Call)),
      Orders.layout.Harmless Orders.engine Orders.program (Orders.State.init clock) steps) ∧
    (∀ (clock : Int) (steps : List (Outbox.Step Payments.Call)),
      Payments.layout.Harmless Payments.engine Payments.program (Payments.State.init clock)
        steps) ∧
    ∀ (clock : Int) (steps : List (Outbox.Step Tickets.Call)),
      Tickets.layout.Harmless Tickets.engine Tickets.program (Tickets.State.init clock) steps :=
  ⟨Orders.harmless, Payments.harmless, Tickets.harmless⟩

end Integration
