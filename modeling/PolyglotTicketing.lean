import PolyglotTicketing.Messaging.Disposal
import PolyglotTicketing.Orders.TicketSales
import PolyglotTicketing.Orders.TicketProjection
import PolyglotTicketing.Orders.Reservations
import PolyglotTicketing.Payments.Ledger
import PolyglotTicketing.Integration.OrderProjection
import PolyglotTicketing.Integration.PaymentOutcome
import PolyglotTicketing.Tickets.EditLock
import PolyglotTicketing.Outbox.Leases
import PolyglotTicketing.Outbox.Ordering
import PolyglotTicketing.Tickets.Frozen
import PolyglotTicketing.Gateway.ErrorContract
import PolyglotTicketing.Integration.Identifiers
import PolyglotTicketing.Integration.Accepted
import PolyglotTicketing.ConcertAssistant.Confinement
import PolyglotTicketing.Integration.Redelivery
import PolyglotTicketing.ConcertAssistant.SimilarArtists
import PolyglotTicketing.Integration.SessionCookie
import PolyglotTicketing.Integration.Prices
import PolyglotTicketing.Integration.Settlement
import PolyglotTicketing.Integration.Locks
import PolyglotTicketing.Outbox.Drain
import PolyglotTicketing.Integration.AuthHeaders
import PolyglotTicketing.Gateway.ApiContract
import PolyglotTicketing.Integration.OrdersApi
import PolyglotTicketing.Identity.Outcomes
import PolyglotTicketing.Integration.IdentityApi
import PolyglotTicketing.Integration.PaymentsApi
