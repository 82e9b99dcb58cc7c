import PolyglotTicketing.Integration.Sessions
import PolyglotTicketing.Payments.Ledger
import PolyglotTicketing.Payments.Server

/-!
# Payments behind the gateway

The gateway in front of the server of Payments, whose transactions run interleaved. The other
services answer as they like.

`payment_shown_once` says what clients see of the ledger: all who ask for a payment of an order are
shown the same payment, and one of them at most is told that it is new.
-/

namespace Integration

open Contracts Gateway Interaction JavaScript Platform Transaction

/-- The answers of the server of Payments, whose transactions end as `repository` says. All other
calls are answered by `env`. -/
def withPayments {M : Type} (repository : Payments.Call → Outcome Payments.Err Payments.Reply)
    (env : Environment (Request M) Reply Thrown) : Environment (Request M) Reply Thrown :=
  fun past r =>
    match r with
    | .createPayment orderID userID =>
      (Payments.Server.createPayment repository orderID userID).mapError Refusal.error
    | r => env past r

section Runs

variable {M : Type} {parse : String → Option Json} {grpc : Grpc M} {validator : Validator}
  {accepts : Text → Bool} {env : Environment (Request M) Reply Thrown}
  {headers : IncomingHttpHeaders}

/-- A payment is shown only if a reply of Payments has it, and its status says if it is new. -/
theorem paid_of_run {body : Value} {calls : List (Exchange (Request M) Reply Thrown)}
    {response : HttpResponse}
    (hrun : (handler parse grpc validator accepts ⟨headers, .createPayment body⟩).run env [] =
      (calls, .ok response)) :
    ∃ currentUser dto past reply payment, Names grpc env headers currentUser ∧
      validator.createPayment.validate body = .ok dto ∧
      env past (.createPayment (CreatePaymentDto.orderID dto) currentUser.userID) = .ok reply ∧
      reply.payment = some payment ∧
      response = answer (if reply.created then 201 else 200) (.payment payment) := by
  change (withSession parse grpc headers (PaymentsController.createPayment parse validator
    body)).run env [] = _ at hrun
  obtain ⟨currentUser, past, hnames, hhandler⟩ := exists_of_withSession hrun
  obtain ⟨_, dto, hpipe, hanswer⟩ := Program.exists_of_run_bind hhandler
  obtain ⟨hvalidate, rfl⟩ := exists_of_pipe hpipe
  obtain ⟨_, ⟨created, payment⟩, hmethod, hend⟩ := Program.exists_of_run_bind hanswer
  obtain ⟨_, reply, hask, hconvert⟩ := Program.exists_of_run_bind (exists_of_guarded hmethod)
  obtain ⟨hreply, rfl⟩ := Program.exists_of_run_perform hask
  obtain ⟨_, payment', hconverted, hreturn⟩ := Program.exists_of_run_bind hconvert
  rw [Program.run_ofExcept] at hconverted
  obtain ⟨rfl, hpayment⟩ := Prod.mk.inj hconverted
  obtain ⟨rfl, rfl⟩ := Prod.mk.inj (Except.ok.inj (Prod.mk.inj hreturn).2)
  obtain rfl := Except.ok.inj (Prod.mk.inj hend).2
  refine ⟨currentUser, dto, _, reply, payment', hnames, hvalidate, hreply, ?_, rfl⟩
  cases hreply' : reply.payment with
  | none =>
    rw [hreply'] at hpayment
    cases hpayment
  | some payment =>
    rw [hreply'] at hpayment
    rw [Except.ok.inj hpayment]

/-- A payment that is shown is what a transaction of Payments has returned. -/
theorem committed_of_serve {body : Value} {calls : List (Exchange (Request M) Reply Thrown)}
    {response : HttpResponse} {payment : PaymentResponse} {server : Payments.System} {i : ℕ}
    (hserve : serve parse grpc validator accepts (withPayments (server.returned i) env)
      ⟨headers, .createPayment body⟩ = (calls, some response))
    (hbody : response.body = .payment payment) :
    ∃ currentUser dto s id p new, Names grpc env headers currentUser ∧
      validator.createPayment.validate body = .ok dto ∧ uuidIn dto.orderID = some id ∧
      s.call = .create { orderID := id, userID := currentUser.userID } ∧
      server.Committed i s (.created p new) ∧ payment = Payments.toPaymentResponse p ∧
      response.status = .finite (if new then 201 else 200) := by
  have hrun := (run_or_errors_of_serve hserve).resolve_right fun ⟨_, errors, herrors⟩ => by
    rw [hbody] at herrors
    cases herrors
  obtain ⟨currentUser, dto, past, reply, payment', hnames, hvalidate, hreply, hpayment, rfl⟩ :=
    paid_of_run hrun
  obtain rfl := Body.payment.inj hbody
  have hserver : Payments.Server.createPayment (server.returned i) dto.orderID
      currentUser.userID = .ok reply := ok_of_mapError hreply
  obtain ⟨id, p, hid, hreturned, hshown⟩ := Payments.Server.exists_of_createPayment hserver
  obtain ⟨s, hcall, hcommitted⟩ := Server.exists_of_returned hreturned
  exact ⟨currentUser, dto, s, id, p, reply.created, hnames, hvalidate, hid, hcall, hcommitted,
    Option.some.inj (hpayment.symm.trans hshown), rfl⟩

end Runs

section Once

variable {M : Type} (parse : String → Option Json) (grpc : Grpc M) (validator : Validator)
  (accepts : Text → Bool)

/-- A client who asks for a payment and is shown one is shown the payment, in the ledger, of the
order that the request names. Whoever asks for a payment of this order, before or after, is shown
the same payment or errors, and if the one is told that it is new, the other is not. -/
theorem payment_shown_once (clock : Int)
    (events : List (Transaction.Event Int Fresh Payments.Call)) (i : ℕ)
    (env : Environment (Request M) Reply Thrown) (headers : IncomingHttpHeaders) (body : Value) :
    ∃ calls response,
      serve parse grpc validator accepts
        (withPayments ((Payments.serve clock events).returned i) env)
        ⟨headers, .createPayment body⟩ = (calls, some response) ∧
      ∀ payment, response.body = .payment payment →
        (∃ dto, validator.createPayment.validate body = .ok dto ∧
          (uuidIn dto.orderID).map uuidText = some payment.orderID) ∧
        (∃ p ∈ (Payments.serve clock events).world.db.payments.rows,
          Payments.toPaymentResponse p = payment) ∧
        ∀ later j env' headers' body', j ≠ i → ∃ calls' response',
          serve parse grpc validator accepts
            (withPayments ((Payments.serve clock (events ++ later)).returned j) env')
            ⟨headers', .createPayment body'⟩ = (calls', some response') ∧
          ∀ payment', response'.body = .payment payment' → payment'.orderID = payment.orderID →
            payment' = payment ∧
              (response.status = .finite 201 → response'.status = .finite 200) := by
  obtain ⟨calls, response, hserve⟩ := exists_response parse grpc validator accepts
    (withPayments ((Payments.serve clock events).returned i) env) ⟨headers, .createPayment body⟩
  refine ⟨calls, response, hserve, fun payment hbody => ?_⟩
  obtain ⟨currentUser, dto, s, id, p, new, -, hvalidate, hid, hcall, hcommitted, rfl, hstatus⟩ :=
    committed_of_serve hserve hbody
  obtain ⟨input, hcall', horder, q, hq, hqid, hqorder⟩ :=
    (Payments.settled_serve clock events).each hcommitted p new rfl
  obtain rfl := Payments.Call.create.inj (hcall.symm.trans hcall')
  refine ⟨⟨dto, hvalidate, ?_⟩, ⟨q, hq, ?_⟩, fun later j env' headers' body' hji => ?_⟩
  · rw [hid, Option.map_some, Payments.toPaymentResponse, horder]
  · rw [Payments.toPaymentResponse, hqid, hqorder]
    rfl
  · obtain ⟨calls', response', hserve'⟩ := exists_response parse grpc validator accepts
      (withPayments ((Payments.serve clock (events ++ later)).returned j) env')
      ⟨headers', .createPayment body'⟩
    refine ⟨calls', response', hserve', fun payment' hbody' heq => ?_⟩
    obtain ⟨-, -, s', -, p', new', -, -, -, -, hcommitted', rfl, hstatus'⟩ :=
      committed_of_serve hserve' hbody'
    -- The first transaction is still there when the second one has committed.
    have hstays : (Payments.serve clock (events ++ later)).Committed i s (.created p new) := by
      rw [Payments.serve, Transition.run_append]
      exact Transition.run_invariant
        (P := fun c : Payments.System => c.Committed i s (.created p new))
        (fun c e hc => hc.stays (Server.step_cases _ _ c e)) hcommitted later
    have hsame : p.orderID = p'.orderID := eq_of_uuidText_eq heq.symm
    obtain ⟨hids, hnew⟩ := (Payments.settled_serve clock (events ++ later)).pair hji.symm hstays
      hcommitted' p new p' new' rfl rfl hsame
    refine ⟨by rw [Payments.toPaymentResponse, Payments.toPaymentResponse, hids, hsame], ?_⟩
    intro hcreated
    have hfirst : new = true := by
      by_contra hold
      rw [hstatus, if_neg hold] at hcreated
      simp at hcreated
    rw [hstatus', hnew hfirst]
    simp

end Once

end Integration
