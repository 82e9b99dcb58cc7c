import PolyglotTicketing.Tickets.VersionHistory

/-!
# The service of Tickets

`UpdateTicket` of `apps/tickets/internal/ticket/service.go` looks at the ticket before it calls the
repository, in a statement of its own. Anything can happen between this look, which locks nothing,
and the transaction of the repository. A `Front` is the server of Tickets together with the calls of
`UpdateTicket` on their way to it.
-/

namespace Tickets

open Platform Relational Transaction Transition

/-- The largest price, 2⁵³ − 1. -/
def maxPrice : Int := 9007199254740991

structure ValidationError where
  code : String
  field : String
  message : String
deriving DecidableEq

def validateMutation (title : String) (price : Int) (userID : String) : List ValidationError :=
  if Blank title then
    [{ code := "INVALID_TITLE", field := "title", message := "Title is required." }]
  else if price ≤ 0 ∨ maxPrice < price then
    [{ code := "INVALID_PRICE", field := "price"
       message := "Price must be between 1 and 9007199254740991." }]
  else if userID = "" then
    [{ code := "INVALID_ARGUMENT", field := "userId", message := "Ticket owner is required." }]
  else []

/-- The error of `UpdateTicket`, where it does not call `Update`. -/
inductive UpdateError where
  | validation (errors : List ValidationError)
  | notFound
  | forbidden
  | reserved
deriving DecidableEq

/-- What `UpdateTicket` does with the ticket that `FindByID` has found. -/
def checkFound (found : Option Ticket) (input : UpdateInput) : Except UpdateError Unit :=
  match found with
  | none => .error .notFound
  | some found =>
    if found.userID ≠ input.userID then .error .forbidden
    else if found.reservedByOrderID ≠ none then .error .reserved
    else .ok ()

/-- How far a call of `UpdateTicket` has come. -/
inductive Update where
  /-- Its input is valid. -/
  | received (id : Uuid) (input : UpdateInput)
  /-- It has looked at the ticket, and is about to call `Update`. -/
  | checked (id : Uuid) (input : UpdateInput)
  /-- It has begun a transaction. -/
  | begun
  /-- It has returned an error. -/
  | rejected (err : UpdateError)

/-- The server of Tickets, and the calls of `UpdateTicket`, oldest first. -/
structure Front where
  server : System
  updates : List Update

/-- What can happen. -/
inductive Label where
  /-- Something happens on the server, other than the beginning of an update. -/
  | server (e : Event Int Fresh Call)
  /-- `UpdateTicket` is called. -/
  | updateTicket (id : Uuid) (input : UpdateInput)
  /-- A call of it looks at the ticket. -/
  | findByID (k : ℕ)
  /-- A call of it begins the transaction of `Update`. -/
  | update (k : ℕ)

/-- Whether an event is the beginning of an update, which is left to `UpdateTicket`. -/
def beginsUpdate : Event Int Fresh Call → Bool
  | .start (.update _ _) => true
  | _ => false

/-- One thing that happens. What is not possible changes nothing. -/
def Front.step (f : Front) : Label → Front
  | .server e =>
    if beginsUpdate e then f else { f with server := f.server.step engine program e }
  | .updateTicket id input =>
    let errors := validateMutation input.title input.price input.userID
    { f with updates := f.updates ++
        [if errors ≠ [] then .rejected (.validation errors) else .received id input] }
  | .findByID k =>
    match f.updates[k]? with
    | some (.received id input) =>
      match checkFound (f.server.world.db.tickets.find? id) input with
      | .error err => { f with updates := f.updates.set k (.rejected err) }
      | .ok () => { f with updates := f.updates.set k (.checked id input) }
    | _ => f
  | .update k =>
    match f.updates[k]? with
    | some (.checked id input) =>
      { server := f.server.step engine program (.start (.update id input))
        updates := f.updates.set k .begun }
    | _ => f

/-- The service after the labels, on a migrated database. -/
def attend (clock : Int) (labels : List Label) : Front :=
  run Front.step ⟨serve clock [], []⟩ labels

/-- A step of the service is at most one event of the server. -/
theorem Front.server_step (f : Front) (l : Label) : (f.step l).server = f.server ∨
    ∃ e, (f.step l).server = f.server.step engine program e ∧
      (l = .server e ∨ ∃ k id input, l = .update k ∧ e = .start (.update id input)) := by
  cases l with
  | server e =>
    rw [Front.step]
    split
    · exact Or.inl rfl
    · exact Or.inr ⟨e, rfl, Or.inl rfl⟩
  | updateTicket id input => exact Or.inl rfl
  | findByID k =>
    rw [Front.step]
    split
    · split
      · exact Or.inl rfl
      · exact Or.inl rfl
    · exact Or.inl rfl
  | update k =>
    rw [Front.step]
    split
    next id input hupdate => exact Or.inr ⟨_, rfl, Or.inr ⟨k, id, input, rfl, rfl⟩⟩
    next => exact Or.inl rfl

/-- The server of the service has a run of its own. -/
theorem exists_serve (clock : Int) (labels : List Label) :
    ∃ events, (attend clock labels).server = serve clock events := by
  refine run_invariant (P := fun f : Front => ∃ events, f.server = serve clock events) ?_
    ⟨[], rfl⟩ labels
  rintro f l ⟨events, hevents⟩
  -- A step adds at most one event to the run of the server.
  rcases f.server_step l with hsame | ⟨e, hstep, -⟩
  · exact ⟨events, hsame.trans hevents⟩
  · exact ⟨events ++ [e], by rw [hstep, hevents, serve_concat]⟩

end Tickets
