import PolyglotTicketing.Contracts.StructuredErrors
import PolyglotTicketing.Gateway.Services
import PolyglotTicketing.Tickets.Handlers

/-!
# The gRPC server of Tickets

`GetTicket` and `UpdateTicket` of `apps/tickets/internal/grpc/server.go`. The server answers with
what the repository returns, or refuses the call with a structured error.
-/

namespace Tickets

open Platform Contracts Relational Transaction
open Gateway (ErrorCode)

/-- The ticket as a message. -/
def toTicketResponse (ticket : Ticket) : Gateway.Ticket where
  id := uuidText ticket.id
  title := ticket.title
  price := ticket.price
  userID := ticket.userID

def structuredError (code : GrpcCode) (errors : List ValidationError) : Refusal :=
  Contracts.structuredError code (errors.map fun e => ⟨e.code, e.field, e.message⟩)

/-- A structured error with one item, which is about no field. -/
def refusal (code : GrpcCode) (errorCode : ErrorCode) (message : String) : Refusal :=
  structuredError code [{ code := errorcodeString errorCode, field := "", message }]

namespace Server

/-- What is answered to an error of `UpdateTicket`. -/
def updateRefusal : UpdateError → Refusal
  | .validation validationErrors => structuredError .invalidArgument validationErrors
  | .forbidden =>
    refusal .permissionDenied .forbidden "You do not have permission to update this ticket."
  | .reserved => refusal .permissionDenied .forbidden "Reserved tickets cannot be updated."
  | .notFound => refusal .notFound .notFound "Ticket not found."

/-- The database is that of `FindByID`, and `none` while it cannot be reached. The repository
returns the outcome of its transaction. -/
def updateTicket (db : Option Db) (repository : Call → Outcome Err Reply) (id : String)
    (input : UpdateInput) : Except Refusal (Option Gateway.Ticket) :=
  match Service.updateTicket id input with
  | .error validationErrors => .error (updateRefusal (.validation validationErrors))
  | .ok query =>
    match db, (Service.getTicket id).read with
    | some db, some found =>
      match checkFound (db.tickets.find? found) input with
      | .error err => .error (updateRefusal err)
      | .ok () =>
        match query.read.map repository with
        | some (.committed (.updated updated)) => .ok (some (toTicketResponse updated))
        | some (.failed .notFound) => .error (updateRefusal .notFound)
        | some (.failed .reserved) => .error (updateRefusal .reserved)
        | _ => .error (refusal .internal .internalError "Unable to update ticket.")
    | _, _ => .error (refusal .internal .internalError "Unable to update ticket.")

def getTicket (db : Option Db) (id : String) : Except Refusal (Option Gateway.Ticket) :=
  match db, (Service.getTicket id).read with
  | some db, some id =>
    match db.tickets.find? id with
    | some found => .ok (some (toTicketResponse found))
    | none => .error (refusal .notFound .notFound "Ticket not found.")
  | _, _ => .error (refusal .internal .internalError "Unable to retrieve ticket.")

end Server

end Tickets
