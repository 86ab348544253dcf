import ControlRig.Service.Wire
import ControlRig.Text.Quoted

/-!
# Serving requests

A request becomes an operation of the manager, and its outcome a reply. Nothing gets past this
point: an error, and even a crash of a collaborator, becomes a reply that says the request was not
carried out.
-/

namespace ControlRig

namespace Request

/-- The name of a strictness as descriptions of requests show it. -/
def strictnessText : Strictness → String
  | .bestEffort => "BestEffort"
  | .strict => "Strict"

/-- A description of a request, for the log. -/
def describe : Request → String
  | .start r =>
    "Start(StartConfiguration \x7b name: " ++ Text.quoted r.name ++ ", strictness: "
      ++ strictnessText r.strictness ++ " \x7d)"
  | .stop r => "Stop(StopConfiguration \x7b strictness: " ++ strictnessText r.strictness ++ " \x7d)"
  | .list => "List"
  | .update => "Update"

end Request

namespace Service

open Procedure

/-- The reply to a start. -/
def startReply (name : String) : Except ManagerError (List String) → Reply
  | .ok [] => .ack .success
  | .ok skipped =>
    .ack (.partly ("'" ++ name ++ "' started without controllers: " ++ Transition.joined skipped))
  | .error e => .ack (.failure e.message)

/-- The reply to a stop or an update. -/
def plainReply : Except ManagerError Unit → Reply
  | .ok () => .ack .success
  | .error e => .ack (.failure e.message)

/-- The reply to a listing. -/
def listReply : Except ManagerError (List Configuration) → Reply
  | .ok configurations =>
    .list ⟨true, configurations.map ConfigurationSummary.ofConfiguration, none⟩
  | .error e => .list (.failure e.message)

/-- Have the manager do what is requested. -/
def dispatch (m : Manager) : Request → Procedure Reply
  | .start r => do return startReply r.name (← m.start r.name r.strictness)
  | .stop r => do return plainReply (← m.stop r.strictness)
  | .list => do return listReply (← m.list)
  | .update => do return plainReply (← m.refresh)

/-- The reply to a request during which a collaborator crashed. -/
def crashReply : Request → Reply
  | .list => .list (.failure "internal error")
  | _ => .ack (.failure "internal error")

/-- Serve a request. -/
def handle (m : Manager) (request : Request) : Procedure Reply := do
  let reply ← match ← attempt (dispatch m request) with
    | some reply => pure reply
    | none => do
      complain ("request handler panicked: " ++ request.describe)
      pure (crashReply request)
  if !reply.ok then
    warn ("request " ++ request.describe ++ " failed")
  return reply

end Service

end ControlRig
