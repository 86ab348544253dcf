import ControlRig.Client.Invocation
import ControlRig.Json.Reader
import ControlRig.Server.Route
import ControlRig.Service.Wire

/-!
# An exchange with the daemon

An order becomes one request to one URL. What comes back is an answer, or none; an answer counts
only with code 200 and a body that reads as the record the order asks for.
-/

namespace ControlRig.Client

/-- The route of an order. -/
def Order.route : Order → Route
  | .start .. => .start
  | .stop _ => .stop
  | .list => .list
  | .update => .update
  | .status => .status

/-- What an order sends along. -/
def Order.body : Order → Option Json
  | .start name strictness => some (StartRequest.mk name strictness).json
  | .stop strictness => some (StopRequest.mk strictness).json
  | .update => some (.object [])
  | .list | .status => none

/-- A request as it goes out. -/
structure Call where
  method : HttpMethod
  url : String
  body : Option Json
  deriving Repr

/-- A URL without the slashes at its end. -/
def baseOf (url : String) : String :=
  String.ofList (Text.dropEndWhile (· = '/') url.toList)

/-- The request of an order to the daemon at a URL. -/
def Order.request (order : Order) (url : String) : Call :=
  ⟨order.route.method, baseOf url ++ order.route.path, order.body⟩

/-- What comes back. -/
inductive Answer where
  /-- No response was received. -/
  | unreachable (cause : String)
  /-- A response began whose body could not be read. -/
  | unreadable (cause : String)
  | response (status : Nat) (body : String)
  deriving DecidableEq, Repr, Inhabited

/-- How every error begins that is caused by a daemon that does not answer. -/
def unreachableText : String := "cannot reach rigconfd"

/-- The body of an answer that counts, or what to tell instead. -/
def Answer.body (url : String) (path : String) : Answer → Except String String
  | .unreachable cause => .error (unreachableText ++ " at " ++ baseOf url ++ ": " ++ cause)
  | .unreadable cause => .error ("reading response from " ++ baseOf url ++ path ++ ": " ++ cause)
  | .response status body =>
    if status = 200 then .ok body
    else .error ("HTTP " ++ Text.decimal status ++ " for " ++ baseOf url ++ path ++ ": "
      ++ Text.trim body)

/-- The record in the body of an answer, or what to tell instead. -/
def Answer.record {δ α : Type} (shape : Decode.RecordShape δ α) (url : String) (path : String)
    (answer : Answer) : Except String α := do
  let body ← answer.body url path
  let invalid := "invalid response from " ++ baseOf url ++ path ++ ": "
  match Json.parse? body with
  | none => .error (invalid ++ "malformed JSON")
  | some json =>
    match shape.decode .refused json.datum with
    | .error fault => .error (invalid ++ fault.message)
    | .ok record => .ok record

end ControlRig.Client
