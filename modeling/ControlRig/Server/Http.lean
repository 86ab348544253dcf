import ControlRig.Json.Reader
import ControlRig.Server.Route
import ControlRig.Service.Handle

/-!
# Answering over HTTP

One request, one answer. The path has to be known, then the method has to be the route's, then the
body has to be a request; whatever the manager answers to a request is an answer with code 200, a
failure included.
-/

namespace ControlRig

/-- A request as it comes in. -/
structure HttpRequest where
  method : String
  url : String
  body : ByteArray

/-- An answer as it goes out. -/
structure HttpResponse where
  status : Nat
  /-- Whether the body is JSON; otherwise it is plain text. -/
  isJson : Bool
  body : String
  deriving DecidableEq, Repr

namespace HttpResponse

/-- A JSON answer. -/
def json (value : Json) : HttpResponse := ⟨200, true, value.compact⟩

/-- A refusal with a plain text. -/
def refusal (status : Nat) (text : String) : HttpResponse := ⟨status, false, text⟩

/-- The type of the body. -/
def contentType (r : HttpResponse) : String :=
  if r.isJson then "application/json" else "text/plain; charset=UTF-8"

/-- The answer as it is sent for a method: a `HEAD` gets no body. -/
def sentFor (r : HttpResponse) (method : String) : HttpResponse :=
  if method = "HEAD" then { r with body := "" } else r

end HttpResponse

namespace Server

/-- Whether a byte is white space of the ASCII range. -/
def isBlankByte (b : UInt8) : Bool :=
  b = 0x20 || b = 0x09 || b = 0x0A || b = 0x0C || b = 0x0D

/-- A body decoded as a record. Nothing but white space stands for a default, where there is one. Of
a body that is no JSON at all no more is told. -/
def decodeBody {δ α : Type} (shape : Decode.RecordShape δ α) (standard : Option α)
    (body : ByteArray) : Except String α :=
  match standard, body.toList.all isBlankByte with
  | some value, true => .ok value
  | _, _ =>
    match (String.fromUTF8? body).bind Json.parse? with
    | none => .error "invalid request body"
    | some json =>
      match shape.decode .refused json.datum with
      | .ok value => .ok value
      | .error fault => .error ("invalid request body: " ++ fault.message)

/-- What a route and a body ask of the manager; nothing for the routes that only look. -/
def requestOf (body : ByteArray) : Route → Except String (Option Request)
  | .start => (decodeBody StartRequest.shape none body).map (some <| .start ·)
  | .stop => (decodeBody StopRequest.shape (some ⟨.bestEffort⟩) body).map (some <| .stop ·)
  | .list => .ok (some .list)
  | .update => .ok (some .update)
  | .status | .health => .ok none

/-- The answer on a route with its own method. -/
def answerOn (m : Manager) (request : HttpRequest) (route : Route) : Procedure HttpResponse :=
  match requestOf request.body route with
  | .error text => return .refusal 400 text
  | .ok (some asked) => do
    let reply ← Service.handle m asked
    Procedure.inform (request.method ++ " " ++ request.url ++ ": ok="
      ++ if reply.ok then "true" else "false")
    return .json reply.json
  | .ok none =>
    match route with
    | .status => do return .json (StatusReport.ofStatus (← m.status)).json
    | _ => return .json (.object [("status", .string "ok")])

/-- Answer a request. -/
def answer (m : Manager) (request : HttpRequest) : Procedure HttpResponse :=
  match Route.parse? request.url with
  | none => return .refusal 404 "not found"
  | some route =>
    if request.method ≠ route.method.text then return .refusal 405 "method not allowed"
    else answerOn m request route

end Server

end ControlRig
