import ControlRig.Client.Exchange
import ControlRig.Server.Http
import ControlRig.Text.Decimal

/-!
# Messages on a connection

Requests and answers travel as messages: a first line, header lines, an empty line, and a body.
Every connection carries one request and one answer. The length of a body is told by a header; where
it is not, a request has no body, and the body of an answer ends with the connection.
-/

namespace ControlRig.Http

/-- A message. -/
structure Message where
  first : String
  /-- The headers, with their names in small letters. -/
  headers : List (String × String)
  body : List UInt8

/-- What can be made of the bytes that have come so far. -/
inductive Reading where
  | message (message : Message)
  /-- More bytes are needed. -/
  | more
  /-- No message begins like that. -/
  | broken

/-- The bytes of the line that ends first, and what comes after it. A line ends with a line feed; a
carriage return before it is no part of it. -/
def line? : List UInt8 → Option (List UInt8 × List UInt8)
  | [] => none
  | 13 :: 10 :: rest => some ([], rest)
  | 10 :: rest => some ([], rest)
  | b :: rest => (line? rest).map fun (bytes, after) => (b :: bytes, after)

theorem line?_length {bytes line rest : List UInt8} (h : line? bytes = some (line, rest)) :
    rest.length < bytes.length := by
  fun_induction line? bytes generalizing line rest with
  | case1 => simp at h
  | case2 tail =>
    cases h
    simp only [List.length_cons]
    omega
  | case3 tail =>
    cases h
    simp only [List.length_cons]
    omega
  | case4 b tail _ _ ih =>
    obtain ⟨⟨inner, after⟩, found, same⟩ := Option.map_eq_some_iff.1 h
    have := ih found
    grind

/-- The lines before the first empty one, and what comes after it. -/
def head? (bytes : List UInt8) : Option (List (List UInt8) × List UInt8) :=
  match _found : line? bytes with
  | none => none
  | some ([], rest) => some ([], rest)
  | some (line, rest) => (head? rest).map fun (lines, after) => (line :: lines, after)
termination_by bytes.length
decreasing_by exact line?_length _found

/-- The text of bytes. -/
def textOf? (bytes : List UInt8) : Option String := String.fromUTF8? ⟨bytes.toArray⟩

/-- A header line: a name, a colon, a value. -/
def header (line : String) : String × String :=
  let name := line.toList.takeWhile (· ≠ ':')
  (String.ofList (name.map Char.toLower),
    Text.trim (String.ofList (line.toList.drop (name.length + 1))))

/-- The length that headers tell. -/
def bodyLength? (headers : List (String × String)) : Option Nat :=
  ((headers.find? (·.1 = "content-length")).bind fun h => h.2.toNat?)

/-- What the bytes so far amount to. `closed` tells that no more will come, and `untilClosed` that a
body of unknown length ends with the connection. -/
def Reading.ofBytes (untilClosed closed : Bool) (bytes : List UInt8) : Reading :=
  match head? bytes with
  | none => if closed then .broken else .more
  | some (lines, rest) =>
    match lines.mapM textOf? with
    | some (first :: others) =>
      let headers := others.map header
      match bodyLength? headers with
      | some n =>
        if n ≤ rest.length then .message ⟨first, headers, rest.take n⟩
        else if closed then .broken
        else .more
      | none =>
        if !untilClosed then .message ⟨first, headers, []⟩
        else if closed then .message ⟨first, headers, rest⟩
        else .more
    | _ => .broken

/-- The words of a line. -/
def words (line : String) : List String :=
  (line.splitOn " ").filter (· ≠ "")

/-- The request of a message. -/
def Message.request? (m : Message) : Option HttpRequest :=
  match words m.first with
  | [method, url, _] => some ⟨method, url, ⟨m.body.toArray⟩⟩
  | _ => none

/-- The answer of a message, as the client takes it. -/
def Message.answer (m : Message) : Client.Answer :=
  match words m.first with
  | _ :: status :: _ =>
    match status.toNat?, textOf? m.body with
    | some code, some body => .response code body
    | some _, none => .unreadable "no valid text"
    | none, _ => .unreachable "malformed response"
  | _ => .unreachable "malformed response"

/-- A message as it is sent, from its lines and its body. -/
def bytesOf (lines : List String) (body : ByteArray) : ByteArray :=
  let all := lines
    ++ ["Content-Length: " ++ Text.decimal body.size, "Connection: close", "", ""]
  ("\r\n".intercalate all).toUTF8 ++ body

/-- The name of a status. -/
def statusName : Nat → String
  | 200 => "OK"
  | 400 => "Bad Request"
  | 404 => "Not Found"
  | 405 => "Method Not Allowed"
  | _ => "Other"

/-- An answer as it is sent. -/
def responseBytes (r : HttpResponse) : ByteArray :=
  bytesOf ["HTTP/1.1 " ++ Text.decimal r.status ++ " " ++ statusName r.status,
    "Content-Type: " ++ r.contentType] r.body.toUTF8

/-- Where a URL leads. -/
structure Target where
  host : String
  portNumber : Nat
  path : String
  deriving DecidableEq, Repr

/-- Where a URL leads. The number after the host is 80 if it is left out. -/
def Target.ofUrl? (url : String) : Option Target :=
  let scheme := "http://".toList
  if !scheme.isPrefixOf url.toList then none
  else
    let rest := url.toList.drop scheme.length
    let place := rest.takeWhile (· ≠ '/')
    let path := rest.dropWhile (· ≠ '/')
    let host := String.ofList (place.takeWhile (· ≠ ':'))
    let portNumber := match place.dropWhile (· ≠ ':') with
      | [] => some 80
      | _ :: digits => (String.ofList digits).toNat?
    portNumber.map fun n => ⟨host, n, if path.isEmpty then "/" else String.ofList path⟩

/-- A request as it is sent to where its URL leads. -/
def callBytes (target : Target) (call : Client.Call) : ByteArray :=
  let body := (call.body.map Json.compact).getD ""
  bytesOf [call.method.text ++ " " ++ target.path ++ " HTTP/1.1", "Host: " ++ target.host,
    "Content-Type: application/json"] body.toUTF8

end ControlRig.Http
