import ControlRig.Client.Exchange
import ControlRig.Json.Writer

/-!
# What the client tells

The client prints what the daemon answered, for a reader or as JSON, and ends with an exit code: 0
if the order was carried out, 2 if the daemon did not answer, and 1 otherwise. Errors go to a
channel of their own. Progress of a start or a stop is shown on a terminal only, so for a reader
of the printed text those two are silent when all is well.
-/

namespace ControlRig.Client

/-- The output of the client and its exit code. -/
structure Report where
  code : Nat
  out : String
  err : String
  deriving DecidableEq, Repr

/-- The version of the client. -/
def version : String := "0.1.0"

/-- A text with blanks after it, to fill a column. -/
def padded (width : Nat) (text : String) : String :=
  text ++ String.ofList (List.replicate (width - text.toList.length) ' ')

/-- The line of a component. -/
def componentText (c : ComponentSummary) : String :=
  if c.controllers.isEmpty then c.hardwareInterface
  else c.hardwareInterface ++ "[" ++ ",".intercalate c.controllers ++ "]"

/-- A line of the listing. -/
def row (name state components : String) : String :=
  padded 20 name ++ " " ++ padded 10 state ++ " " ++ components ++ "\n"

/-- The listing for a reader. -/
def listText (configurations : List ConfigurationSummary) : String :=
  if configurations.isEmpty then "no configurations defined\n"
  else
    String.join (row "NAME" "STATE" "COMPONENTS" :: configurations.map fun c =>
      row c.name c.state.text (" ".intercalate (c.components.map componentText)))

/-- The status for a reader. -/
def statusText (s : StatusReport) : String :=
  "active:         " ++ s.active.getD "none" ++ "\n"
    ++ "registry:       " ++ s.registry ++ "\n"
    ++ "configurations: " ++ Text.decimal s.configurations ++ "\n"
    ++ "transitions:    " ++ Text.decimal s.transitions ++ "\n"
    ++ s.lastTransitionAt.elim "" fun moment => "last change:    " ++ moment.offsetText ++ "\n"

/-- What is printed, and whether the order was carried out. -/
structure Printed where
  text : String
  success : Bool
  deriving DecidableEq, Repr

/-- The outcome of an order that is acknowledged. The reader is told `done`, unless that has been
shown as progress. -/
def reportAck (json : Bool) (done : Option String) (ack : Ack) : Except String Printed :=
  if json then .ok ⟨ack.json.pretty ++ "\n", ack.ok⟩
  else if ack.ok then
    let note := ack.message.elim "" fun text => " (" ++ text ++ ")"
    .ok ⟨done.elim "" fun done => done ++ note ++ "\n", true⟩
  else .error (ack.message.getD "request failed")

/-- The outcome of a listing. -/
def reportList (json : Bool) (list : ConfigurationList) : Except String Printed :=
  if !list.ok then .error (list.message.getD "listing configurations failed")
  else if json then
    .ok ⟨(Json.array (list.configurations.map ConfigurationSummary.json)).pretty ++ "\n", true⟩
  else .ok ⟨listText list.configurations, true⟩

/-- The outcome of a question for the status. -/
def reportStatus (json : Bool) (status : StatusReport) : Printed :=
  ⟨if json then status.json.pretty ++ "\n" else statusText status, true⟩

/-- The outcome of an order. -/
def outcome (i : Invocation) (answer : Answer) : Except String Printed :=
  let path := i.order.route.path
  match i.order with
  | .start .. | .stop _ => do reportAck i.json none (← answer.record Ack.shape i.url path)
  | .update => do
    reportAck i.json (some "configuration catalog reloaded")
      (← answer.record Ack.shape i.url path)
  | .list => do
    reportList i.json (← answer.record (ConfigurationList.shape .refused) i.url path)
  | .status => do return reportStatus i.json (← answer.record StatusReport.shape i.url path)

/-- The exit code of an error. -/
def errorCode (message : String) : Nat :=
  if unreachableText.toList.isPrefixOf message.toList then 2 else 1

/-- What the client tells in the end. -/
def report (i : Invocation) (answer : Answer) : Report :=
  match outcome i answer with
  | .ok printed => ⟨if printed.success then 0 else 1, printed.text, ""⟩
  | .error message => ⟨errorCode message, "", "error: " ++ message ++ "\n"⟩

/-- How the client is used. -/
def usage : String :=
  "usage: rigconf [--url URL] [--timeout SECONDS] [--json] [--verbose] "
    ++ "(start NAME [--strict] | stop [--strict] | list | update | status)\n"

/-- What the client tells when the words are not acted upon. -/
def reportStop : CommandLine.Stop → Report
  | .question "version" => ⟨0, "rigconf " ++ version ++ "\n", ""⟩
  | .question _ => ⟨0, usage, ""⟩
  | .usage => ⟨2, "", usage⟩

/-- A run of the client with the given words, where `send` carries a request to its URL and gives up
after so many seconds. -/
def run {m : Type → Type} [Monad m] (send : Nat → Call → m Answer) (words : List String) :
    m Report :=
  match Invocation.ofWords words with
  | .error stop => return reportStop stop
  | .ok i => return report i (← send i.timeoutSecs (i.order.request i.url))

end ControlRig.Client
