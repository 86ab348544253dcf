import ControlRig.Client.Report
import ControlRig.Daemon.Start
import ControlRig.Http.Message
import ControlRig.Server.Serving
import Std.Async.DNS
import Std.Async.Signal
import Std.Async.TCP
import Std.Async.Timer
import Std.Sync.Mutex

/-!
# The programs

Two programs in one: called by the name of the daemon it is the daemon, by any other name it is the
client. All that is done here is to carry things between the library and the world: bytes over
connections, lines to the log, time that passes.
-/

namespace ControlRig.Main

open Std.Async Std.Net

/-! ## The world of a daemon -/

/-- Everything that procedures act upon. -/
structure World where
  registry : IO.Ref SimRegistry
  params : IO.Ref ParamTree
  memory : IO.Ref ManagerState
  crashed : IO.Ref Bool
  numbers : IO.Ref Nat
  exit : IO.Ref Bool
  lock : Std.BaseMutex
  /-- The moment of the wall clock at which the steady clock was zero, in nanoseconds. -/
  epoch : Nat
  /-- Whether anything is logged. -/
  logs : Bool

namespace World

/-- A world that holds what a daemon is made of. -/
def make (parts : Daemon.Parts) : IO World := do
  let wall ← Std.Time.Timestamp.now
  return {
    registry := ← IO.mkRef parts.registry
    params := ← IO.mkRef parts.params
    memory := ← IO.mkRef (.fresh .empty)
    crashed := ← IO.mkRef false
    numbers := ← IO.mkRef 0
    exit := ← IO.mkRef false
    lock := ← Std.BaseMutex.new
    epoch := wall.toNanosecondsSinceUnixEpoch.val.toNat - (← IO.monoNanosNow)
    logs := (← IO.getEnv "RIGCONF_LOG") ≠ some "off" }

/-- The moment it is. -/
def now (w : World) : IO Instant := return ⟨w.epoch + (← IO.monoNanosNow)⟩

/-- The name of a level in the log. -/
def levelName : Level → String
  | .info => "INFO"
  | .warn => "WARN"
  | .error => "ERROR"

/-- Write a line of the log. -/
def log (w : World) (level : Level) (message : String) : IO Unit := do
  if w.logs then
    let time := (Timestamp.ofInstant (← w.now)).text
    (← IO.getStdout).putStrLn (time ++ " " ++ levelName level ++ " " ++ message)
    (← IO.getStdout).flush

/-- Wait, to the next whole millisecond. -/
def sleep (d : Duration) : IO Unit := IO.sleep ((d.nanos + 999999) / 1000000).toUInt32

/-- Have the registry do something. -/
def call (w : World) (operation : Operation) (limit : Duration) : IO Operation.Answer := do
  let entered ← w.registry.modifyGet fun r => ((r.enterNotices operation, r.wait limit),
    r.enter operation)
  for notice in entered.1 do w.log .warn notice
  sleep entered.2
  let now ← w.now
  let (answer, notices) ← w.registry.modifyGet fun r =>
    let p := r.perform now limit operation
    ((p.answer, p.notices), p.registry.leave)
  for notice in notices do w.log .warn notice
  return answer

/-- Publish a text. -/
def publish (w : World) (key text : String) : IO Unit := do
  let warnings ← w.params.modifyGet fun tree =>
    let (tree, warnings) := tree.publish key text
    (warnings, tree)
  for warning in warnings do w.log .warn warning

/-- Do what a procedure asks for. -/
def answer (w : World) : (action : Action) → IO action.Answer
  | .call operation limit => w.call operation limit
  | .readState resource => do return (← w.registry.get).stateAt (← w.now) resource
  | .hasEntry key => do return (← w.params.get).hasEntry key
  | .definitions key => do return (← w.params.get).get? key
  | .publish key text => w.publish key text
  | .log level message => w.log level message
  | .now => w.now
  | .sleep d => sleep d
  | .nextNumber => w.numbers.modifyGet fun n => (n + 1, n + 1)
  | .lock => do
    w.lock.lock
    return ⟨← w.memory.get, ← w.crashed.get⟩
  | .save state => w.memory.set state
  | .unlock crashed => do
    if crashed then w.crashed.set true
    w.lock.unlock
  | .exitRequested => w.exit.get

end World

/-- Carry out a procedure. -/
def carryOut {α : Type} (w : World) : Procedure α → IO (Option α)
  | .done a => return some a
  | .crash => return none
  | .ask action next => do carryOut w (next (some (← w.answer action)))

/-! ## Connections -/

/-- How many bytes are received at once. -/
def chunk : UInt64 := 65536

/-- Receive a message. -/
partial def receive (socket : TCP.Socket.Client) (untilClosed : Bool) (sofar : List UInt8) :
    Async (Option Http.Message) := do
  let part ← socket.recv? chunk
  let bytes := sofar ++ (part.map (·.toList)).getD []
  match Http.Reading.ofBytes untilClosed part.isNone bytes with
  | .message message => return some message
  | .more => receive socket untilClosed bytes
  | .broken => return none

/-- The first address of a host. -/
def addressOf (host : String) : Async (Option IPAddr) :=
  return (← DNS.getAddrInfo host "").find? fun
    | .v4 _ => true
    | .v6 _ => false

/-- An address and the number at it. -/
def socketAddress (portNumber : Nat) : IPAddr → SocketAddress
  | .v4 addr => .v4 ⟨addr, portNumber.toUInt16⟩
  | .v6 addr => .v6 ⟨addr, portNumber.toUInt16⟩

/-! ## The client -/

/-- Carry a request to its URL, and its answer back. -/
def exchange (call : Client.Call) : Async Client.Answer := do
  match Http.Target.ofUrl? call.url with
  | none => return .unreachable "unsupported URL"
  | some target =>
    match ← addressOf target.host with
    | none => return .unreachable "unknown host"
    | some addr =>
      let socket ← TCP.Socket.Client.mk
      socket.connect (socketAddress target.portNumber addr)
      socket.send (Http.callBytes target call)
      match ← receive socket true [] with
      | some message => return message.answer
      | none => return .unreachable "connection closed"

/-- Give up after so many seconds. -/
def giveUp (seconds : Nat) : Async Client.Answer := do
  Std.Async.sleep (Std.Time.Millisecond.Offset.ofNat (1000 * seconds))
  return .unreachable "timed out"

/-- Carry a request to its URL, or give up after so many seconds; what goes wrong on the way is told
as an answer. -/
def send (seconds : Nat) (call : Client.Call) : IO Client.Answer := do
  try (Async.race (exchange call) (giveUp seconds)).block
  catch e => return .unreachable (toString e)

/-- Run the client. -/
def runClient (words : List String) : IO UInt32 := do
  let report ← Client.run send words
  (← IO.getStdout).putStr report.out
  (← IO.getStderr).putStr report.err
  return report.code.toUInt32

/-! ## The daemon -/

/-- Answer the request on a connection. -/
def serveConnection (w : World) (m : Manager) (socket : TCP.Socket.Client) : IO Unit := do
  try
    match ← (receive socket false []).block with
    | none => return ()
    | some message =>
      match message.request? with
      | none => return ()
      | some request =>
        match ← carryOut w (Server.answer m request) with
        | none => return ()
        | some response =>
          (socket.send (Http.responseBytes (response.sentFor request.method))).block
          (socket.shutdown).block
  catch _ => return ()

/-- Run the monitor until it has ended. -/
partial def runMonitor (w : World) (m : Manager) (phase : MonitorPhase) :
    IO (Option (Except ManagerError Unit)) := do
  match ← carryOut w (m.monitorStep phase) with
  | none => return none
  | some (.over outcome) =>
    discard (carryOut w (Manager.reportEnd outcome))
    return some outcome
  | some phase => runMonitor w m phase

/-- Accept requests until the end is requested or the monitor has ended. -/
partial def accept (w : World) (m : Manager) (server : TCP.Socket.Server)
    (isOver : IO Bool) (underway : List (Task (Except IO.Error Unit))) :
    IO (List (Task (Except IO.Error Unit))) := do
  if ← isOver then return underway
  match ← server.tryAccept with
  | some socket =>
    let task ← IO.asTask (serveConnection w m socket) Task.Priority.dedicated
    accept w m server isOver (task :: underway)
  | none =>
    IO.sleep 10
    accept w m server isOver underway

/-- Serve a manager until the end is requested or its monitor ends. -/
def serve (w : World) (m : Manager) (server : TCP.Socket.Server) :
    IO (Except ServerError Unit) := do
  let interrupt ← (← Signal.Waiter.mk .sigint false).wait
  let terminate ← (← Signal.Waiter.mk .sigterm false).wait
  let monitor ← IO.asTask (runMonitor w m .starting) Task.Priority.dedicated
  let asked : IO Bool :=
    return (← IO.hasFinished interrupt) || (← IO.hasFinished terminate)
  let underway ← accept w m server (return (← asked) || (← IO.hasFinished monitor)) []
  if ← asked then
    (← IO.getStderr).putStrLn "\nshutdown requested, stopping the running configuration..."
  w.log .info "no longer accepting requests"
  for task in underway do discard (IO.wait task)
  w.exit.set true
  let outcome ← IO.ofExcept (← IO.wait monitor)
  discard (carryOut w m.drop)
  return Server.ending outcome

/-- Listen on an address. -/
def listen (i : Daemon.Invocation) : IO (Except ServerError TCP.Socket.Server) := do
  let place := i.bind ++ ":" ++ toString i.portNumber
  try
    match ← (addressOf i.bind).block with
    | none => return .error (.bind place "unknown host")
    | some addr =>
      let server ← TCP.Socket.Server.mk
      server.bind (socketAddress i.portNumber addr)
      server.listen 128
      return .ok server
  catch e => return .error (.bind place (toString e))

/-- The text of a file, if it can be read. -/
def fileText (path : String) : IO (Option String) := do
  try return some (← IO.FS.readFile path)
  catch _ => return none

/-- Run a daemon to its end. -/
def runParts (i : Daemon.Invocation) (parts : Daemon.Parts) : IO (Except ServerError Unit) := do
  let w ← World.make parts
  match ← carryOut w parts.manager.make with
  | none => return .error .monitorCrashed
  | some (.error e) => return .error (.manager e)
  | some (.ok state) =>
    w.memory.set state
    match ← listen i with
    | .error e =>
      discard (carryOut w parts.manager.drop)
      return .error e
    | .ok server => serve w parts.manager server

/-- Run the daemon. -/
def runDaemon (words : List String) : IO UInt32 := do
  match Daemon.Invocation.ofWords words with
  | .error _ =>
    (← IO.getStderr).putStrLn ("usage: rigconfd --params FILE [--config FILE] [--port PORT] "
      ++ "[--bind ADDRESS] [--registry NAME]")
    return 2
  | .ok i =>
    let config ← match i.config with
      | some path => fileText path
      | none => pure none
    let params ← fileText i.params
    let file (path : String) : Option String := if path = i.params then params else config
    let outcome ← match Daemon.gather file i with
      | .error e => pure (.error e)
      | .ok parts => runParts i parts
    match outcome with
    | .ok () => return 0
    | .error e =>
      (← IO.getStderr).putStrLn ("error: " ++ e.message)
      return e.exitCode.toUInt32

end ControlRig.Main

/-- Run the program that is called. -/
def main (words : List String) : IO UInt32 := do
  if (← IO.appPath).fileStem = some "rigconfd" then ControlRig.Main.runDaemon words
  else ControlRig.Main.runClient words
