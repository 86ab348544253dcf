import ControlRig.Rig.Crew
import ControlRig.Server.Http
import ControlRig.Server.Shutdown

/-!
# Requests, the monitor and the end, side by side

A daemon at work has a line of action for every request that it has accepted, one for the monitor,
and one that brings about the end. They take turns in any order (`Serving.step?`). The end goes
through its stages whenever the next one is due (`Serving.advance`): once it is requested, or the
monitor has ended, no more requests are accepted; once all requests are answered the monitor is told
to end; once it has, the manager goes.

The lines of requests are those after the first, which is the monitor's; the manager goes on a line
that is added last.
-/

namespace ControlRig.Server

/-- What a line of a daemon comes to. -/
inductive LineEnd where
  | response (response : HttpResponse)
  /-- The monitor has come to a phase. -/
  | monitor (phase : MonitorPhase)
  /-- The manager is gone. -/
  | gone

/-- How far the end of a daemon has come. -/
inductive EndStage where
  /-- Nothing points to the end. -/
  | serving
  /-- No more requests are to be accepted, but the last ones may just be. -/
  | closing
  /-- Requests that have been accepted are being answered. -/
  | draining
  /-- The monitor is to end. -/
  | stopping
  /-- The manager goes. -/
  | leaving
  | ended (outcome : Except ServerError Unit)

/-- A daemon at work. -/
structure Serving where
  manager : Manager
  crew : Crew LineEnd
  /-- How many requests have been accepted. -/
  accepted : Nat
  stage : EndStage
  /-- Whether somebody has asked for the end. -/
  endRequested : Bool

namespace Serving

/-- The monitor goes on to the next phase, and reports an error with which it ends. -/
def monitorLine (m : Manager) (phase : MonitorPhase) : Procedure LineEnd := do
  match ← m.monitorStep phase with
  | .over outcome =>
    Manager.reportEnd outcome
    return .monitor (.over outcome)
  | phase => return .monitor phase

/-- The line that answers a request. -/
def requestLine (m : Manager) (request : HttpRequest) : Procedure LineEnd :=
  return .response (← Server.answer m request)

/-- The line on which the manager goes. -/
def leavingLine (m : Manager) : Procedure LineEnd := do
  m.drop
  return .gone

/-- A daemon that begins its work. -/
def start (m : Manager) (rig : Rig) : Serving :=
  ⟨m, .start { rig with exit := .never } [monitorLine m .starting], 0, .serving, false⟩

/-- The outcome of the monitor if it has ended, which is none if it has crashed. -/
def monitorOutcome? (s : Serving) : Option (Option (Except ManagerError Unit)) :=
  match s.crew.lines.head? with
  | some (.ready (.done (.monitor (.over outcome)))) => some (some outcome)
  | some (.ready .crash) => some none
  | _ => none

/-- Whether all requests that have been accepted have been answered. -/
def isDrained (s : Serving) : Bool := ((s.crew.lines.drop 1).take s.accepted).all Line.isOver

/-- The end comes one stage closer, if the next stage is due. -/
def advance (s : Serving) : Option Serving :=
  match s.stage with
  | .serving =>
    if s.endRequested || s.monitorOutcome?.isSome then
      some { s with
        stage := .closing
        crew := { s.crew with rig := s.crew.rig.note .info "no longer accepting requests" } }
    else none
  | .closing => some { s with stage := .draining }
  | .draining =>
    if s.isDrained then
      some { s with
        stage := .stopping
        crew := { s.crew with rig := { s.crew.rig with exit := .now } } }
    else none
  | .stopping =>
    if s.monitorOutcome?.isSome then
      some { s with
        stage := .leaving
        crew := { s.crew with lines := s.crew.lines ++ [.ready (leavingLine s.manager)] } }
    else none
  | .leaving =>
    match s.monitorOutcome?, s.crew.lines.getLast? with
    | some outcome, some line =>
      if line.isOver then some { s with stage := .ended (ending outcome) } else none
    | _, _ => none
  | .ended _ => none

/-- A request is accepted, while requests are. -/
def accept (s : Serving) (request : HttpRequest) : Option Serving :=
  match s.stage with
  | .serving | .closing =>
    some { s with
      accepted := s.accepted + 1
      crew := { s.crew with
        lines := s.crew.lines ++ [.ready (requestLine s.manager request)] } }
  | _ => none

/-- A turn of a line. The monitor goes on to its next phase when it has come to one. -/
def turn (s : Serving) (line : Nat) : Option Serving :=
  match s.crew.lines[line]? with
  | some (.ready (.done (.monitor (.over _)))) => none
  | some (.ready (.done (.monitor phase))) =>
    some { s with crew := s.crew.goOn line s.crew.rig (.ready (monitorLine s.manager phase)) }
  | _ => (s.crew.turn line).map fun crew => { s with crew := crew }

/-- Something that happens to a daemon at work. -/
inductive Event where
  | request (request : HttpRequest)
  /-- Somebody asks for the end. -/
  | requestEnd
  | turn (line : Nat)
  | advance
  | elapse (d : Duration)

/-- The daemon after an event, if the event can happen. -/
def step? (s : Serving) : Event → Option Serving
  | .request request => s.accept request
  | .requestEnd => some { s with endRequested := true }
  | .turn line => s.turn line
  | .advance => s.advance
  | .elapse d => some { s with crew := { s.crew with rig := s.crew.rig.elapse d } }

/-- The daemon after several events, if all of them can happen. -/
def run? (s : Serving) : List Event → Option Serving
  | [] => some s
  | event :: rest => (s.step? event).bind (·.run? rest)

end Serving

end ControlRig.Server
