import ControlRig.Rehearsal.Step
import ControlRig.Rig.Basic
import ControlRig.Server.Shutdown

/-!
# Rehearsals

A rehearsal begins with a rig and, if one can be made, a manager on it. Its steps are performed one
after the other (`Stage.perform`), and what can be seen after each is collected (`Stage.run`).

Steps that act on the manager or carry out transitions meet the crashes that have been armed; steps
that act on the registry or the parameters directly do not.
-/

namespace ControlRig.Rehearsal

/-- Where a rehearsal stands. -/
structure Stage where
  settings : Settings
  rig : Rig
  manager : Option Manager
  /-- Whether requests over the network arrive. -/
  online : Bool

namespace Stage

/-! ## Carrying out procedures -/

/-- Carry out a procedure, and say what comes of it. -/
def carryOut {α : Type} (stage : Stage) (p : Procedure α) (tell : α → Outcome) : Outcome × Stage :=
  let (result, rig) := p.run stage.rig
  (result.elim .crashed tell, { stage with rig := rig })

/-- Have the manager do something. -/
def ask {α : Type} (stage : Stage) (p : Manager → Procedure (Except ManagerError α))
    (tell : α → Outcome) : Outcome × Stage :=
  match stage.manager with
  | none => (.noManager, stage)
  | some m => stage.carryOut (p m) fun
    | .ok a => tell a
    | .error e => .managerError e

/-- Ask the manager for something it cannot refuse. -/
def look {α : Type} (stage : Stage) (p : Manager → Procedure α) (tell : α → Outcome) :
    Outcome × Stage :=
  stage.ask (fun m => return .ok (← p m)) tell

/-! ## The monitor -/

/-- The cue of a wish for an end. -/
def cueOf (clock : Instant) : ExitWish → ExitCue
  | .now => .now
  | .afterReads count => .afterReads count
  | .after d => .atMoment (clock.after d)

/-- A number of passes in which the wish for an end is met, if it ever is: every check reads a
resource, and every look takes its time. -/
def passesFor (settings : Settings) : ExitWish → Nat
  | .now => 1
  | .afterReads count => settings.monitor.healthCheckEvery * count + 2
  | .after d => d.nanos / Rig.lookTime.nanos + 2

/-- Run the monitor until it is to end. -/
def monitor (stage : Stage) (alone : Bool) (wish : ExitWish) : Outcome × Stage :=
  match stage.manager with
  | none => (.noManager, stage)
  | some m =>
    let passes := passesFor stage.settings wish
    let p := if alone then m.monitorAlone passes else m.monitor passes
    let stage := { stage with rig := { stage.rig with exit := cueOf stage.rig.clock wish } }
    let (outcome, stage) := stage.carryOut p fun
      | none => .endless
      | some (.ok ()) => .done
      | some (.error e) => .managerError e
    (outcome, { stage with rig := { stage.rig with exit := .never } })

/-! ## Several callers -/

/-- What one of several callers is told. -/
def callerText : Option (Except ManagerError (List String)) → String
  | none => "panic"
  | some (.ok skipped) => "ok " ++ ",".intercalate skipped
  | some (.error e) => e.message

/-- Let callers start a configuration, in the order in which they get hold of the lock. -/
def startInTurn (m : Manager) (name : String) (strictness : Strictness) :
    Nat → Rig → List String × Rig
  | 0, rig => ([], rig)
  | callers + 1, rig =>
    let (result, rig) := (m.start name strictness).run rig
    let (texts, rig) := startInTurn m name strictness callers rig
    (callerText result :: texts, rig)

/-- Let several callers start a configuration. -/
def startTogether (stage : Stage) (name : String) (callers : Nat) (strictness : Strictness) :
    Outcome × Stage :=
  match stage.manager with
  | none => (.noManager, stage)
  | some m =>
    let (texts, rig) := startInTurn m name strictness callers stage.rig
    (.texts (texts.mergeSort (· ≤ ·)), { stage with rig := rig })

/-! ## The network -/

/-- Answer a request that has arrived; nothing comes back if the answer crashes. -/
def receive (m : Manager) (request : HttpRequest) (rig : Rig) : Option HttpResponse × Rig :=
  let (response, rig) := (Server.answer m request).run rig
  (response.map (·.sentFor request.method), rig)

/-- What the client receives for a call. -/
def answerCall (stage : Stage) (call : Client.Call) : StateM Rig Client.Answer := fun rig =>
  match stage.online, stage.manager with
  | true, some m =>
    let body := (call.body.map Json.compact).getD ""
    match receive m ⟨call.method.text, call.url, body.toUTF8⟩ rig with
    | (some response, rig) => (.response response.status response.body, rig)
    | (none, rig) => (.unreachable "", rig)
  | _, _ => (.unreachable "", rig)

/-- Do something over the network. -/
def exchange (stage : Stage) : Exchange → Reply × Stage
  | .http request =>
    match stage.online, stage.manager with
    | true, some m =>
      let (response, rig) := receive m request stage.rig
      (response.elim .nothing .response, { stage with rig := rig })
    | _, _ => (.nothing, stage)
  | .client words =>
    match Client.Invocation.ofWords words with
    | .error .usage => (.usage, stage)
    | _ =>
      let (report, rig) := Client.run (fun _ => stage.answerCall) words stage.rig
      (.report report, { stage with rig := rig })

/-- Do several things over the network. -/
def exchanges (stage : Stage) : List Exchange → List Reply × Stage
  | [] => ([], stage)
  | e :: rest =>
    let (reply, stage) := stage.exchange e
    let (replies, stage) := exchanges stage rest
    (reply :: replies, stage)

/-- How long a daemon is served after everything has been done, when its end is requested then. -/
def servingTime : Duration := .ofMillis 50

/-- How many checks of the monitor are waited for, when its end is not requested. -/
def awaitedChecks : Nat := 64

/-- Serve the manager to its end. -/
def serve (stage : Stage) (during : List Exchange) (endless : Bool) : Outcome × Stage :=
  match stage.manager with
  | none => (.noManager, stage)
  | some m =>
    let (replies, stage) := stage.exchanges during
    let wish := .after servingTime
    let exit := if endless then ExitCue.never else cueOf stage.rig.clock wish
    let passes :=
      if endless then stage.settings.monitor.healthCheckEvery * awaitedChecks
      else passesFor stage.settings wish
    let stage := { stage with rig := { stage.rig with exit := exit }, manager := none }
    let (outcome, stage) := stage.carryOut (Server.serve m passes) fun
      | none => .endless
      | some ending => .served replies ending
    (outcome, { stage with rig := { stage.rig with exit := .never } })

/-! ## Beside the manager -/

/-- Move from one configuration to another without a manager. -/
def transition (stage : Stage) (active target : Except CatalogError (Option Configuration))
    (strictness : Strictness) (limit : Duration) : Outcome × Stage :=
  match active, target with
  | .error e, _ | .ok _, .error e => (.catalogError e, stage)
  | .ok active, .ok target =>
    stage.carryOut
      (Transition.run stage.settings.transitionOptions active target strictness limit) fun
        | .ok record => .record record
        | .error e => .managerError e

/-- The outcome of a single call to the registry. -/
def callOutcome (operation : Operation) : Operation.Answer → Outcome
  | .error e => .registryError e
  | .ok names =>
    match operation with
    | .listLoaded | .startControllers .. => .names names
    | .load _ | .unload _ | .purge | .stopControllers _ => .done

/-- A single call to the registry. -/
def call (stage : Stage) (operation : Except CatalogError Operation) (limit : Duration) :
    Outcome × Stage :=
  match operation with
  | .error e => (.catalogError e, stage)
  | .ok operation =>
    let (answer, rig) := stage.rig.call operation limit
    (callOutcome operation answer, { stage with rig := rig })

/-- Two listings, the second of which enters while the first waits. -/
def overlap (stage : Stage) (limit : Duration) : Outcome × Stage :=
  let first := stage.rig.registry.enter .listLoaded
  let second := first.enter .listLoaded
  let rig := stage.rig.elapse (second.wait limit)
  let p := second.perform rig.clock limit .listLoaded
  let q := p.registry.leave.perform rig.clock limit .listLoaded
  (.overlap p.answer.toBool q.answer.toBool, { stage with rig := { rig with
    registry := q.registry.leave
    log := rig.log ++ (first.enterNotices .listLoaded).map ((.warn, ·)) } })

/-- A single access to the parameters. -/
def access (stage : Stage) (access : Param.Access) : Outcome × Stage :=
  let (finding, params, warnings) := access.perform stage.rig.params
  (.found finding, { stage with rig := { stage.rig with
    params := params
    log := stage.rig.log ++ warnings.map ((.warn, ·)) } })

/-- Change the registry behind the callers' backs. -/
def changeRegistry (rig : Rig) (f : SimRegistry → SimRegistry) : Rig :=
  { rig with registry := f rig.registry }

/-- The rig after a change. -/
def change (rig : Rig) : Change → Rig
  | .failLoad resource => changeRegistry rig (·.failLoad resource)
  | .stall resource => changeRegistry rig (·.stall resource)
  | .insertLoaded resource => changeRegistry rig (·.insertLoaded rig.clock resource)
  | .forget resource => changeRegistry rig (·.forget resource)
  | .failController resource id => changeRegistry rig (·.failController resource id)
  | .failList on => changeRegistry rig (·.failList on)
  | .failStop on => changeRegistry rig (·.failStop on)
  | .failUnload on => changeRegistry rig (·.failUnload on)
  | .forceState resource state => changeRegistry rig (·.forceState resource state)
  | .arm cue => { rig with armed := rig.armed.insert cue }
  | .elapse d => rig.elapse d

/-! ## Steps -/

/-- Let the manager go. -/
def drop (stage : Stage) : Outcome × Stage :=
  match stage.manager with
  | none => (.noManager, stage)
  | some m => { stage with manager := none }.carryOut m.drop fun () => .done

/-- Perform a step. -/
def perform (stage : Stage) : Step → Outcome × Stage
  | .start name strictness => stage.ask (·.start name strictness) .names
  | .stop strictness => stage.ask (·.stop strictness) fun () => .done
  | .refresh => stage.ask (·.refresh) fun () => .done
  | .list => stage.ask (·.list) .configurations
  | .status =>
    stage.look (fun m => do
      let status ← m.status
      return (← m.activeName, status.registry)) fun (active, registry) => .status active registry
  | .checkHealth => stage.ask (·.checkHealth) .flag
  | .drop => stage.drop
  | .monitor alone exit => stage.monitor alone exit
  | .startTogether name callers strictness => stage.startTogether name callers strictness
  | .request (.error fault) => (.undecodable fault, stage)
  | .request (.ok request) => stage.look (Service.handle · request) .request
  | .exchange e =>
    let (reply, stage) := stage.exchange e
    (.exchange reply, stage)
  | .serve during endless => stage.serve during endless
  | .transition active target strictness limit => stage.transition active target strictness limit
  | .teardown limit => stage.carryOut (Transition.teardown limit) fun
    | .ok names => .names names
    | .error e => .managerError e
  | .call operation limit => stage.call operation limit
  | .readState resource => (.state (stage.rig.stateOf resource), stage)
  | .overlap limit => stage.overlap limit
  | .access access => stage.access access
  | .change c => (.done, { stage with rig := change stage.rig c })

/-! ## What can be seen -/

/-- The view of a manager that remembers this. -/
def viewOf (s : ManagerState) : ManagerView :=
  ⟨s.activeName, s.transitions, s.catalog.size, s.lastTransitionAt.isSome⟩

/-- What can be seen after a step that began with the given rig. -/
def snapshot (before : Rig) (outcome : Outcome) (stage : Stage) : Snapshot where
  outcome := outcome
  calls := stage.rig.registry.calls.drop before.registry.calls.length
  loaded := stage.rig.registry.held.entries.map fun (resource, held) =>
    (resource, stage.rig.stateOf resource, held.controllers)
  published := stage.rig.params.text? stage.settings.statusKey
  manager := stage.manager.map fun _ => viewOf stage.rig.memory
  log := stage.rig.log.drop before.log.length

/-- Perform steps one after the other, and look after each. -/
def run (stage : Stage) : List Step → List Snapshot × Stage
  | [] => ([], stage)
  | step :: rest =>
    let (outcome, after) := stage.perform step
    let (snapshots, last) := run after rest
    (snapshot stage.rig outcome after :: snapshots, last)

/-- Make a manager on the rig, if the settings and the parameters allow it. -/
def withManager (stage : Stage) : Outcome × Stage :=
  let m : Manager := ⟨stage.settings, SimRegistry.name⟩
  match m.make.run stage.rig with
  | (none, rig) => (.crashed, { stage with rig := rig })
  | (some (.error e), rig) => (.managerError e, { stage with rig := rig })
  | (some (.ok state), rig) =>
    (.done, { stage with rig := { rig with memory := state }, manager := some m })

end Stage

end ControlRig.Rehearsal
