import ControlRig.Client.Report
import ControlRig.Param.Access
import ControlRig.Server.Http
import ControlRig.Server.Error
import ControlRig.Registry.Simulated

/-!
# The steps of a rehearsal

A rehearsal takes a rig through a sequence of steps: requests to the manager, single calls to the
registry, accesses to the parameters, and faults that are injected in between. What comes of each
step is an `Outcome`; what can be seen of the rig afterwards is a `Snapshot`.
-/

namespace ControlRig.Rehearsal

/-- Something done over the network. -/
inductive Exchange where
  | http (request : HttpRequest)
  /-- A run of the client with the given words. -/
  | client (words : List String)

/-- What comes of something done over the network. -/
inductive Reply where
  /-- Nothing came back. -/
  | nothing
  | response (response : HttpResponse)
  | report (report : Client.Report)
  /-- The words for the client were not understood. -/
  | usage
  deriving DecidableEq, Repr

/-- When a monitor is to end. -/
inductive ExitWish where
  | now
  /-- While the so-many-th resource is read. -/
  | afterReads (count : Nat)
  | after (d : Duration)
  deriving DecidableEq, Repr

/-- A change to the rig that nobody has asked the manager for. -/
inductive Change where
  | failLoad (resource : String)
  | stall (resource : String)
  | insertLoaded (resource : String)
  | forget (resource : String)
  | failController (resource id : String)
  | failList (on : Bool)
  | failStop (on : Bool)
  | failUnload (on : Bool)
  | forceState (resource : String) (state : ResourceState)
  /-- Let a collaborator crash when it is used next. -/
  | arm (cue : String)
  /-- Let time pass. -/
  | elapse (d : Duration)
  deriving DecidableEq, Repr

/-- A step of a rehearsal. What is given to a step may be faulty, and then that is all there is to
it. -/
inductive Step where
  | start (name : String) (strictness : Strictness)
  | stop (strictness : Strictness)
  | refresh
  | list
  | status
  | checkHealth
  /-- The manager goes. -/
  | drop
  /-- Run the monitor, maybe on a line of its own. -/
  | monitor (alone : Bool) (exit : ExitWish)
  /-- Have several callers start the same configuration. -/
  | startTogether (name : String) (callers : Nat) (strictness : Strictness)
  | request (request : Except Decode.Fault Request)
  | exchange (exchange : Exchange)
  /-- Serve the manager until its end is requested, or until its monitor ends. -/
  | serve (during : List Exchange) (endless : Bool)
  | transition (active target : Except CatalogError (Option Configuration))
      (strictness : Strictness) (limit : Duration)
  | teardown (limit : Duration)
  | call (operation : Except CatalogError Operation) (limit : Duration)
  | readState (resource : String)
  /-- Two listings, the second of which begins before the first ends. -/
  | overlap (limit : Duration)
  | access (access : Param.Access)
  | change (change : Change)

/-- What comes of a step. -/
inductive Outcome where
  | done
  | names (names : List String)
  | configurations (configurations : List Configuration)
  | status (active : Option String) (registry : String)
  | flag (flag : Bool)
  /-- The outcomes of several callers, as texts. -/
  | texts (texts : List String)
  | request (reply : ControlRig.Reply)
  | exchange (reply : Reply)
  | served (replies : List Reply) (ending : Except ServerError Unit)
  | record (record : TransitionRecord)
  | state (state : ResourceState)
  | overlap (first second : Bool)
  | found (finding : Param.Finding)
  | managerError (error : ManagerError)
  | registryError (error : RegistryError)
  | catalogError (error : CatalogError)
  | undecodable (fault : Decode.Fault)
  /-- A collaborator crashed. -/
  | crashed
  /-- There is no manager to ask. -/
  | noManager
  /-- The step does not come to an end. -/
  | endless

/-- What can be seen of a manager. -/
structure ManagerView where
  active : Option String
  transitions : Nat
  configurations : Nat
  /-- Whether there is a moment of a last transition. -/
  dated : Bool
  deriving DecidableEq, Repr

/-- What can be seen after a step. -/
structure Snapshot where
  outcome : Outcome
  /-- The calls to the registry during the step. -/
  calls : List Call
  /-- The loaded resources, with their states and the controllers that run on them. -/
  loaded : List (String × ResourceState × List String)
  /-- The published text. -/
  published : Option String
  manager : Option ManagerView
  /-- What was logged during the step. -/
  log : List (Level × String)

end ControlRig.Rehearsal
