import ControlRig.Registry.Operation

/-!
# A simulated registry

A registry without hardware, for rehearsals. Resources report `loading` until they have had their
time to initialize, then `initialized`, and `running` once a controller runs on them. Faults can be
injected, the contents can be changed behind the callers' backs, and every call is recorded.

A call has three steps. It enters: the call is recorded, and if another one has not ended it counts
as overlapping (`enter`). It takes its time (`wait`). It has its effect and answers (`perform`), and
ends (`leave`). Callers are expected to let one call end before the next enters; the registry only
notes whether they did.
-/

namespace ControlRig

/-- A resource that is loaded. -/
structure Held where
  loadedAt : Instant
  /-- The state to report instead of the true one. -/
  forced : Option ResourceState
  /-- The controllers that run, in the order in which they were started. -/
  controllers : List String
  deriving DecidableEq, Repr

/-- A resource as it is right after loading. -/
def Held.fresh (now : Instant) : Held := ⟨now, none, []⟩

/-- The faults that are injected at the moment. -/
structure Faults where
  /-- Resources that refuse to load. -/
  loads : NameSet
  /-- Resources that stay in `loading` for ever. -/
  stalls : NameSet
  /-- Controllers that fail to start, each with its resource before a slash. -/
  controllers : NameSet
  list : Bool
  stop : Bool
  unload : Bool
  deriving DecidableEq, Repr

/-- No fault at all. -/
def Faults.none : Faults := ⟨∅, ∅, ∅, false, false, false⟩

/-- A registry without hardware. -/
structure SimRegistry where
  held : SortedMap Held
  faults : Faults
  /-- Every call so far, oldest first. -/
  calls : List Call
  /-- The time a resource takes to initialize. -/
  initDelay : Duration
  /-- The time a call takes. -/
  latency : Duration
  /-- Whether a call has entered and not ended, as far as the registry can tell. -/
  busy : Bool
  /-- Whether calls have overlapped. -/
  reentrant : Bool
  deriving DecidableEq, Repr

/-- What becomes of a call: the answer, the registry afterwards, and what it has to say on the way.
-/
structure Performance where
  answer : Operation.Answer
  registry : SimRegistry
  notices : List String

namespace SimRegistry

/-- The name by which the registry is selected and shown. -/
def name : String := "sim"

/-- An empty registry of the given delays. -/
def fresh (initDelay latency : Duration) : SimRegistry :=
  ⟨∅, .none, [], initDelay, latency, false, false⟩

/-- The names of the loaded resources. -/
def loaded (r : SimRegistry) : NameSet := r.held.keySet

/-- The controllers that run on a resource. -/
def running (r : SimRegistry) (resource : String) : List String :=
  ((r.held.find? resource).map (·.controllers)).getD []

/-- The state that a resource reports. One that is not loaded reads as failed. -/
def stateAt (r : SimRegistry) (now : Instant) (resource : String) : ResourceState :=
  match r.held.find? resource with
  | none => .error
  | some held =>
    match held.forced with
    | some state => state
    | none =>
      if resource ∈ r.faults.stalls || now.since held.loadedAt < r.initDelay then .loading
      else if held.controllers.isEmpty then .initialized
      else .running

/-! ## Starting controllers -/

/-- The name of a controller together with its resource. -/
def controllerName (resource id : String) : String := resource ++ "/" ++ id

/-- What became of the controllers of one resource: those that run, those that were skipped, and the
one at which a strict start gave up. -/
structure Started where
  running : List String
  skipped : List String
  failed : Option String

/-- Start the declared controllers of a resource that do not run yet. -/
def startDeclared (fails : String → Bool) (strictness : Strictness) :
    List Controller → List String → Started
  | [], running => ⟨running, [], none⟩
  | c :: rest, running =>
    if running.contains c.id then startDeclared fails strictness rest running
    else if fails c.id then
      match strictness with
      | .strict => ⟨running, [], some c.id⟩
      | .bestEffort =>
        let s := startDeclared fails strictness rest running
        { s with skipped := c.id :: s.skipped }
    else startDeclared fails strictness rest (running ++ [c.id])

/-- Bring the controllers of a loaded resource in line with a configuration: those it does not
declare are stopped, those it declares are started. -/
def startOn (faults : Faults) (configuration : Configuration) (strictness : Strictness)
    (resource : String) (running : List String) : Started :=
  let declared := configuration.controllers resource
  startDeclared (fun id => decide (controllerName resource id ∈ faults.controllers)) strictness
    declared (running.filter fun id => declared.any (·.id = id))

/-- What became of the controllers of several resources. -/
structure StartedAll where
  held : SortedMap Held
  /-- The skipped controllers with their resources. -/
  skipped : List (String × String)
  error : Option RegistryError

/-- Why a controller that is made to fail does not start. -/
def refusal (resource id : String) : RegistryError :=
  .controllerFailed resource id "init returned false"

/-- Bring the controllers of resources in line with a configuration, one resource after the other.
-/
def startAll (faults : Faults) (configuration : Configuration) (strictness : Strictness) :
    List String → SortedMap Held → StartedAll
  | [], held => ⟨held, [], none⟩
  | resource :: rest, held =>
    match held.find? resource with
    | none => ⟨held, [], some (.notLoaded resource)⟩
    | some h =>
      let s := startOn faults configuration strictness resource h.controllers
      let held := held.insert resource { h with controllers := s.running }
      let skipped := s.skipped.map (resource, ·)
      match s.failed with
      | some id => ⟨held, skipped, some (refusal resource id)⟩
      | none =>
        let more := startAll faults configuration strictness rest held
        { more with skipped := skipped ++ more.skipped }

/-! ## Calls -/

/-- A call enters. -/
def enter (r : SimRegistry) (operation : Operation) : SimRegistry :=
  { r with
    busy := true
    reentrant := r.reentrant || r.busy
    calls := r.calls ++ [operation.call] }

/-- What the registry has to say when a call enters. -/
def enterNotices (r : SimRegistry) (operation : Operation) : List String :=
  if r.busy then ["sim registry: overlapping call to " ++ operation.call.name] else []

/-- A call ends. -/
def leave (r : SimRegistry) : SimRegistry := { r with busy := false }

/-- How long a call takes that is given so much time. -/
def wait (r : SimRegistry) (limit : Duration) : Duration := r.latency.min limit

/-- The effect and the answer of an operation that is not out of time. -/
def effect (r : SimRegistry) (now : Instant) : Operation → Performance
  | .listLoaded =>
    if r.faults.list then ⟨.error (.queryFailed "registry did not answer"), r, []⟩
    else ⟨.ok r.held.keys, r, []⟩
  | .load resource =>
    if resource ∈ r.faults.loads then
      ⟨.error (.loadFailed resource "driver refused to load"), r, []⟩
    else if r.held.contains resource then ⟨.error (.alreadyLoaded resource), r, []⟩
    else ⟨.ok [], { r with held := r.held.insert resource (.fresh now) }, []⟩
  | .unload resources =>
    if r.faults.unload then ⟨.error (.unloadFailed (", ".intercalate resources)), r, []⟩
    else ⟨.ok [], { r with held := resources.foldl .erase r.held }, []⟩
  | .purge =>
    if r.faults.unload then ⟨.error (.unloadFailed "purge"), r, []⟩
    else ⟨.ok [], { r with held := ∅ }, []⟩
  | .startControllers resources configuration strictness =>
    let s := startAll r.faults configuration strictness resources r.held
    let notices := s.skipped.map fun (resource, id) =>
      "sim registry: " ++ (refusal resource id).message ++ "; continuing"
    match s.error with
    | some e => ⟨.error e, { r with held := s.held }, notices⟩
    | none =>
      ⟨.ok (s.skipped.map fun (resource, id) => controllerName resource id),
        { r with held := s.held }, notices⟩
  | .stopControllers resources =>
    if r.faults.stop then ⟨.error (.stopFailed (", ".intercalate resources)), r, []⟩
    else
      let stopped := resources.foldl
        (fun held resource => held.modify resource fun h => { h with controllers := [] }) r.held
      ⟨.ok [], { r with held := stopped }, []⟩

/-- The effect and the answer of a call that has waited. -/
def perform (r : SimRegistry) (now : Instant) (limit : Duration) (operation : Operation) :
    Performance :=
  if limit < r.latency then ⟨.error (.timeout operation.call.name limit), r, []⟩
  else r.effect now operation

/-- A whole call that starts at the given moment, with nothing in between. -/
def run (r : SimRegistry) (now : Instant) (limit : Duration) (operation : Operation) :
    Performance :=
  let p := (r.enter operation).perform (now.after (r.wait limit)) limit operation
  { p with registry := p.registry.leave, notices := r.enterNotices operation ++ p.notices }

/-! ## Changes behind the callers' backs -/

/-- Make a resource refuse to load. -/
def failLoad (r : SimRegistry) (resource : String) : SimRegistry :=
  { r with faults := { r.faults with loads := r.faults.loads.insert resource } }

/-- Keep a resource in `loading`. -/
def stall (r : SimRegistry) (resource : String) : SimRegistry :=
  { r with faults := { r.faults with stalls := r.faults.stalls.insert resource } }

/-- Make a controller fail to start. -/
def failController (r : SimRegistry) (resource id : String) : SimRegistry :=
  { r with faults :=
    { r.faults with controllers := r.faults.controllers.insert (controllerName resource id) } }

/-- Make listings fail, or stop doing so. -/
def failList (r : SimRegistry) (on : Bool) : SimRegistry :=
  { r with faults := { r.faults with list := on } }

/-- Make stopping controllers fail, or stop doing so. -/
def failStop (r : SimRegistry) (on : Bool) : SimRegistry :=
  { r with faults := { r.faults with stop := on } }

/-- Make unloading fail, or stop doing so. -/
def failUnload (r : SimRegistry) (on : Bool) : SimRegistry :=
  { r with faults := { r.faults with unload := on } }

/-- Make a loaded resource report a state. -/
def forceState (r : SimRegistry) (resource : String) (state : ResourceState) : SimRegistry :=
  { r with held := r.held.modify resource fun h => { h with forced := some state } }

/-- Hold a resource as if something else had loaded it. -/
def insertLoaded (r : SimRegistry) (now : Instant) (resource : String) : SimRegistry :=
  { r with held := r.held.insert resource (.fresh now) }

/-- Lose a resource as if it had crashed. -/
def forget (r : SimRegistry) (resource : String) : SimRegistry :=
  { r with held := r.held.erase resource }

/-- The registry of a name: only the simulated one can be selected, and its resources take 50 ms to
initialize. -/
def select (name : String) : Except RegistryError SimRegistry :=
  if name = SimRegistry.name then .ok (fresh (.ofMillis 50) .zero) else .error (.unavailable name)

end SimRegistry

end ControlRig
