import ControlRig.Proofs.Server.Stages

/-!
# The ordered end

A daemon ends in an order that no schedule can break: first the requests that it has accepted are
answered, then the monitor ends, then the manager goes (`ordered_end`). The order is that of the
stages, whose invariant holds of every run (`Serving.Going.live`), also if the registry is changed
behind the daemon's back until the manager goes. A collaborator that crashes is not considered: it
could leave a request without its answer.
-/

namespace ControlRig.Server

namespace Serving

open Procedure

variable {m : Manager} {s next : Serving}

/-! ## Occurrences -/

/-- Something that happens to a daemon, or behind its back to the registry. -/
inductive Occurrence where
  | event (event : Event)
  /-- The registry becomes another one, faults and all. -/
  | registry (changed : SimRegistry)

/-- The requests that are accepted by an occurrence. -/
def Occurrence.requests : Occurrence → List HttpRequest
  | .event (.request request) => [request]
  | _ => []

/-- The daemon after an occurrence. The registry is left alone once the manager goes. -/
def meet? (s : Serving) : Occurrence → Option Serving
  | .event event => s.step? event
  | .registry changed =>
    if s.stage.isLeaving then none
    else some { s with crew := { s.crew with rig := { s.crew.rig with registry := changed } } }

/-- The daemon after several occurrences, if all of them can happen. -/
def live? (s : Serving) : List Occurrence → Option Serving
  | [] => some s
  | occurrence :: rest => (s.meet? occurrence).bind (·.live? rest)

/-- Where nobody touches the registry it is a run of the daemon. -/
theorem live?_event (s : Serving) (events : List Event) :
    s.live? (events.map .event) = s.run? events := by
  induction events generalizing s with
  | nil => rfl
  | cons event rest ih => exact congrArg _ (funext fun mid => ih mid)

/-- What an occurrence tells a line. -/
def tells (s : Serving) (line : Nat) : Occurrence → List Told
  | .event (.turn i) => if i = line then s.crew.said i else []
  | _ => []

/-- What a line is told in the course of several occurrences. -/
def heard (s : Serving) (line : Nat) : List Occurrence → List Told
  | [] => []
  | occurrence :: rest =>
    s.tells line occurrence ++ (s.meet? occurrence).elim [] (·.heard line rest)

variable {way : Prop} {requests : List HttpRequest} {told : Nat → List Told}

/-! ## Every run -/

/-- Whatever happens to a daemon preserves the invariant. -/
theorem Going.meet (h : Going m way requests told s) {occurrence : Occurrence}
    (hmeet : s.meet? occurrence = some next) :
    Going m way (requests ++ occurrence.requests) (fun line => told line ++ s.tells line occurrence)
      next := by
  cases occurrence with
  | event event =>
    cases event with
    | turn i =>
      simp only [Occurrence.requests, List.append_nil]
      exact h.turn hmeet
    | request request =>
      simpa only [Occurrence.requests, tells, List.append_nil] using h.accept hmeet
    | advance => simpa only [Occurrence.requests, tells, List.append_nil] using h.advance hmeet
    | elapse d =>
      cases hmeet
      simpa only [Occurrence.requests, tells, List.append_nil] using
        h.later (s.crew.rig.lingers_elapse d)
    | requestEnd =>
      cases hmeet
      simp only [Occurrence.requests, tells, List.append_nil]
      exact ⟨h.manager, h.calm, h.accepted, h.lined, h.staged⟩
  | registry changed =>
    simp only [Occurrence.requests, tells, List.append_nil]
    cases hleaving : s.stage.isLeaving with
    | true =>
      rw [meet?, if_pos hleaving] at hmeet
      cases hmeet
    | false =>
      obtain ⟨-, -, hdrained⟩ := h.staged.of_working hleaving
      rw [meet?, hleaving] at hmeet
      cases hmeet
      exact h.enter hleaving hleaving hdrained rfl rfl

theorem Going.live (h : Going m way requests told s) {occurrences : List Occurrence}
    (hlive : s.live? occurrences = some next) :
    Going m way (requests ++ occurrences.flatMap Occurrence.requests)
      (fun line => told line ++ s.heard line occurrences) next := by
  -- what came in and what was told so far are carried along, so both are general
  induction occurrences generalizing s requests told with
  | nil =>
    cases hlive
    simpa only [List.flatMap_nil, heard, List.append_nil] using h
  | cons occurrence rest ih =>
    obtain ⟨mid, hmeet, hrest⟩ := Option.bind_eq_some_iff.1 hlive
    have hlast := ih (h.meet hmeet) hrest
    simpa only [List.flatMap_cons, heard, hmeet, Option.elim_some, List.append_assoc] using hlast

/-- What can happen when nobody but one line has a turn, and nothing comes in. -/
def Occurrence.LeavesTo (line : Nat) : Occurrence → Prop
  | .event (.request _) => False
  | .event (.turn i) => i = line
  | _ => True

theorem requests_of_leavesTo {line : Nat} {occurrence : Occurrence}
    (h : occurrence.LeavesTo line) : occurrence.requests = [] := by
  cases occurrence with
  | registry changed => rfl
  | event event =>
    cases event with
    | request request => exact absurd h id
    | _ => rfl

/-- Once the manager goes, only its own line goes on. -/
theorem Going.meet_leaving (h : Going m way requests told s) (leaving : s.stage.isLeaving = true)
    {occurrence : Occurrence} (hmeet : s.meet? occurrence = some next) :
    occurrence.LeavesTo (requests.length + 1) ∧ next.stage.isLeaving = true := by
  cases occurrence with
  | registry changed =>
    rw [meet?, if_pos leaving] at hmeet
    cases hmeet
  | event event =>
    cases event with
    | request request =>
      obtain ⟨hworking, -⟩ := eq_of_accept hmeet
      cases hworking.symm.trans leaving
    | requestEnd | elapse d =>
      cases hmeet
      exact ⟨trivial, leaving⟩
    | turn i =>
      refine ⟨(h.staged.line_of_turn leaving hmeet).1, ?_⟩
      rcases turn_cases hmeet with ⟨phase, -, -, rfl⟩ | ⟨crew, -, rfl⟩ <;> exact leaving
    | advance =>
      refine ⟨trivial, ?_⟩
      rw [meet?, step?, Serving.advance] at hmeet
      cases hstage : s.stage with
      | leaving =>
        rw [hstage] at hmeet
        dsimp only at hmeet
        split at hmeet
        · split at hmeet
          · cases hmeet
            rfl
          · cases hmeet
        · cases hmeet
      | ended outcome =>
        rw [hstage] at hmeet
        cases hmeet
      | serving | closing | draining | stopping =>
        rw [hstage] at leaving
        cases leaving

theorem Going.live_leaving (h : Going m way requests told s) (leaving : s.stage.isLeaving = true)
    {occurrences : List Occurrence} (hlive : s.live? occurrences = some next) :
    ∀ occurrence ∈ occurrences, occurrence.LeavesTo (requests.length + 1) := by
  induction occurrences generalizing s requests told with
  | nil => nofun
  | cons first rest ih =>
    obtain ⟨mid, hmeet, hrest⟩ := Option.bind_eq_some_iff.1 hlive
    obtain ⟨hfirst, hmid⟩ := h.meet_leaving leaving hmeet
    have hlater := ih (h.meet hmeet) hmid hrest
    -- nothing has come in, so the manager's line has kept its number
    rw [requests_of_leavesTo hfirst, List.append_nil] at hlater
    exact List.forall_mem_cons.2 ⟨hfirst, hlater⟩

theorem live?_append {occurrences rest : List Occurrence} :
    s.live? (occurrences ++ rest) = (s.live? occurrences).bind (·.live? rest) := by
  induction occurrences generalizing s with
  | nil => rfl
  | cons first more ih =>
    rw [List.cons_append, live?, live?, Option.bind_assoc]
    exact congrArg _ (funext fun mid => ih)

end Serving

open Serving

/-- **The end of a daemon is ordered**, whatever requests are accepted, whenever the end is requested
or the monitor ends, whatever becomes of the registry until the manager goes, and in whatever order
the lines have their turns. When a daemon has ended,

* every request that it has accepted has the answer that its line was told to give;
* once the manager began to go, nobody else had a turn and nothing came in;
* "none" is published, if the way to the status was open at the beginning;
* nothing is loaded, if the registry lists and unloads, whether or not it stops controllers;
* the outcome is a success exactly if every stop that the monitor has performed was one. What the
  monitor was told says which stops those were (`Manager.Performs.unique`).
-/
theorem ordered_end (m : Manager) (rig : Rig) (calm : rig.armed = ∅)
    (occurrences : List Occurrence) (s : Serving) (outcome : Except ServerError Unit)
    (lives : (Serving.start m rig).live? occurrences = some s) (ended : s.stage = .ended outcome) :
    let requests := occurrences.flatMap Occurrence.requests
    let heard := fun line => (Serving.start m rig).heard line occurrences
    (∀ i request, requests[i]? = some request → ∃ response,
      s.crew.lines[i + 1]? = some (.ready (.done (.response response))) ∧
      (answer m request).Follows (heard (i + 1)) (.done response)) ∧
    (∀ earlier later mid, occurrences = earlier ++ later →
      (Serving.start m rig).live? earlier = some mid → mid.stage = .leaving →
      ∀ occurrence ∈ later, occurrence.LeavesTo (requests.length + 1)) ∧
    (rig.params.Writable m.settings.statusKey →
      s.crew.rig.params.text? m.settings.statusKey = some "none") ∧
    (s.crew.rig.registry.LetsGo m.settings.teardownTimeout →
      s.crew.rig.registry.loaded = ∅) ∧
    (∃ stops result, m.Performs .starting (heard 0) stops (.over result)) ∧
    ∀ stops result, m.Performs .starting (heard 0) stops (.over result) →
      outcome = ending (some result) ∧ (outcome = .ok () ↔ ∀ stop ∈ stops, stop = .ok ()) := by
  intro requests heard
  have hgoing : Going m (rig.params.Writable m.settings.statusKey) requests heard s :=
    (going_start m calm).live lives
  have hstaged := hgoing.staged
  rw [ended] at hstaged
  obtain ⟨result, rfl, hsettled, hgone⟩ := hstaged.of_ended
  refine ⟨fun i request hrequest => ?_, ?_, hgone.status, hgone.loaded, ?_⟩
  · obtain ⟨line, hline, hfollows⟩ := hgoing.lined.answering i request hrequest
    obtain ⟨hi, -⟩ := List.getElem?_eq_some_iff.1 hrequest
    obtain ⟨response, hresponse⟩ := hsettled.drained i hi
    cases hline.symm.trans hresponse
    obtain ⟨response', heq, hanswer⟩ := answered_of_follows hfollows
    cases heq
    exact ⟨response, hresponse, hanswer⟩
  · rintro earlier later mid rfl hmid hleaving
    have hthen := (going_start m calm).live hmid
    rw [live?_append, hmid] at lives
    have hlater := hthen.live_leaving (by rw [hleaving]; rfl) lives
    -- the requests until then are all there are
    have hnone : later.flatMap Occurrence.requests = [] :=
      List.flatMap_eq_nil_iff.2 fun occurrence hmem =>
        requests_of_leavesTo (hlater occurrence hmem)
    have hall : requests = earlier.flatMap Occurrence.requests := by
      show (earlier ++ later).flatMap Occurrence.requests = _
      rw [List.flatMap_append, hnone, List.append_nil]
    rw [hall]
    exact hlater
  · obtain ⟨line, hline, hwatching⟩ := hgoing.lined.watching
    cases hline.symm.trans hsettled.monitor
    obtain ⟨stops, _, ⟨⟩, hperforms⟩ := hwatching.performs
    refine ⟨⟨stops, result, hperforms⟩, fun stops' result' hperforms' => ?_⟩
    obtain ⟨rfl, rfl⟩ := hperforms.unique hperforms'
    rw [← hperforms.ok_iff nofun]
    refine ⟨rfl, ?_⟩
    cases result with
    | ok u => exact iff_of_true rfl rfl
    | error e => exact iff_of_false nofun nofun

/-! ### A late start -/

/-- Whether a daemon has ended with an error. -/
def EndStage.hasFailed : EndStage → Bool
  | .ended (.error _) => true
  | _ => false

theorem EndStage.eq_of_hasFailed {stage : EndStage} (h : stage.hasFailed = true) :
    ∃ e, stage = .ended (.error e) := by
  cases stage with
  | ended outcome =>
    cases outcome with
    | error e => exact ⟨e, rfl⟩
    | ok u => cases h
  | _ => cases h

/-- Handling is to be started. -/
def lateStart : HttpRequest := ⟨"POST", "/start_configuration", "\x7b\"name\":\"handling\"\x7d".toUTF8⟩

/-- Handling is requested when the end has been already, and starts while the daemon drains. Then
the registry refuses to stop controllers. -/
def lateStartRun : List Occurrence :=
  [.event .requestEnd, .event .advance, .event (.request lateStart), .event .advance] ++
    List.replicate 22 (.event (.turn 1)) ++
    [.registry (Rig.handling.registry.failStop true), .event .advance] ++
    List.replicate 17 (.event (.turn 0)) ++ .event .advance ::
    List.replicate 10 (.event (.turn 2)) ++ [.event .advance]

theorem ordered_end_of_late_start :
    ∃ s e, (Serving.start .usual (Manager.usual.made .workshop)).live? lateStartRun = some s ∧
      s.stage = .ended (.error e) ∧
      (∃ response, s.crew.lines[1]? = some (.ready (.done (.response response)))) ∧
      s.crew.rig.params.text? Manager.usual.settings.statusKey = some "none" ∧
      s.crew.rig.registry.loaded = ∅ ∧
      ∃ stops result, Manager.usual.Performs .starting
        ((Serving.start .usual (Manager.usual.made .workshop)).heard 0 lateStartRun) stops
        (.over result) ∧ ¬ ∀ stop ∈ stops, stop = .ok () := by
  have hends : ((Serving.start .usual (Manager.usual.made .workshop)).live? lateStartRun).map
      (fun s => (s.stage.hasFailed, s.crew.rig.registry.latency, s.crew.rig.registry.faults.list,
        s.crew.rig.registry.faults.unload)) = some (true, .zero, false, false) := by
    decide +kernel
  obtain ⟨s, hlives, hparts⟩ := Option.map_eq_some_iff.1 hends
  simp only [Prod.mk.injEq] at hparts
  obtain ⟨hfailed, hlatency, hlists, hunloads⟩ := hparts
  obtain ⟨e, hended⟩ := EndStage.eq_of_hasFailed hfailed
  have hlets : s.crew.rig.registry.LetsGo Manager.usual.settings.teardownTimeout := by
    refine ⟨?_, hlists, hunloads⟩
    rw [hlatency]
    decide +kernel
  obtain ⟨hanswered, -, hstatus, hloaded, ⟨stops, result, hperforms⟩, houtcome⟩ :=
    ordered_end .usual (Manager.usual.made .workshop) (by decide +kernel) lateStartRun s (.error e)
      hlives hended
  obtain ⟨response, hresponse, -⟩ := hanswered 0 lateStart rfl
  refine ⟨s, e, hlives, hended, ⟨response, hresponse⟩, hstatus ⟨?_, ?_⟩, hloaded hlets, stops,
    result, hperforms, fun hall => ?_⟩
  · decide +kernel
  · decide +kernel
  · cases (houtcome stops result hperforms).2.2 hall

end ControlRig.Server
