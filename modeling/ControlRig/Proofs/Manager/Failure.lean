import ControlRig.Proofs.Transition.CallOrder
import ControlRig.Service.Handle

/-!
# Requests that fail

**A request that fails leaves the manager's memory and the parameters as they were.** The reason is
one of order, and `Procedure.FailsClean` is that order: what is written is written after the last
step that can fail. It is checked along the text of each operation, from rules for the ways in which
operations are put together.

A crash of a collaborator is not an error that an operation returns, but a service answers it like
one. It leaves no trace either, with one exception: the publisher is called after the manager has
taken note of a transition, so a publisher that crashes does so too late.
-/

namespace ControlRig

namespace Rig

/-- Neither the manager's memory nor the parameters have been written. -/
def Unwritten (rig after : Rig) : Prop := after.memory = rig.memory ∧ after.params = rig.params

/-- The publisher has crashed in between, as it was to. -/
def PublisherCrashed (rig after : Rig) : Prop :=
  "set_status" ∈ rig.armed ∧ "set_status" ∉ after.armed

theorem Unwritten.trans {a b c : Rig} (hab : a.Unwritten b) (hbc : b.Unwritten c) :
    a.Unwritten c :=
  ⟨hbc.1.trans hab.1, hbc.2.trans hab.2⟩

end Rig

namespace Procedure

variable {α β ε : Type}

/-! ## Steps that cannot crash -/

/-- An action that is not answered by a collaborator. -/
def Uncued (action : Action) : Prop := Rig.cue action = none

theorem Composed.returns_uncued {p : Procedure α} (h : p.Composed Uncued) (rig : Rig) :
    ∃ a after, p.run rig = (some a, after) ∧ after.armed = rig.armed := by
  refine h.returns fun action huncued => ?_
  unfold Rig.isArmedAt
  rw [huncued]

/-- A procedure that never fails and never crashes. -/
def Sure (p : Procedure (Except ε α)) : Prop :=
  ∀ rig, ∃ a after, p.run rig = (some (.ok a), after)

theorem Sure.eq_ok {p : Procedure (Except ε α)} (h : p.Sure) {rig after : Rig}
    {result : Option (Except ε α)} (hrun : p.run rig = (result, after)) :
    ∃ a, result = some (.ok a) := by
  obtain ⟨a, final, hsure⟩ := h rig
  rw [hsure] at hrun
  cases hrun
  exact ⟨a, rfl⟩

theorem sure_done (a : α) : (Procedure.done (.ok a : Except ε α)).Sure :=
  fun rig => ⟨a, rig, rfl⟩

theorem Sure.bind {p : Procedure β} {f : β → Procedure (Except ε α)} (hp : p.Composed Uncued)
    (hf : ∀ b, (f b).Sure) : (p >>= f).Sure := by
  intro rig
  obtain ⟨b, mid, hrun, -⟩ := hp.returns_uncued rig
  obtain ⟨a, after, hlast⟩ := hf b mid
  exact ⟨a, after, run_bind_some.2 ⟨b, mid, hrun, hlast⟩⟩

/-! ## Writing at the end only -/

/-- Whenever it fails, a procedure has written nothing; whenever it crashes, it has not either,
unless the publisher has crashed. -/
structure FailsClean (p : Procedure (Except ε α)) : Prop where
  error : ∀ rig e after, p.run rig = (some (.error e), after) → rig.Unwritten after
  crash : ∀ rig after, p.run rig = (none, after) → rig.Unwritten after ∨ rig.PublisherCrashed after

/-- What writes nothing at all fails clean. -/
theorem FailsClean.of_asks {p : Procedure (Except ε α)} (h : p.Asks Action.Spares) :
    p.FailsClean := by
  constructor
  · intro rig e after hrun
    have hspares := h.spares rig
    rw [hrun] at hspares
    exact hspares
  · intro rig after hrun
    have hspares := h.spares rig
    rw [hrun] at hspares
    exact .inl hspares

/-- What is sure cannot fail. -/
theorem Sure.failsClean {p : Procedure (Except ε α)} (h : p.Sure) : p.FailsClean := by
  constructor
  · intro rig e after hrun
    obtain ⟨a, ha⟩ := h.eq_ok hrun
    cases ha
  · intro rig after hrun
    obtain ⟨a, ha⟩ := h.eq_ok hrun
    cases ha

/-- Something that writes nothing may come first. -/
theorem FailsClean.bind {p : Procedure β} {f : β → Procedure (Except ε α)}
    (hp : p.Asks Action.Spares) (hf : ∀ b, (f b).FailsClean) : (p >>= f).FailsClean := by
  constructor
  · intro rig e after hrun
    obtain ⟨b, mid, hfirst, hlast⟩ := run_bind_some.1 hrun
    have hspares := hp.spares rig
    rw [hfirst] at hspares
    exact Rig.Unwritten.trans hspares ((hf b).error mid e after hlast)
  · intro rig after hrun
    have hspares := hp.spares rig
    rcases run_bind_none.1 hrun with hfirst | ⟨b, mid, hfirst, hlast⟩
    · rw [hfirst] at hspares
      exact .inl hspares
    · -- who is armed in the middle was armed before
      rw [hfirst] at hspares
      rcases (hf b).crash mid after hlast with hsame | ⟨harmed, hfired⟩
      · exact .inl (Rig.Unwritten.trans hspares hsame)
      · refine .inr ⟨?_, hfired⟩
        apply mem_armed_of_run (p := p)
        rw [hfirst]
        exact harmed

/-- Something that is sure may come last, if it passes on the error. -/
theorem FailsClean.andThen {p : Procedure (Except ε β)}
    {f : Except ε β → Procedure (Except ε α)} (hp : p.FailsClean)
    (herror : ∀ e, f (.error e) = .done (.error e)) (hok : ∀ b, (f (.ok b)).Sure) :
    (p >>= f).FailsClean := by
  constructor
  · intro rig e after hrun
    obtain ⟨result, mid, hfirst, hlast⟩ := run_bind_some.1 hrun
    cases result with
    | error e' =>
      rw [herror e'] at hlast
      cases hlast
      exact hp.error rig e after hfirst
    | ok b =>
      obtain ⟨a, ha⟩ := (hok b).eq_ok hlast
      cases ha
  · intro rig after hrun
    rcases run_bind_none.1 hrun with hfirst | ⟨result, mid, hfirst, hlast⟩
    · exact hp.crash rig after hfirst
    · cases result with
      | error e' =>
        rw [herror e'] at hlast
        cases hlast
      | ok b =>
        obtain ⟨a, ha⟩ := (hok b).eq_ok hlast
        cases ha

/-- What has not succeeded has written nothing, unless the publisher has crashed. -/
theorem FailsClean.unwritten {p : Procedure (Except ε α)} (h : p.FailsClean) {rig : Rig}
    (fails : ¬ p.Succeeds rig) :
    rig.Unwritten (p.run rig).2 ∨ rig.PublisherCrashed (p.run rig).2 := by
  cases hrun : p.run rig with
  | mk result after =>
    match result with
    | none => exact h.crash rig after hrun
    | some (.error e) => exact .inl (h.error rig e after hrun)
    | some (.ok a) => exact absurd ⟨a, after, hrun⟩ fails

/-! ## Under the lock -/

/-- The part of `withLock` after the lock has been taken. -/
def guarded (p : Procedure α) : Procedure α := do
  match ← attempt p with
  | some a =>
    of (.unlock false)
    return a
  | none =>
    of (.unlock true)
    .crash

theorem withLock_eq (step : ManagerState → Procedure α) :
    withLock step = of .lock >>= fun locked =>
      (if locked.crashed then
        warn "manager lock was poisoned by a panicking request; recovering"
      else pure ()) >>= fun _ => guarded (step locked.state) := by
  unfold withLock
  congr 1
  funext locked
  cases locked.crashed <;> rfl

/-- Giving the lock back changes only the lock. -/
theorem run_guarded (p : Procedure α) (rig : Rig) :
    ((guarded p).run rig).1 = (p.run rig).1 ∧
      (p.run rig).2.Unwritten ((guarded p).run rig).2 ∧
      ((guarded p).run rig).2.armed = (p.run rig).2.armed := by
  unfold guarded
  rw [run_bind, run_attempt]
  cases h : (p.run rig).1 with
  | some a => exact ⟨rfl, ⟨rfl, rfl⟩, rfl⟩
  | none => exact ⟨rfl, ⟨rfl, rfl⟩, rfl⟩

theorem FailsClean.guarded {p : Procedure (Except ε α)} (h : p.FailsClean) :
    p.guarded.FailsClean := by
  constructor
  · intro rig e after hrun
    obtain ⟨hresult, hsame, -⟩ := run_guarded p rig
    rw [hrun] at hresult hsame
    have hp : p.run rig = (some (.error e), (p.run rig).2) := Prod.ext hresult.symm rfl
    exact (h.error rig e _ hp).trans hsame
  · intro rig after hrun
    obtain ⟨hresult, hsame, harmed⟩ := run_guarded p rig
    rw [hrun] at hresult hsame harmed
    have hp : p.run rig = (none, (p.run rig).2) := Prod.ext hresult.symm rfl
    rcases h.crash rig _ hp with hunwritten | ⟨hcued, hfired⟩
    · exact .inl (hunwritten.trans hsame)
    · refine .inr ⟨hcued, ?_⟩
      rw [harmed]
      exact hfired

/-- A step under the lock fails clean if it does so in every state. -/
theorem FailsClean.withLock {step : ManagerState → Procedure (Except ε α)}
    (h : ∀ state, (step state).FailsClean) : (Procedure.withLock step).FailsClean := by
  have hnote : ∀ crashed : Bool, (if crashed then
      warn "manager lock was poisoned by a panicking request; recovering"
      else pure ()).Composed Action.Spares := by
    intro crashed
    cases crashed with
    | true => exact .of _ trivial
    | false => exact .done _
  have hlock : (Procedure.of .lock).Composed Action.Spares := .of .lock trivial
  rw [withLock_eq]
  exact .bind hlock.asks fun locked => .bind (hnote _).asks fun _ => (h locked.state).guarded

/-- Publishing crashes only if it is to, and then no more. -/
theorem publisherCrashed_of_run {key text : String} {rig after : Rig}
    (h : (publish key text).run rig = (none, after)) : rig.PublisherCrashed after := by
  rw [publish, run_of] at h
  rcases rig.answer_cases (.publish key text) with ⟨harmed, heq⟩ | ⟨-, heq⟩
  · rw [heq] at h
    cases h
    refine ⟨of_decide_eq_true harmed, fun hmem => ?_⟩
    have hne := (List.mem_filter.1 hmem).2
    exact absurd rfl (of_decide_eq_true hne)
  · rw [heq] at h
    cases h

end Procedure

/-! ## The operations -/

namespace Manager

open Procedure

variable (m : Manager)

theorem readCatalog_composed (settings : Settings) (active : Option String) :
    (readCatalog settings active).Composed Action.Inquires := by
  refine .bind (.of _ trivial) fun source => ?_
  cases source with
  | none => exact .bind (.of _ trivial) fun _ => .done _
  | some value =>
    dsimp only
    cases Catalog.read value active with
    | error e => exact .bind (.of _ trivial) fun _ => .done _
    | ok catalog => exact .done _

/-- A commit cannot fail; if it crashes, the publisher has. -/
theorem failsClean_commit {α : Type} (state : ManagerState) (active : Option Configuration)
    {f : Unit → Procedure (Except ManagerError α)} (hf : ∀ u, (f u).Sure) :
    (m.commit state active >>= f).FailsClean := by
  constructor
  · intro rig e after hrun
    obtain ⟨u, mid, -, hlast⟩ := run_bind_some.1 hrun
    obtain ⟨a, ha⟩ := (hf u).eq_ok hlast
    cases ha
  · intro rig after hrun
    rcases run_bind_none.1 hrun with hcommit | ⟨u, mid, -, hlast⟩
    · have hsave : (now >>= fun t => save (state.commit active t)).Composed Uncued :=
        .bind (.of .now rfl) fun t => .of (.save _) rfl
      obtain ⟨u, mid, hsaved, harmed⟩ := hsave.returns_uncued rig
      have hsplit : m.commit state active = (now >>= fun t => save (state.commit active t)) >>=
          fun _ => publish m.settings.statusKey
            (ManagerState.statusText (active.map (·.name))) := by
        unfold commit
        rw [bind_assoc]
      rw [hsplit] at hcommit
      -- taking the time and saving are not cued, so the crash is the publisher's
      rcases run_bind_none.1 hcommit with hnone | ⟨u', mid', hsome, hpublish⟩
      · rw [hsaved] at hnone
        cases hnone
      · rw [hsaved] at hsome
        cases hsome
        obtain ⟨hcued, hfired⟩ := publisherCrashed_of_run hpublish
        rw [harmed] at hcued
        exact .inr ⟨hcued, hfired⟩
    · obtain ⟨a, ha⟩ := (hf u).eq_ok hlast
      cases ha

/-- A transition that is taken note of if it succeeds. -/
theorem failsClean_transition {α : Type} {options : Transition.Options}
    {active target : Option Configuration} {strictness : Strictness} {limit : Duration}
    {f : Except ManagerError TransitionRecord → Procedure (Except ManagerError α)}
    (hf : ∀ outcome, (f outcome).FailsClean) :
    (Transition.run options active target strictness limit >>= f).FailsClean :=
  .bind (Transition.run_composed options target strictness limit active).asks hf

theorem failsClean_start (name : String) (strictness : Strictness) :
    (m.start name strictness).FailsClean := by
  have hnumber : (Procedure.of .nextNumber).Composed Action.Spares := .of .nextNumber trivial
  refine .bind hnumber.asks fun number => .withLock fun state => ?_
  unfold startLocked
  split
  · have hquiet : (inform ("configuration '" ++ name ++ "' is already running") >>= fun _ =>
        Procedure.done (.ok [] : Except ManagerError (List String))).Composed Action.Spares :=
      .bind (.of _ trivial) fun _ => .done _
    exact .of_asks hquiet.asks
  · split
    · exact .of_asks (Composed.done _).asks
    · rename_i target hfound
      refine .bind (Composed.of _ trivial).asks fun _ => failsClean_transition fun outcome => ?_
      cases outcome with
      | error e =>
        exact .bind (Composed.of _ trivial).asks fun _ => .of_asks (Composed.done _).asks
      | ok record =>
        refine m.failsClean_commit state (some target) fun _ => ?_
        dsimp only
        split
        · exact .bind (.of _ rfl) fun _ => sure_done _
        · exact .bind (.of _ rfl) fun _ => sure_done _

theorem failsClean_stopLocked (strictness : Strictness) (state : ManagerState) :
    (m.stopLocked strictness state).FailsClean := by
  refine .bind (Composed.of _ trivial).asks fun _ => failsClean_transition fun outcome => ?_
  cases outcome with
  | error e => exact .bind (Composed.of _ trivial).asks fun _ => .of_asks (Composed.done _).asks
  | ok record => exact m.failsClean_commit state none fun _ => sure_done _

theorem failsClean_stop (strictness : Strictness) : (m.stop strictness).FailsClean :=
  .withLock (m.failsClean_stopLocked strictness)

/-- A catalog is taken over only when it could be read. -/
theorem failsClean_refreshLocked (state : ManagerState) : (m.refreshLocked state).FailsClean := by
  refine .bind (readCatalog_composed m.settings state.activeName).spares.asks fun read => ?_
  cases read with
  | error e => exact .of_asks (Composed.done _).asks
  | ok catalog => exact Sure.failsClean (.bind (.of _ rfl) fun _ => sure_done _)

theorem failsClean_refresh : m.refresh.FailsClean :=
  .withLock fun state => (m.failsClean_refreshLocked state).andThen (fun _ => rfl) fun _ =>
    .bind (.of _ rfl) fun _ => sure_done _

theorem failsClean_list : m.list.FailsClean :=
  .withLock fun state => (m.failsClean_refreshLocked state).andThen (fun _ => rfl) fun _ =>
    sure_done _

theorem faults_composed (resources : List String) :
    (faults resources).Composed Action.Inquires := by
  induction resources with
  | nil => exact .done _
  | cons resource rest ih => exact .bind (.of _ trivial) fun state => .bind ih fun more => .done _

theorem reportFaults_composed (configuration : String) (found : List (String × ResourceState)) :
    (reportFaults configuration found).Composed Action.Inquires := by
  induction found with
  | nil => exact .done _
  | cons fault rest ih => exact .bind (.of _ trivial) fun _ => ih

theorem failsClean_checkHealth : m.checkHealth.FailsClean := by
  refine .withLock fun state => ?_
  unfold checkHealthLocked
  split
  · exact .of_asks (Composed.done _).asks
  · rename_i active hactive
    refine .bind (faults_composed _).spares.asks fun found => ?_
    split
    · exact .of_asks (Composed.done _).asks
    · refine .bind (reportFaults_composed active.name _).spares.asks fun _ => ?_
      refine .bind (Composed.of _ trivial).asks fun _ => ?_
      exact (m.failsClean_stopLocked .bestEffort state).andThen (fun _ => rfl) fun _ => sure_done _

end Manager

/-! ## The service -/

/-- The operation of a request succeeds. -/
def Request.Succeeds (m : Manager) (rig : Rig) : Request → Prop
  | .start r => (m.start r.name r.strictness).Succeeds rig
  | .stop r => (m.stop r.strictness).Succeeds rig
  | .list => m.list.Succeeds rig
  | .update => m.refresh.Succeeds rig

/-- A reply that carries a listing. -/
def Reply.IsList : Reply → Prop
  | .list _ => True
  | .ack _ => False

namespace Service

open Procedure

variable (m : Manager)

/-- What a service makes of the run of an operation. -/
structure Serves (rig : Rig) (request : Request) (reply : Reply) (after : Rig) : Prop where
  ok : reply.ok = false ↔ ¬ request.Succeeds m rig
  list : reply.IsList ↔ request = .list
  unwritten : reply.ok = false → rig.Unwritten after ∨ rig.PublisherCrashed after

/-- An operation and its replies, run to a value or a crash. -/
theorem serves_of_failsClean {α : Type} {p : Procedure (Except ManagerError α)}
    (request : Request) (clean : p.FailsClean) {answer : Except ManagerError α → Reply}
    (rig : Rig) (succeeds : request.Succeeds m rig ↔ p.Succeeds rig)
    (hok : ∀ a, (answer (.ok a)).ok = true) (herror : ∀ e, (answer (.error e)).ok = false)
    (hlist : ∀ outcome, (answer outcome).IsList ↔ request = .list)
    (hcrash : (crashReply request).ok = false ∧
      ((crashReply request).IsList ↔ request = .list)) :
    Serves m rig request
      (((p >>= fun outcome => Procedure.done (answer outcome)).run rig).1.getD (crashReply request))
      ((p >>= fun outcome => Procedure.done (answer outcome)).run rig).2 := by
  rw [run_bind]
  cases hp : p.run rig with
  | mk result after =>
    cases result with
    | none =>
      have hno : ¬ request.Succeeds m rig := by
        rw [succeeds]
        rintro ⟨a, final, hrun⟩
        rw [hp] at hrun
        cases hrun
      exact ⟨⟨fun _ => hno, fun _ => hcrash.1⟩, hcrash.2, fun _ => clean.crash rig after hp⟩
    | some outcome =>
      cases outcome with
      | error e =>
        have hno : ¬ request.Succeeds m rig := by
          rw [succeeds]
          rintro ⟨a, final, hrun⟩
          rw [hp] at hrun
          cases hrun
        exact ⟨⟨fun _ => hno, fun _ => herror e⟩, hlist _,
          fun _ => .inl (clean.error rig e after hp)⟩
      | ok a =>
        have hyes : request.Succeeds m rig := succeeds.2 ⟨a, after, hp⟩
        have htrue : ¬ (answer (.ok a)).ok = false := by
          rw [hok a]
          exact Bool.noConfusion
        exact ⟨⟨fun h => absurd h htrue, fun h => absurd hyes h⟩, hlist _,
          fun h => absurd h htrue⟩

theorem startReply_ok (name : String) (skipped : List String) :
    (startReply name (.ok skipped)).ok = true := by
  cases skipped <;> rfl

theorem startReply_isList (name : String) (outcome : Except ManagerError (List String)) :
    ¬ (startReply name outcome).IsList := by
  cases outcome with
  | error e => exact id
  | ok skipped => cases skipped <;> exact id

theorem plainReply_isList (outcome : Except ManagerError Unit) : ¬ (plainReply outcome).IsList := by
  cases outcome <;> exact id

theorem listReply_isList (outcome : Except ManagerError (List Configuration)) :
    (listReply outcome).IsList := by
  cases outcome <;> trivial

/-- What dispatching a request comes to, a crash being answered for. -/
theorem dispatch_serves (request : Request) (rig : Rig) :
    Serves m rig request (((dispatch m request).run rig).1.getD (crashReply request))
      ((dispatch m request).run rig).2 := by
  cases request with
  | start r =>
    exact serves_of_failsClean m (.start r) (m.failsClean_start r.name r.strictness) rig Iff.rfl
      (startReply_ok r.name) (fun _ => rfl)
      (fun outcome => iff_of_false (startReply_isList r.name outcome) nofun)
      ⟨rfl, iff_of_false id nofun⟩
  | stop r =>
    exact serves_of_failsClean m (.stop r) (m.failsClean_stop r.strictness) rig Iff.rfl
      (fun _ => rfl) (fun _ => rfl)
      (fun outcome => iff_of_false (plainReply_isList outcome) nofun)
      ⟨rfl, iff_of_false id nofun⟩
  | list =>
    exact serves_of_failsClean m .list m.failsClean_list rig Iff.rfl
      (fun _ => rfl) (fun _ => rfl)
      (fun outcome => iff_of_true (listReply_isList outcome) rfl)
      ⟨rfl, iff_of_true trivial rfl⟩
  | update =>
    exact serves_of_failsClean m .update m.failsClean_refresh rig Iff.rfl
      (fun _ => rfl) (fun _ => rfl)
      (fun outcome => iff_of_false (plainReply_isList outcome) nofun)
      ⟨rfl, iff_of_false id nofun⟩

/-- Serving a request is dispatching it, and messages. It always ends with a reply. -/
theorem run_handle (request : Request) (rig : Rig) :
    ∃ after, (handle m request).run rig =
        (some (((dispatch m request).run rig).1.getD (crashReply request)), after) ∧
      ((dispatch m request).run rig).2.Unwritten after ∧
      after.armed = ((dispatch m request).run rig).2.armed := by
  unfold handle
  rw [run_bind, run_attempt]
  cases ((dispatch m request).run rig).1 with
  | none =>
    cases request <;> exact ⟨_, rfl, ⟨rfl, rfl⟩, rfl⟩
  | some reply =>
    dsimp only
    rw [pure_eq, done_bind]
    cases reply.ok with
    | true => exact ⟨_, rfl, ⟨rfl, rfl⟩, rfl⟩
    | false => exact ⟨_, rfl, ⟨rfl, rfl⟩, rfl⟩

end Service

/-- **A failure leaves no trace.** Whatever the rig, an operation of the manager that returns an
error has left the manager's memory and the parameters as they were. A service replies to every
request; the reply is not `ok` exactly if the operation has not succeeded, and a listing exactly if
one was requested. After a reply that is not `ok` the memory and the parameters are as they were,
unless the publisher has crashed. -/
theorem failure_leaves_no_trace (m : Manager) (rig : Rig) :
    (∀ name strictness e after,
      (m.start name strictness).run rig = (some (.error e), after) → rig.Unwritten after) ∧
    (∀ strictness e after,
      (m.stop strictness).run rig = (some (.error e), after) → rig.Unwritten after) ∧
    (∀ e after, m.list.run rig = (some (.error e), after) → rig.Unwritten after) ∧
    (∀ e after, m.refresh.run rig = (some (.error e), after) → rig.Unwritten after) ∧
    (∀ e after, m.checkHealth.run rig = (some (.error e), after) → rig.Unwritten after) ∧
    ∀ request, ∃ reply after,
      (Service.handle m request).run rig = (some reply, after) ∧
      (reply.ok = false ↔ ¬ request.Succeeds m rig) ∧
      (reply.IsList ↔ request = .list) ∧
      (reply.ok = false → rig.Unwritten after ∨ rig.PublisherCrashed after) := by
  refine ⟨fun name strictness => (m.failsClean_start name strictness).error rig,
    fun strictness => (m.failsClean_stop strictness).error rig, m.failsClean_list.error rig,
    m.failsClean_refresh.error rig, m.failsClean_checkHealth.error rig, fun request => ?_⟩
  obtain ⟨hok, hlist, hunwritten⟩ := Service.dispatch_serves m request rig
  obtain ⟨after, hrun, hsame, harmed⟩ := Service.run_handle m request rig
  refine ⟨_, after, hrun, hok, hlist, fun hfail => ?_⟩
  rcases hunwritten hfail with hclean | ⟨hcued, hfired⟩
  · exact .inl (hclean.trans hsame)
  · refine .inr ⟨hcued, ?_⟩
    rw [harmed]
    exact hfired

/-- Welding is refused while handling goes on, because the torch cannot be started; the request and
its service leave the manager as it was. -/
theorem failure_leaves_no_trace_of_welding :
    let m : Manager := ⟨.standard, "sim"⟩
    let memory : ManagerState := ⟨some .handling,
      ⟨(SortedMap.empty.insert "handling" .handling).insert "welding" .welding⟩, 1, none⟩
    let rig : Rig := { Transition.whileHandling with memory := memory }
    (∃ e after, (m.start "welding" .strict).run rig = (some (.error e), after) ∧
      after.memory = memory) ∧
    ∃ reply after, (Service.handle m (.start ⟨"welding", .strict⟩)).run rig = (some reply, after) ∧
      reply.ok = false ∧ after.memory = memory := by
  intro m memory rig
  obtain ⟨hstart, -, -, -, -, hserve⟩ := failure_leaves_no_trace m rig
  have hfails : ¬ (m.start "welding" .strict).Succeeds rig := by decide +kernel
  have hreturns : ((m.start "welding" .strict).run rig).1.isSome = true := by decide +kernel
  constructor
  · cases hrun : (m.start "welding" .strict).run rig with
    | mk result after =>
      rw [hrun] at hreturns
      rcases result with _ | ⟨e | skipped⟩
      · cases hreturns
      · exact ⟨e, after, rfl, (hstart "welding" .strict e after hrun).1⟩
      · exact absurd ⟨skipped, after, hrun⟩ hfails
  · obtain ⟨reply, after, hrun, hok, -, hunwritten⟩ := hserve (.start ⟨"welding", .strict⟩)
    have hno : reply.ok = false := hok.2 hfails
    refine ⟨reply, after, hrun, hno, ?_⟩
    rcases hunwritten hno with hsame | ⟨hcued, -⟩
    · exact hsame.1
    · exact absurd hcued (NameSet.not_mem_empty _)

end ControlRig
