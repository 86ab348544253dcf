import ControlRig.Proofs.Rig.Mirroring
import ControlRig.Proofs.Transition.Advance
import ControlRig.Proofs.Transition.Promptness

/-!
# A verification that is a foregone conclusion

Where resources need no time to initialize, whether one is ready is settled before it is polled
(`SimRegistry.ready`). Then **the outcomes of a verification are known in advance, however long it
takes** (`ensures_run`): a resource that is ready is found so by its first probe, and one that is
not keeps its worker until the time is out, when the polls behind it get their turn. As in
`ControlRig.Proofs.Transition.Promptness` the sweeps last until then; time that passes meanwhile
only brings it nearer.
-/

namespace ControlRig

/-- Whether a resource is ready that needs no time to initialize. -/
def SimRegistry.ready (r : SimRegistry) (resource : String) : Bool :=
  (r.undated.stateAt .start resource).isReady

namespace Verification

open Procedure

variable {poller : Poller} {rig : Rig} {resources : List String} {outcomes : SortedMap Bool}

def Late (poller : Poller) (rig : Rig) : Prop := poller.timeout ≤ rig.clock.since poller.started

theorem Late.later {after : Rig} (h : Late poller rig) (later : rig.clock ≤ after.clock) :
    Late poller after := by
  have htime : poller.timeout.nanos ≤ rig.clock.nanos - poller.started.nanos := h
  have hclock : rig.clock.nanos ≤ after.clock.nanos := later
  show poller.timeout.nanos ≤ after.clock.nanos - poller.started.nanos
  omega

/-- A probe tells the truth, or it tells nothing and the time is not out. -/
theorem ensures_probe (calm : rig.armed = ∅) (prompt : rig.registry.initDelay = .zero)
    (resource : String) :
    (probe poller resource).Ensures (fun outcome after => rig.Lingers after ∧
      (outcome = some (rig.registry.ready resource) ∨ outcome = none ∧ ¬ Late poller rig)) rig := by
  unfold probe
  refine (ensures_readState calm resource).attempt.bind ?_
  rintro _ mid ⟨state, rfl, begun, hbegun, hmid, rfl⟩
  have hstart := hbegun.trans hmid
  -- the reading is not lost, so there is no message
  show Procedure.Ensures (now >>= fun t => .done (verdict poller t (some (begun.stateOf resource))))
    _ mid
  have hready : (begun.stateOf resource).isReady = rig.registry.ready resource := by
    rw [Rig.stateOf, hbegun.registry, SimRegistry.stateAt_undated prompt]
    rfl
  refine (ensures_now (hstart.calm calm)).bind ?_
  rintro t last ⟨hlast, ht, -⟩
  refine ensures_done fun after hafter => ⟨hstart.trans (hlast.trans hafter), ?_⟩
  rw [verdict, hready]
  cases rig.registry.ready resource with
  | true => exact .inl rfl
  | false =>
    by_cases hlate : poller.timeout ≤ t.since poller.started
    · exact .inl (by simp [Poller.check, hlate])
    · refine .inr ⟨by simp [Poller.check, hlate], fun h => hlate ?_⟩
      have hthen : Late poller { rig with clock := t } := h.later (Nat.le_trans hstart.clock ht)
      exact hthen

/-- The outcomes are of some resources and tell the truth. -/
def Tells (r : SimRegistry) (resources : List String) (outcomes : SortedMap Bool) : Prop :=
  ∀ key outcome, outcomes.find? key = some outcome → key ∈ resources ∧ outcome = r.ready key

theorem Tells.insert {r : SimRegistry} (h : Tells r resources outcomes) {resource : String}
    (mem : resource ∈ resources) :
    Tells r resources (outcomes.insert resource (r.ready resource)) := by
  intro key outcome hfind
  by_cases hkey : resource = key
  · subst hkey
    rw [SortedMap.find?_insert_self] at hfind
    exact ⟨mem, (Option.some.inj hfind).symm⟩
  · rw [SortedMap.find?_insert_of_ne _ hkey] at hfind
    exact h key outcome hfind

/-- What a stretch of polling comes to: those that remain are among the resources, the outcomes are
true, and when the time is out nobody goes on. -/
structure Proceeds (poller : Poller) (rig : Rig) (resources : List String) (after : Rig)
    (going remaining : List String) (outcomes : SortedMap Bool) : Prop where
  lingers : rig.Lingers after
  known : ∀ resource ∈ going ++ remaining, resource ∈ resources
  tells : Tells rig.registry resources outcomes
  settled : Late poller rig → going = []

theorem ensures_takeNext {waiting : List String} (calm : rig.armed = ∅)
    (prompt : rig.registry.initDelay = .zero) (known : ∀ resource ∈ waiting, resource ∈ resources)
    (tells : Tells rig.registry resources outcomes) :
    (takeNext poller outcomes waiting).Ensures (fun taken after =>
      Proceeds poller rig resources after taken.1.toList taken.2.1 taken.2.2) rig := by
  induction waiting generalizing rig outcomes with
  | nil => exact ensures_done fun after hafter => ⟨hafter, known, tells, fun _ => rfl⟩
  | cons resource rest ih =>
    unfold takeNext
    refine (ensures_probe calm prompt resource).bind ?_
    rintro _ mid ⟨hmid, rfl | ⟨rfl, hearly⟩⟩
    · -- the poll is settled at once, so the worker takes the next
      have htells := tells.insert (known resource List.mem_cons_self)
      rw [← hmid.registry] at htells ⊢
      refine Ensures.mono (ih (hmid.calm calm) (hmid.prompt prompt)
        (fun other ho => known other (List.mem_cons_of_mem _ ho)) htells) ?_
      rintro taken after ⟨hlingers, hknown, htold, hsettled⟩
      rw [hmid.registry] at htold
      exact ⟨hmid.trans hlingers, hknown, htold, fun h => hsettled (h.later hmid.clock)⟩
    · exact ensures_done fun after hafter =>
        ⟨hmid.trans hafter, known, tells, fun h => absurd h hearly⟩

theorem ensures_sweep {busy waiting : List String} (calm : rig.armed = ∅)
    (prompt : rig.registry.initDelay = .zero)
    (known : ∀ resource ∈ busy ++ waiting, resource ∈ resources)
    (tells : Tells rig.registry resources outcomes) :
    (sweep poller busy waiting outcomes).Ensures (fun progress after =>
      Proceeds poller rig resources after progress.busy progress.waiting progress.outcomes)
      rig := by
  induction busy generalizing rig waiting outcomes with
  | nil => exact ensures_done fun after hafter => ⟨hafter, known, tells, fun _ => rfl⟩
  | cons resource others ih =>
    have hmem : resource ∈ resources := known resource List.mem_cons_self
    have hothers : ∀ other ∈ others, other ∈ resources := fun other ho =>
      known other (List.mem_cons_of_mem _ (List.mem_append_left _ ho))
    unfold sweep
    refine (ensures_probe calm prompt resource).bind ?_
    rintro _ mid ⟨hmid, rfl | ⟨rfl, hearly⟩⟩
    · -- this worker goes on to the queue, and what it leaves there is for the others
      have htells := tells.insert hmem
      have hwaiting : ∀ other ∈ waiting, other ∈ resources := fun other ho =>
        known other (List.mem_cons_of_mem _ (List.mem_append_right _ ho))
      rw [← hmid.registry] at htells ⊢
      refine (ensures_takeNext (hmid.calm calm) (hmid.prompt prompt) hwaiting htells).bind ?_
      rintro ⟨next, left, found⟩ last ⟨hlast, hleft, htold, hfirst⟩
      have hboth := hmid.trans hlast
      refine (ih (hboth.calm calm) (hboth.prompt prompt)
        (fun other ho => ?_) (by rw [hlast.registry]; exact htold)).bind ?_
      · rcases List.mem_append.1 ho with ho | ho
        · exact hothers other ho
        · exact hleft other (List.mem_append_right _ ho)
      · rintro progress final ⟨hfinal, hrest, hagain, hsettled⟩
        rw [hboth.registry] at hagain
        refine ensures_done fun after hafter =>
          ⟨hboth.trans (hfinal.trans hafter), fun other ho => ?_, hagain, fun hlate => ?_⟩
        · rw [List.append_assoc] at ho
          rcases List.mem_append.1 ho with ho | ho
          · exact hleft other (List.mem_append_left _ ho)
          · exact hrest other ho
        · rw [hfirst (hlate.later hmid.clock), hsettled (hlate.later hboth.clock)]
          rfl
    · refine (ih (hmid.calm calm) (hmid.prompt prompt)
        (fun other ho => known other (List.mem_cons_of_mem _ ho))
        (by rw [hmid.registry]; exact tells)).bind ?_
      rintro progress final ⟨hfinal, hrest, hagain, -⟩
      rw [hmid.registry] at hagain
      refine ensures_done fun after hafter =>
        ⟨hmid.trans (hfinal.trans hafter), fun other ho => ?_, hagain,
          fun hlate => absurd hlate hearly⟩
      rcases List.mem_cons.1 ho with rfl | ho
      · exact hmem
      · exact hrest other ho

theorem Covers.later {rounds : Nat} {t t' : Instant} (h : Covers poller rounds t)
    (later : t ≤ t') : Covers poller rounds t' :=
  Nat.le_trans h (Nat.add_le_add_right later _)

theorem ensures_sweeps {rounds : Nat} {progress : Progress} (calm : rig.armed = ∅)
    (prompt : rig.registry.initDelay = .zero)
    (known : ∀ resource ∈ progress.busy ++ progress.waiting, resource ∈ resources)
    (tells : Tells rig.registry resources progress.outcomes)
    (covers : Covers poller rounds rig.clock) :
    (sweeps poller (rounds + 1) progress).Ensures (fun found after =>
      rig.Lingers after ∧ Tells rig.registry resources found) rig := by
  induction rounds generalizing rig progress with
  | zero =>
    -- this is the last sweep, and by `covers` it comes when the time is out
    have hlate : Late poller rig := by
      unfold Covers at covers
      show poller.timeout.nanos ≤ rig.clock.nanos - poller.started.nanos
      omega
    unfold sweeps
    refine (ensures_sweep calm prompt known tells).bind ?_
    rintro ⟨busy, waiting, found⟩ mid ⟨hmid, -, htold, hsettled⟩
    cases hsettled hlate
    exact ensures_done fun after hafter => ⟨hmid.trans hafter, htold⟩
  | succ rounds ih =>
    unfold sweeps
    refine (ensures_sweep calm prompt known tells).bind ?_
    rintro q mid ⟨hmid, hknown, htold, -⟩
    split
    · exact ensures_done fun after hafter => ⟨hmid.trans hafter, htold⟩
    · refine (ensures_sleep mid poller.pause).bind ?_
      rintro _ last ⟨hlast, hclock⟩
      have hboth := hmid.trans hlast
      have hcovers : Covers poller rounds last.clock := by
        refine (Covers.next covers).later (Nat.le_trans ?_ hclock)
        exact Nat.add_le_add_right hmid.clock _
      refine Ensures.mono (ih (hboth.calm calm) (hboth.prompt prompt) hknown
        (by rw [hboth.registry]; exact htold) hcovers) ?_
      rintro found after ⟨hafter, htells⟩
      rw [hboth.registry] at htells
      exact ⟨hboth.trans hafter, htells⟩

/-- **However long a verification takes, its outcomes are those that could be told before.** -/
theorem ensures_run (options : Options) (resources : NameSet) (calm : rig.armed = ∅)
    (prompt : rig.registry.initDelay = .zero) :
    (run options resources).Ensures (fun outcomes after => rig.Lingers after ∧
      ∀ key, outcomes.find? key =
        if key ∈ resources then some (rig.registry.ready key) else none) rig := by
  unfold run
  refine (ensures_now calm).bind ?_
  rintro t mid ⟨hmid, -, ht⟩
  have hcalm := hmid.calm calm
  have hknown : ∀ resource ∈ (Progress.start options resources.names).busy ++
      (Progress.start options resources.names).waiting, resource ∈ resources.names := by
    intro resource hm
    have hall : (Progress.start options resources.names).busy ++
        (Progress.start options resources.names).waiting = resources.names :=
      List.take_append_drop _ _
    rwa [hall] at hm
  obtain ⟨rounds, hrounds, hcovers⟩ :=
    covers_iterations (Poller.start t options.rateHz options.timeout)
  have hsweeps := ensures_sweeps hcalm (hmid.prompt prompt) hknown
    (fun _ _ hfind => nomatch hfind) (hcovers.later ht)
  rw [← hrounds] at hsweeps
  -- no poll is lost on the way to the outcomes
  refine (hsweeps.goes hcalm (sweeps_passive _ _ _).asks).bind ?_
  rintro outcomes last ⟨⟨hlast, htells⟩, seen, hgo⟩
  rw [hmid.registry] at htells
  have hlead := goes_sweeps hgo (Progress.start_manned options resources.names)
  have hboth := hmid.trans hlast
  refine ((reportFailures_passive _ _ _).lingers (hboth.calm calm)).bind ?_
  intro _ final hfinal
  refine ensures_done fun after hafter => ⟨hboth.trans (hfinal.trans hafter), fun key => ?_⟩
  by_cases hkey : key ∈ resources
  · rw [if_pos hkey]
    rcases hlead.knows key (Progress.start_knows hkey) with hbusy | hwait | hfound
    · exact absurd hbusy List.not_mem_nil
    · exact absurd hwait List.not_mem_nil
    · obtain ⟨outcome, hfind⟩ := Option.isSome_iff_exists.1 hfound
      rw [← (htells key outcome hfind).2]
      exact hfind
  · rw [if_neg hkey]
    cases hfind : outcomes.find? key with
    | none => rfl
    | some outcome => exact absurd (htells key outcome hfind).1 hkey

theorem mirrors_run (options : Options) (resources : NameSet) :
    (run options resources).Mirrors Eq (run options resources) := by
  intro rig other hsame steady
  have hsteady := hsame.steady steady
  obtain ⟨outcomes, final, hrun, hfinal, htells⟩ :=
    (ensures_run options resources hsteady.calm hsteady.prompt).run hsteady.calm
  refine (ensures_run options resources steady.calm steady.prompt).mono ?_
  rintro outcomes' after ⟨hafter, htells'⟩
  refine ⟨outcomes, final, hrun, SortedMap.ext_find? fun key => ?_,
    hafter.resembles.trans (hsame.trans hfinal.resembles.symm), steady.later hafter⟩
  have hready : rig.registry.ready key = other.registry.ready key := by
    rw [SimRegistry.ready, hsame.registry, SimRegistry.ready]
  rw [htells, htells', hready]

end Verification

namespace Transition

open Procedure

/-- **A transition mirrors itself.** -/
theorem mirrors_run (options : Options) (active target : Option Configuration)
    (strictness : Strictness) (limit : Duration) :
    (run options active target strictness limit).Mirrors Eq
      (run options active target strictness limit) := by
  have hparts : Parts fun {α} (p : Procedure α) => p.Mirrors Eq p :=
    { compositional_mirrors with
      call := mirrors_call
      hasEntry := mirrors_hasEntry
      log := fun level message => mirrors_log level level message message
      verification := Verification.mirrors_run }
  exact hparts.run options target strictness limit active

end Transition

end ControlRig
