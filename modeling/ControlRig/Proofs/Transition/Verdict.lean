import ControlRig.Proofs.Transition.Strictness
import ControlRig.Proofs.Transition.Sweeping

/-!
# What a transition makes of its verification

A transition approaches its verification (`approach`), verifies what it has loaded, and goes on with
the outcomes, whatever they are (`proceed`); that is all of it (`run_eq_proceed`). If one outcome is
bad it ends there: it fails with the names of those that are, and **does not even ask to start a
controller**, neither before nor after (`proceed_unready`).

Which outcomes there are is not up to the transition. `verification_outcome` puts the two together,
for every order in which the workers may go on.
-/

namespace ControlRig

/-- An action that starts no controllers. -/
def Action.StartsNothing : Action → Prop
  | .call (.startControllers ..) _ => False
  | _ => True

/-- An observation of something else than a start of controllers. -/
def Observation.StartsNothing : Observation → Prop
  | .called (.startControllers ..) _ _ => False
  | _ => True

namespace Procedure

variable {α : Type}

/-- A procedure that does not ask for a start sees none. -/
theorem Asks.startsNothing {p : Procedure α} (h : p.Asks Action.StartsNothing)
    {seen : List Observation} {result : Option α} (hgo : p.Goes seen result) :
    ∀ o ∈ seen, o.StartsNothing := by
  refine h.observes ?_ hgo
  intro action answer hact o ho
  cases action with
  | call operation limit =>
    cases answer with
    | none => exact absurd ho List.not_mem_nil
    | some told =>
      cases List.mem_singleton.1 ho
      cases operation with
      | startControllers => exact absurd hact id
      | _ => trivial
  | readState resource | hasEntry key =>
    cases answer with
    | none => exact absurd ho List.not_mem_nil
    | some told =>
      cases List.mem_singleton.1 ho
      trivial
  | _ => exact absurd ho List.not_mem_nil

end Procedure

namespace Verification

/-! ## The names of those that failed -/

theorem mem_failures_iff {outcomes : SortedMap Bool} {resource : String} :
    resource ∈ failures outcomes ↔ outcomes.find? resource = some false := by
  rw [SortedMap.find?_eq_some_iff]
  constructor
  · intro h
    obtain ⟨⟨name, outcome⟩, hmem, rfl⟩ := List.mem_map.1 h
    obtain ⟨hentry, hfalse⟩ := List.mem_filter.1 hmem
    cases outcome with
    | true => cases hfalse
    | false => exact hentry
  · exact fun h => List.mem_map.2 ⟨(resource, false), List.mem_filter.2 ⟨h, rfl⟩, rfl⟩

theorem failures_increasing (outcomes : SortedMap Bool) :
    (failures outcomes).Pairwise (· < ·) :=
  List.pairwise_map.2 (outcomes.increasing.filter _)

end Verification

namespace Transition

open Procedure

/-! ## The verification, cut out of a transition -/

/-- The phases before the verification: what was loaded and the plan, or where it stopped. -/
def approach (active target : Option Configuration) (limit : Duration) :
    Procedure (Except Attempt (List String × TransitionRecord)) := do
  match ← call .listLoaded limit with
  | .error e => return .error (.refused (.registryQuery e))
  | .ok loaded =>
    match ← checkParameters target with
    | .error e => return .error (.refused e)
    | .ok () =>
      match ← synchronize limit (.plan active target (.ofList loaded)) with
      | .error e => return .error (.refused e)
      | .ok record =>
        let (loaded, error) ← loadAll limit record.toLoad.names
        match error with
        | some e => return .error (.failed loaded e)
        | none => return .ok (loaded, record)

/-- What follows on a verification with these outcomes. -/
def proceed (options : Options) (target : Option Configuration) (strictness : Strictness)
    (limit : Duration) (loaded : List String) (record : TransitionRecord)
    (outcomes : SortedMap Bool) : Procedure (Except ManagerError TransitionRecord) :=
  match Verification.failures outcomes with
  | [] =>
    engage options.rollback target strictness limit
      (.ok (loaded, { record with verification := outcomes }))
  | failed =>
    conclude options.rollback limit
      (.failed loaded (.resourceVerification failed options.verification.timeout))

/-- The phases from the verification on, if it comes to that; what is not loaded is not verified. -/
def verifyAndProceed (options : Options) (target : Option Configuration) (strictness : Strictness)
    (limit : Duration) :
    Except Attempt (List String × TransitionRecord) →
      Procedure (Except ManagerError TransitionRecord)
  | .error attempt => conclude options.rollback limit attempt
  | .ok (loaded, record) =>
    if record.toLoad.isEmpty then
      engage options.rollback target strictness limit (.ok (loaded, record))
    else Verification.run options.verification record.toLoad >>=
      proceed options target strictness limit loaded record

theorem run_eq_proceed (options : Options) (active target : Option Configuration)
    (strictness : Strictness) (limit : Duration) :
    run options active target strictness limit =
      approach active target limit >>=
        verifyAndProceed options target strictness limit := by
  rw [run_eq_engage]
  unfold prepare approach
  simp only [bind_assoc]
  congr 1
  funext listing
  cases listing with
  | error e => rfl
  | ok loaded =>
    simp only [bind_assoc]
    congr 1
    funext checked
    cases checked with
    | error e => rfl
    | ok u =>
      simp only [bind_assoc]
      congr 1
      funext synchronized
      cases synchronized with
      | error e => rfl
      | ok record =>
        simp only [bind_assoc]
        congr 1
        funext loads
        obtain ⟨loaded, error⟩ := loads
        cases error with
        | some e => rfl
        | none =>
          unfold verify
          simp only [pure_eq, done_bind, verifyAndProceed]
          split
          · rfl
          · simp only [bind_assoc]
            congr 1
            funext outcomes
            unfold proceed
            cases Verification.failures outcomes <;> rfl

/-! ## No start before or after a failure -/

theorem firstUnmet_startsNothing (requirements : List Requirement) :
    (firstUnmet requirements).Asks Action.StartsNothing := by
  induction requirements with
  | nil => trivial
  | cons requirement rest ih =>
    refine asks_bind (asks_of trivial) fun there => ?_
    cases there with
    | false => trivial
    | true => exact ih

theorem checkParameters_startsNothing (target : Option Configuration) :
    (checkParameters target).Asks Action.StartsNothing := by
  cases target with
  | none => trivial
  | some t =>
    refine asks_bind (firstUnmet_startsNothing _) fun unmet => ?_
    cases unmet <;> trivial

theorem synchronize_startsNothing (limit : Duration) (record : TransitionRecord) :
    (synchronize limit record).Asks Action.StartsNothing := by
  unfold synchronize
  split
  · trivial
  · refine asks_bind (asks_of trivial) fun _ => asks_bind (asks_of trivial) fun answer => ?_
    cases answer <;> trivial

theorem loadAll_startsNothing (limit : Duration) (names : List String) :
    (loadAll limit names).Asks Action.StartsNothing := by
  induction names with
  | nil => trivial
  | cons name rest ih =>
    refine asks_bind (asks_of trivial) fun _ => asks_bind (asks_of trivial) fun answer => ?_
    cases answer with
    | error e => trivial
    | ok told => exact asks_bind ih fun _ => trivial

theorem approach_startsNothing (active target : Option Configuration) (limit : Duration) :
    (approach active target limit).Asks Action.StartsNothing := by
  refine asks_bind (asks_of trivial) fun listing => ?_
  cases listing with
  | error e => trivial
  | ok loaded =>
    refine asks_bind (checkParameters_startsNothing target) fun checked => ?_
    cases checked with
    | error e => trivial
    | ok u =>
      refine asks_bind (synchronize_startsNothing limit _) fun synchronized => ?_
      cases synchronized with
      | error e => trivial
      | ok record =>
        refine asks_bind (loadAll_startsNothing limit _) fun loads => ?_
        obtain ⟨loaded, error⟩ := loads
        cases error <;> trivial

theorem verification_startsNothing (options : Verification.Options) (resources : NameSet) :
    (Verification.run options resources).Asks Action.StartsNothing := by
  refine ((Verification.run_passive options resources).mono fun action hwatches => ?_).asks
  cases action with
  | call operation limit => exact absurd hwatches id
  | _ => trivial

theorem mention_startsNothing (failure : String) (answer : Operation.Answer) :
    (mention failure answer).Asks Action.StartsNothing := by
  cases answer with
  | error e => exact asks_of trivial
  | ok told => trivial

theorem rollBack_startsNothing (policy : RollbackPolicy) (limit : Duration) (loaded : List String) :
    (rollBack policy limit loaded).Asks Action.StartsNothing := by
  rw [rollBack_eq]
  split
  · exact asks_bind (asks_of trivial) fun _ => asks_bind (asks_of trivial) fun stopped =>
      asks_bind (mention_startsNothing _ stopped) fun _ =>
        asks_bind (asks_of trivial) fun unloaded => mention_startsNothing _ unloaded
  · trivial

theorem conclude_startsNothing (policy : RollbackPolicy) (limit : Duration) (attempt : Attempt) :
    (conclude policy limit attempt).Asks Action.StartsNothing := by
  cases attempt with
  | refused e => trivial
  | settled record => trivial
  | failed loaded e =>
    exact asks_bind (asks_of trivial) fun _ =>
      asks_bind (rollBack_startsNothing policy limit loaded) fun _ => trivial

/-- **With one bad outcome a transition fails, names all that are bad, and starts nothing.** -/
theorem proceed_unready {options : Options} {target : Option Configuration}
    {strictness : Strictness} {limit : Duration} {loaded : List String} {record : TransitionRecord}
    {outcomes : SortedMap Bool} {resource : String} (h : outcomes.find? resource = some false) :
    (proceed options target strictness limit loaded record outcomes).Asks Action.StartsNothing ∧
      ∀ seen outcome,
        (proceed options target strictness limit loaded record outcomes).Goes seen (some outcome) →
        outcome = .error (.resourceVerification (Verification.failures outcomes)
          options.verification.timeout) := by
  have hmem := Verification.mem_failures_iff.2 h
  unfold proceed
  cases hfailed : Verification.failures outcomes with
  | nil =>
    rw [hfailed] at hmem
    exact absurd hmem List.not_mem_nil
  | cons first rest =>
    exact ⟨conclude_startsNothing _ _ _, fun seen outcome hgoes => (goes_conclude hgoes).1⟩

/-- A transition that comes to its verification does what follows on the outcomes. -/
theorem run_verified {options : Options} {active target : Option Configuration}
    {strictness : Strictness} {limit : Duration} {rig mid after : Rig} {loaded : List String}
    {record : TransitionRecord} {outcomes : SortedMap Bool}
    (happroach : (approach active target limit).run rig = (some (.ok (loaded, record)), mid))
    (hdue : record.toLoad ≠ ∅)
    (hverify : (Verification.run options.verification record.toLoad).run mid =
      (some outcomes, after)) :
    (run options active target strictness limit).run rig =
        (proceed options target strictness limit loaded record outcomes).run after ∧
      (run options active target strictness limit).history rig =
        (approach active target limit).history rig ++
          ((Verification.run options.verification record.toLoad).history mid ++
            (proceed options target strictness limit loaded record outcomes).history after) := by
  have hrest : verifyAndProceed options target strictness limit (.ok (loaded, record)) =
      Verification.run options.verification record.toLoad >>=
        proceed options target strictness limit loaded record :=
    if_neg fun hempty => hdue (NameSet.isEmpty_iff.1 hempty)
  rw [run_eq_proceed]
  constructor
  · rw [run_bind, happroach]
    show (verifyAndProceed options target strictness limit (.ok (loaded, record))).run mid = _
    rw [hrest, run_bind, hverify]
  · rw [history_bind happroach, hrest, history_bind hverify]

/-- **The outcome of a verification.** In whatever order the workers go on, however few they are,
and whenever they probe: a verification is never stuck, and comes to an end when its deadlines have
passed; then it has exactly one entry for each resource, each of which has been probed, and an entry
is good if and only if its resource was found ready. If an entry is bad, the transition fails with
the names of all bad ones in order, and starts no controller. -/
theorem verification_outcome (options : Options) :
    (∀ resources begun events p,
      (Verification.Polling.start options.verification resources begun).run? events = some p →
      (p.isOver = false → ∀ moment, p.now ≤ moment → ∀ reading,
        ∃ event ∈ [.queue moment, .spawn p.ceiling, .take 0, .probe 0 moment reading, .takeOver],
          ∃ next, p.step? event = some next) ∧
      (p.Late → ∀ more q, p.run? more = some q → more.length ≤ p.weight) ∧
      (p.isOver = true → p.Decides options.verification resources)) ∧
    (∀ outcomes resource, resource ∈ Verification.failures outcomes ↔
      outcomes.find? resource = some false) ∧
    (∀ outcomes, (Verification.failures outcomes).Pairwise (· < ·)) ∧
    (∀ target strictness limit loaded record outcomes resource,
      outcomes.find? resource = some false →
      ∀ seen result,
        (proceed options target strictness limit loaded record outcomes).Goes seen result →
        (∀ outcome, result = some outcome → outcome = .error (.resourceVerification
          (Verification.failures outcomes) options.verification.timeout)) ∧
        ∀ o ∈ seen, o.StartsNothing) ∧
    ∀ active target strictness limit rig loaded record mid outcomes after,
      (approach active target limit).run rig = (some (.ok (loaded, record)), mid) →
      record.toLoad ≠ ∅ →
      (Verification.run options.verification record.toLoad).run mid = (some outcomes, after) →
      (∃ events p,
        (Verification.Polling.start options.verification record.toLoad mid.clock).run? events =
          some p ∧ p.isOver = true ∧ p.outcomes = outcomes) ∧
      (run options active target strictness limit).run rig =
        (proceed options target strictness limit loaded record outcomes).run after ∧
      ∀ resource, outcomes.find? resource = some false →
        (rig.armed = ∅ → ((run options active target strictness limit).run rig).1 =
          some (.error (.resourceVerification (Verification.failures outcomes)
            options.verification.timeout))) ∧
        ∀ o ∈ (run options active target strictness limit).history rig, o.StartsNothing := by
  refine ⟨fun resources begun events p hrun => ?_,
    fun outcomes resource => Verification.mem_failures_iff, Verification.failures_increasing,
    fun target strictness limit loaded record outcomes resource hbad seen result hgoes => ?_,
    fun active target strictness limit rig loaded record mid outcomes after happroach hdue
      hverify => ?_⟩
  · have haccounted :=
      (Verification.Polling.Accounted.start options.verification resources begun).run hrun
    have htold := (Verification.Polling.Told.start options.verification resources begun).run
      (.start options.verification resources begun) hrun
    exact ⟨fun running moment => Verification.Polling.exists_step running,
      fun late more q => late.length_le haccounted,
      Verification.Polling.decides_of_isOver haccounted htold⟩
  · obtain ⟨hasks, hfails⟩ := proceed_unready hbad
    refine ⟨fun outcome houtcome => ?_, hasks.startsNothing hgoes⟩
    subst houtcome
    exact hfails seen outcome hgoes
  · obtain ⟨hrun, hhistory⟩ := run_verified happroach hdue hverify
    refine ⟨Verification.polling_of_run hverify, hrun, fun resource hbad =>
      ⟨fun calm => ?_, fun o ho => ?_⟩⟩
    · obtain ⟨outcome, final, hreturns⟩ :=
        (run_in_order options active target strictness limit rig).1 calm
      rw [hreturns] at hrun ⊢
      have hgoes := goes_of_run (congrArg Prod.fst hrun.symm)
      exact congrArg some ((proceed_unready hbad).2 _ outcome hgoes)
    rw [hhistory] at ho
    rcases List.mem_append.1 ho with ho | ho
    · exact (approach_startsNothing active target limit).startsNothing (goes_history _ rig) o ho
    rcases List.mem_append.1 ho with ho | ho
    · exact (verification_startsNothing options.verification record.toLoad).startsNothing
        (goes_history _ mid) o ho
    · exact (proceed_unready hbad).1.startsNothing (goes_history _ after) o ho

/-- With one worker the second poll begins after its deadline, and still finds its resource ready. A
transition to welding finds that the gun has not come up. -/
theorem verification_outcome_queued :
    let options : Options := ⟨⟨.ofMillis 1, 1000, 0⟩, .unloadLoaded⟩
    let resources : NameSet := .ofList ["gun", "torch"]
    let events : List Verification.Polling.Event :=
      [.queue ⟨0⟩, .queue ⟨0⟩, .spawn 1, .take 0, .probe 0 ⟨0⟩ (some .loading),
        .probe 0 ⟨1000000⟩ (some .loading), .take 0, .probe 0 ⟨5000000⟩ (some .running), .take 0]
    let rig : Rig := { whileHandling with registry := SimRegistry.whileHandling.stall "gun" }
    (∃ p, (Verification.Polling.start options.verification resources .start).run? events = some p ∧
      p.isOver = true ∧ p.outcomes.entries = [("gun", false), ("torch", true)] ∧
      p.Decides options.verification resources) ∧
    ∃ failed, failed.Pairwise (· < ·) ∧ "gun" ∈ failed ∧
      ((run options (some .handling) (some .welding) .strict .zero).run rig).1 =
        some (.error (.resourceVerification failed (.ofMillis 1))) ∧
      ∀ o ∈ (run options (some .handling) (some .welding) .strict .zero).history rig,
        o.StartsNothing := by
  intro options resources events rig
  obtain ⟨hpolling, hmem, hincreasing, -, htransition⟩ := verification_outcome options
  constructor
  · obtain ⟨p, hrun, hover, hentries⟩ :
        ∃ p, (Verification.Polling.start options.verification resources .start).run? events =
          some p ∧ p.isOver = true ∧ p.outcomes.entries = [("gun", false), ("torch", true)] :=
      ⟨_, rfl, by decide +kernel, by decide +kernel⟩
    exact ⟨p, hrun, hover, hentries, (hpolling _ _ _ p hrun).2.2 hover⟩
  · obtain ⟨loaded, record, mid, happroach, hdue, hread⟩ :
        ∃ loaded record mid,
          (approach (some .handling) (some .welding) .zero).run rig =
            (some (.ok (loaded, record)), mid) ∧ record.toLoad ≠ ∅ ∧
          ((Verification.run options.verification record.toLoad).run mid).1.bind (·.find? "gun") =
            some false :=
      ⟨_, _, _, rfl, by decide +kernel, by decide +kernel⟩
    obtain ⟨outcomes, hfirst, hgun⟩ := Option.bind_eq_some_iff.1 hread
    obtain ⟨after, hverify⟩ :
        ∃ after, (Verification.run options.verification record.toLoad).run mid =
          (some outcomes, after) := ⟨_, Prod.ext hfirst rfl⟩
    obtain ⟨-, -, hbad⟩ := htransition (some .handling) (some .welding) .strict .zero rig loaded
      record mid outcomes after happroach hdue hverify
    obtain ⟨hfails, hnothing⟩ := hbad "gun" hgun
    exact ⟨_, hincreasing outcomes, (hmem outcomes "gun").2 hgun, hfails rfl, hnothing⟩

end Transition

end ControlRig
