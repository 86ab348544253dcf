import ControlRig.Proofs.Rig.Frame
import ControlRig.Transition.Verification

/-!
# What a verification has seen

A verification makes no calls: it reads states, pauses and logs (`run_passive`). Its outcome is to
be believed in one direction, and that is the direction a transition relies on: **if no resource is
among the failures, every resource has reported at least once that it is ready** (`run_ready`). The
other direction does not hold of what was observed, because a failure is followed by one more
reading, for the message, and that one may come out well.

The argument follows the work list. `Progress.Leads` relates what is known before and after a
stretch of polling: no resource gets lost on its way from the queue over a worker to an outcome, and
an outcome that is new and good was read. It composes, so each walk (`takeNext`, `sweep`, `sweeps`)
needs only its own step.
-/

namespace ControlRig

/-- Giving several keys the same value gives it to those and no others. -/
theorem SortedMap.find?_foldl_insert {α : Type} (value : α) (names : List String)
    (m : SortedMap α) (key : String) :
    (names.foldl (·.insert · value) m).find? key =
      if key ∈ names then some value else m.find? key := by
  induction names generalizing m with
  | nil => simp
  | cons n rest ih =>
    rw [List.foldl_cons, ih]
    by_cases hrest : key ∈ rest
    · rw [if_pos hrest, if_pos (List.mem_cons_of_mem _ hrest)]
    · rw [if_neg hrest]
      by_cases hn : n = key
      · subst hn
        rw [find?_insert_self, if_pos List.mem_cons_self]
      · have hne : key ∉ n :: rest := fun hm =>
          (List.mem_cons.1 hm).elim (fun he => hn he.symm) hrest
        rw [find?_insert_of_ne m hn, if_neg hne]

/-- An action of somebody who only watches. -/
def Action.Watches : Action → Prop
  | .readState _ => True
  | .log .. => True
  | .now => True
  | .sleep _ => True
  | _ => False

theorem Action.Watches.spares {action : Action} (h : action.Watches) : action.Spares := by
  cases action <;> trivial

namespace Observation

/-- A resource has reported that it is ready. -/
def Readied (resource : String) (seen : List Observation) : Prop :=
  ∃ state, .reported resource state ∈ seen ∧ state.isReady = true

theorem Readied.left {resource : String} {xs : List Observation} (h : Readied resource xs)
    (ys : List Observation) : Readied resource (xs ++ ys) :=
  let ⟨state, hmem, hready⟩ := h
  ⟨state, List.mem_append_left _ hmem, hready⟩

theorem Readied.right {resource : String} {ys : List Observation} (h : Readied resource ys)
    (xs : List Observation) : Readied resource (xs ++ ys) :=
  let ⟨state, hmem, hready⟩ := h
  ⟨state, List.mem_append_right _ hmem, hready⟩

/-- An observation of somebody who only watches. -/
def IsReport : Observation → Prop
  | .reported .. => True
  | _ => False

theorem IsReport.call? {o : Observation} (h : o.IsReport) : o.call? = none := by
  cases o with
  | reported resource state => rfl
  | called operation limit answer => exact absurd h id
  | lookedUp key found => exact absurd h id

theorem IsReport.loaded? {o : Observation} (h : o.IsReport) : o.loaded? = none := by
  cases o with
  | reported resource state => rfl
  | called operation limit answer => exact absurd h id
  | lookedUp key found => exact absurd h id

end Observation

namespace Verification

open Procedure Observation

/-! ## Nothing but watching -/

theorem probe_passive (poller : Poller) (resource : String) :
    (probe poller resource).Composed Action.Watches := by
  unfold probe
  refine .bind (.attempt (.of _ trivial)) fun reading => ?_
  dsimp only
  split
  · exact .bind (.of _ trivial) fun _ => .bind (.of _ trivial) fun t => .done _
  · exact .bind (.of _ trivial) fun t => .done _

theorem takeNext_passive (poller : Poller) (outcomes : SortedMap Bool) (waiting : List String) :
    (takeNext poller outcomes waiting).Composed Action.Watches := by
  induction waiting generalizing outcomes with
  | nil => exact .done _
  | cons resource rest ih =>
    unfold takeNext
    refine .bind (probe_passive poller resource) fun outcome => ?_
    cases outcome with
    | none => exact .done _
    | some outcome => exact ih _

theorem sweep_passive (poller : Poller) (busy waiting : List String) (outcomes : SortedMap Bool) :
    (sweep poller busy waiting outcomes).Composed Action.Watches := by
  induction busy generalizing waiting outcomes with
  | nil => exact .done _
  | cons resource others ih =>
    unfold sweep
    refine .bind (probe_passive poller resource) fun outcome => ?_
    cases outcome with
    | none => exact .bind (ih _ _) fun progress => .done _
    | some outcome =>
      exact .bind (takeNext_passive poller _ _) fun taken => .bind (ih _ _) fun progress => .done _

theorem sweeps_passive (poller : Poller) (rounds : Nat) (progress : Progress) :
    (sweeps poller rounds progress).Composed Action.Watches := by
  induction rounds generalizing progress with
  | zero => exact .done _
  | succ rounds ih =>
    unfold sweeps
    refine .bind (sweep_passive poller _ _ _) fun progress => ?_
    split
    · exact .done _
    · exact .bind (.of _ trivial) fun _ => ih _

theorem reportFailures_passive (options : Options) (outcomes : SortedMap Bool)
    (names : List String) : (reportFailures options outcomes names).Composed Action.Watches := by
  induction names with
  | nil => exact .done _
  | cons resource rest ih =>
    unfold reportFailures
    dsimp only
    split
    · exact .bind (.of _ trivial) fun state => .bind (.of _ trivial) fun _ => ih
    · exact ih

theorem run_passive (options : Options) (resources : NameSet) :
    (run options resources).Composed Action.Watches := by
  unfold run
  exact .bind (.of _ trivial) fun t => .bind (sweeps_passive _ _ _) fun outcomes =>
    .bind (reportFailures_passive _ _ _) fun _ => .done _

/-- All that a verification observes is reports. -/
theorem run_reports {options : Options} {resources : NameSet} {seen : List Observation}
    {result : Option (SortedMap Bool)} (h : (run options resources).Goes seen result) :
    ∀ o ∈ seen, o.IsReport := by
  refine (run_passive options resources).asks.observes ?_ h
  intro action answer hact o ho
  cases action with
  | readState resource =>
    cases answer with
    | none => exact absurd ho List.not_mem_nil
    | some state =>
      cases List.mem_singleton.1 ho
      trivial
  | log level message | now | sleep d => exact absurd ho List.not_mem_nil
  | _ => exact absurd hact id

/-! ## Nothing gets lost, and nothing is made up -/

/-- A resource has its place in a verification: a worker polls it, it waits in the queue, or its
outcome is known. -/
def Progress.Knows (p : Progress) (resource : String) : Prop :=
  resource ∈ p.busy ∨ resource ∈ p.waiting ∨ (p.outcomes.find? resource).isSome

/-- A stretch of polling that loses no resource and believes only what it has seen. -/
structure Progress.Leads (p : Progress) (seen : List Observation) (q : Progress) : Prop where
  knows : ∀ resource, p.Knows resource → q.Knows resource
  seen : ∀ resource, q.outcomes.find? resource = some true →
    p.outcomes.find? resource = some true ∨ Readied resource seen

namespace Progress.Leads

theorem refl (p : Progress) : p.Leads [] p := ⟨fun _ h => h, fun _ h => .inl h⟩

theorem trans {p q u : Progress} {xs ys : List Observation} (hpq : p.Leads xs q)
    (hqu : q.Leads ys u) : p.Leads (xs ++ ys) u := by
  refine ⟨fun resource h => hqu.knows resource (hpq.knows resource h), fun resource h => ?_⟩
  rcases hqu.seen resource h with hq | hys
  · rcases hpq.seen resource hq with hp | hxs
    · exact .inl hp
    · exact .inr (hxs.left ys)
  · exact .inr (hys.right xs)

/-- More has been observed than was needed. -/
theorem weaken {p q : Progress} {ys : List Observation} (h : p.Leads ys q)
    (xs : List Observation) : p.Leads (xs ++ ys) q :=
  ⟨h.knows, fun resource hq => (h.seen resource hq).imp_right fun hys => hys.right xs⟩

/-- Other workers go on with their polls. -/
theorem beside {p q : Progress} {seen : List Observation} (h : p.Leads seen q)
    (others before after : List String)
    (hbefore : ∀ resource ∈ before, resource ∈ others ∨ resource ∈ p.busy)
    (hafter : ∀ resource, resource ∈ others ∨ resource ∈ q.busy → resource ∈ after) :
    Progress.Leads { p with busy := before } seen { q with busy := after } := by
  refine ⟨fun resource hp => ?_, h.seen⟩
  have hknows : p.Knows resource → Progress.Knows { q with busy := after } resource := by
    intro hk
    rcases h.knows resource hk with hbusy | hrest
    · exact .inl (hafter resource (.inr hbusy))
    · exact .inr hrest
  rcases hp with hbusy | hrest
  · rcases hbefore resource hbusy with hother | hbusy
    · exact .inl (hafter resource (.inl hother))
    · exact hknows (.inl hbusy)
  · exact hknows (.inr hrest)

end Progress.Leads

theorem isReady_of_verdict {poller : Poller} {t : Instant} {state : ResourceState}
    (h : verdict poller t (some state) = some true) : state.isReady = true := by
  cases hr : state.isReady with
  | true => rfl
  | false =>
    by_cases hlate : poller.timeout ≤ t.since poller.started
    · simp [verdict, Poller.check, hr, hlate] at h
    · simp [verdict, Poller.check, hr, hlate] at h

/-- An outcome of a probe is good only if the resource was read to be ready. -/
theorem goes_probe {poller : Poller} {resource : String} {seen : List Observation}
    (h : (probe poller resource).Goes seen (some (some true))) : Readied resource seen := by
  unfold probe at h
  obtain ⟨reading, xs, ys, hread, hrest, rfl⟩ := goes_bind_some.1 h
  rw [goes_attempt] at hread
  dsimp only at hrest
  cases reading with
  | none =>
    -- the probe crashed, and that is a verdict of its own
    obtain ⟨_, _, _, -, hnow, rfl⟩ := goes_bind_some.1 hrest
    obtain ⟨t, _, _, -, hdone, rfl⟩ := goes_bind_some.1 hnow
    cases (goes_done.1 hdone).2
  | some state =>
    rw [goes_readState] at hread
    subst hread
    obtain ⟨t, _, _, -, hdone, rfl⟩ := goes_bind_some.1 hrest
    have hverdict : verdict poller t (some state) = some true := (goes_done.1 hdone).2.symm
    exact ⟨state, List.mem_append_left _ (List.mem_singleton.2 rfl),
      isReady_of_verdict hverdict⟩

/-- A worker takes the next poll. -/
theorem Progress.leads_taken (resource : String) (waiting : List String)
    (outcomes : SortedMap Bool) :
    Progress.Leads ⟨[], resource :: waiting, outcomes⟩ [] ⟨[resource], waiting, outcomes⟩ := by
  refine ⟨fun other hp => ?_, fun other hq => .inl hq⟩
  rcases hp with hbusy | hwait | hdone
  · exact absurd hbusy List.not_mem_nil
  · rcases List.mem_cons.1 hwait with rfl | hwait
    · exact .inl List.mem_cons_self
    · exact .inr (.inl hwait)
  · exact .inr (.inr hdone)

/-- A poll that is settled leaves its worker for the outcomes. -/
theorem Progress.leads_settled {poller : Poller} {resource : String} {seen : List Observation}
    {outcome : Bool} (h : (probe poller resource).Goes seen (some (some outcome)))
    (waiting : List String) (outcomes : SortedMap Bool) :
    Progress.Leads ⟨[resource], waiting, outcomes⟩ seen
      ⟨[], waiting, outcomes.insert resource outcome⟩ := by
  refine ⟨fun other hp => ?_, fun other hq => ?_⟩
  · by_cases ho : resource = other
    · subst ho
      refine .inr (.inr ?_)
      rw [SortedMap.find?_insert_self]
      rfl
    · refine .inr ?_
      rw [SortedMap.find?_insert_of_ne _ ho]
      rcases hp with hbusy | hrest
      · exact absurd (List.mem_singleton.1 hbusy).symm ho
      · exact hrest
  · by_cases ho : resource = other
    · subst ho
      rw [SortedMap.find?_insert_self] at hq
      cases hq
      exact .inr (goes_probe h)
    · rw [SortedMap.find?_insert_of_ne _ ho] at hq
      exact .inl hq

/-- A worker that stops taking polls has found the queue empty. -/
theorem goes_takeNext {poller : Poller} {outcomes found : SortedMap Bool}
    {waiting left : List String} {next : Option String} {seen : List Observation}
    (h : (takeNext poller outcomes waiting).Goes seen (some (next, left, found))) :
    Progress.Leads ⟨[], waiting, outcomes⟩ seen ⟨next.toList, left, found⟩ ∧
      (next = none → left = []) := by
  induction waiting generalizing outcomes seen with
  | nil =>
    obtain ⟨rfl, heq⟩ := goes_done.1 h
    cases heq
    exact ⟨.refl _, fun _ => rfl⟩
  | cons resource rest ih =>
    unfold takeNext at h
    obtain ⟨outcome, xs, ys, hprobe, hrest, rfl⟩ := goes_bind_some.1 h
    have htaken := Progress.leads_taken resource rest outcomes
    cases outcome with
    | none =>
      obtain ⟨rfl, heq⟩ := goes_done.1 hrest
      cases heq
      refine ⟨?_, nofun⟩
      rw [List.append_nil, ← List.append_nil xs]
      exact htaken.weaken xs
    | some outcome =>
      obtain ⟨hlead, hempty⟩ := ih hrest
      exact ⟨(htaken.trans (Progress.leads_settled hprobe rest outcomes)).trans hlead, hempty⟩

/-- A sweep that leaves nobody busy has emptied the queue, unless nobody was busy before. -/
theorem goes_sweep {poller : Poller} {busy waiting : List String} {outcomes : SortedMap Bool}
    {seen : List Observation} {q : Progress}
    (h : (sweep poller busy waiting outcomes).Goes seen (some q)) :
    Progress.Leads ⟨busy, waiting, outcomes⟩ seen q ∧
      (q.busy = [] → q.waiting = [] ∨ (busy = [] ∧ q.waiting = waiting)) := by
  induction busy generalizing waiting outcomes seen q with
  | nil =>
    obtain ⟨rfl, rfl⟩ := goes_done.1 h
    exact ⟨.refl _, fun _ => .inr ⟨rfl, rfl⟩⟩
  | cons resource others ih =>
    unfold sweep at h
    obtain ⟨outcome, xs, ys, hprobe, hrest, rfl⟩ := goes_bind_some.1 h
    cases outcome with
    | none =>
      obtain ⟨u, us, vs, hsweep, hdone, rfl⟩ := goes_bind_some.1 hrest
      obtain ⟨rfl, rfl⟩ := goes_done.1 hdone
      obtain ⟨hlead, -⟩ := ih hsweep
      refine ⟨?_, fun hbusy => absurd hbusy (List.cons_ne_nil _ _)⟩
      rw [List.append_nil]
      exact (hlead.beside [resource] _ _ (by simp) (by simp)).weaken xs
    | some outcome =>
      obtain ⟨⟨next, left, found⟩, us, vs, htake, hlast, rfl⟩ := goes_bind_some.1 hrest
      obtain ⟨u, ws, zs, hsweep, hdone, rfl⟩ := goes_bind_some.1 hlast
      obtain ⟨rfl, rfl⟩ := goes_done.1 hdone
      obtain ⟨htaken, hnone⟩ := goes_takeNext htake
      obtain ⟨hlead, hempty⟩ := ih hsweep
      constructor
      · -- while this worker goes on, the others wait for their turn, and the other way round
        have hfirst := (Progress.leads_settled hprobe waiting outcomes).trans htaken
        have hboth := (hfirst.beside others (resource :: others) (next.toList ++ others)
          (by simp [or_comm]) (by simp [or_comm])).trans
            (hlead.beside next.toList _ (next.toList ++ u.busy) (by simp) (by simp))
        rw [List.append_nil, ← List.append_assoc]
        exact hboth
      · intro hbusy
        obtain ⟨hnext, hu⟩ := List.append_eq_nil_iff.1 hbusy
        have hn : next = none := by
          cases next with
          | none => rfl
          | some n => cases hnext
        rcases hempty hu with hw | ⟨-, hw⟩
        · exact .inl hw
        · exact .inl (hw.trans (hnone hn))

/-- Polls that are never settled count as failed, so they are not lost either. -/
theorem Progress.leads_given_up (p : Progress) :
    p.Leads [] ⟨[], [], (p.busy ++ p.waiting).foldl (·.insert · false) p.outcomes⟩ := by
  refine ⟨fun resource hp => .inr (.inr ?_), fun resource hq => ?_⟩
  · show ((_ : SortedMap Bool).find? resource).isSome
    rw [SortedMap.find?_foldl_insert]
    by_cases hmem : resource ∈ p.busy ++ p.waiting
    · rw [if_pos hmem]
      rfl
    · rw [if_neg hmem]
      rcases hp with hbusy | hwait | hdone
      · exact absurd (List.mem_append_left _ hbusy) hmem
      · exact absurd (List.mem_append_right _ hwait) hmem
      · exact hdone
  · have hfind : (if resource ∈ p.busy ++ p.waiting then some false
        else p.outcomes.find? resource) = some true := by
      rw [← SortedMap.find?_foldl_insert]
      exact hq
    by_cases hmem : resource ∈ p.busy ++ p.waiting
    · rw [if_pos hmem] at hfind
      cases hfind
    · rw [if_neg hmem] at hfind
      exact .inl hfind

/-- From a start where somebody is busy if anybody waits, every resource comes to an outcome. -/
theorem goes_sweeps {poller : Poller} {rounds : Nat} {progress : Progress}
    {seen : List Observation} {outcomes : SortedMap Bool}
    (h : (sweeps poller rounds progress).Goes seen (some outcomes))
    (manned : progress.busy = [] → progress.waiting = []) :
    progress.Leads seen ⟨[], [], outcomes⟩ := by
  induction rounds generalizing progress seen with
  | zero =>
    obtain ⟨rfl, rfl⟩ := goes_done.1 h
    exact progress.leads_given_up
  | succ rounds ih =>
    unfold sweeps at h
    obtain ⟨q, xs, ys, hsweep, hrest, rfl⟩ := goes_bind_some.1 h
    obtain ⟨hlead, hempty⟩ := goes_sweep hsweep
    by_cases hbusy : q.busy = []
    · rw [if_pos (List.isEmpty_iff.2 hbusy)] at hrest
      obtain ⟨rfl, rfl⟩ := goes_done.1 hrest
      -- nobody is busy, so nobody waits: this is where workers matter
      have hwait : q.waiting = [] := by
        rcases hempty hbusy with hw | ⟨hb, hw⟩
        · exact hw
        · rw [hw, manned hb]
      have hq : Progress.mk [] [] q.outcomes = q := by
        obtain ⟨busy, waiting, found⟩ := q
        cases hbusy
        cases hwait
        rfl
      rw [List.append_nil, hq]
      exact hlead
    · rw [if_neg fun he => hbusy (List.isEmpty_iff.1 he)] at hrest
      obtain ⟨_, us, vs, hsleep, hlast, rfl⟩ := goes_bind_some.1 hrest
      rw [goes_sleep] at hsleep
      subst hsleep
      exact hlead.trans (ih hlast fun he => absurd he hbusy)

/-! ## The verdict on all of them -/

/-- With a worker at least, polls that wait keep somebody busy. -/
theorem Progress.start_manned (options : Options) (resources : List String)
    (h : (Progress.start options resources).busy = []) :
    (Progress.start options resources).waiting = [] := by
  have hzero : resources.take (max 1 options.maxWorkers) = [] := h
  rcases List.take_eq_nil_iff.1 hzero with hw | hr
  · exact absurd hw (by omega)
  · show resources.drop _ = []
    rw [hr, List.drop_nil]

theorem Progress.start_knows {options : Options} {resources : List String} {resource : String}
    (h : resource ∈ resources) : (Progress.start options resources).Knows resource := by
  rw [← List.take_append_drop (max 1 options.maxWorkers) resources] at h
  rcases List.mem_append.1 h with htake | hdrop
  · exact .inl htake
  · exact .inr (.inl hdrop)

theorem find?_of_failures_nil {outcomes : SortedMap Bool} {resource : String} {outcome : Bool}
    (h : failures outcomes = []) (hfind : outcomes.find? resource = some outcome) :
    outcome = true := by
  have hmem := SortedMap.find?_eq_some_iff.1 hfind
  cases outcome with
  | true => rfl
  | false =>
    have hfail : resource ∈ failures outcomes :=
      List.mem_map.2 ⟨(resource, false), List.mem_filter.2 ⟨hmem, rfl⟩, rfl⟩
    rw [h] at hfail
    exact absurd hfail List.not_mem_nil

/-- **If nothing has failed, everything has reported to be ready.** -/
theorem run_ready {options : Options} {resources : NameSet} {seen : List Observation}
    {outcomes : SortedMap Bool} (h : (run options resources).Goes seen (some outcomes))
    (good : failures outcomes = []) : ∀ resource ∈ resources, Readied resource seen := by
  intro resource hmem
  unfold run at h
  obtain ⟨t, xs, ys, -, hrest, rfl⟩ := goes_bind_some.1 h
  obtain ⟨found, us, vs, hsweeps, hlast, rfl⟩ := goes_bind_some.1 hrest
  obtain ⟨_, ws, zs, -, hdone, rfl⟩ := goes_bind_some.1 hlast
  obtain ⟨rfl, rfl⟩ := goes_done.1 hdone
  have hlead := goes_sweeps hsweeps (Progress.start_manned options resources.names)
  rcases hlead.knows resource (Progress.start_knows hmem) with hbusy | hwait | hfound
  · exact absurd hbusy List.not_mem_nil
  · exact absurd hwait List.not_mem_nil
  · obtain ⟨outcome, hfind⟩ := Option.isSome_iff_exists.1 hfound
    have htrue : outcomes.find? resource = some true := by
      rw [← find?_of_failures_nil good hfind]
      exact hfind
    rcases hlead.seen resource htrue with hstart | hready
    · exact absurd hstart nofun
    · exact (hready.left _).right xs

end Verification

end ControlRig
