import ControlRig.Proofs.TaskPool
import ControlRig.Proofs.Transition.Readiness
import ControlRig.Transition.Polling

/-!
# What a verification finds out, in any order

Two invariants. No poll gets lost: it waits, a worker has it, or it has an outcome, and never two of
these (`Accounted`). And outcomes are what was read: a good one goes with a probe that found the
resource ready, a bad one with a probe that crashed or came after the deadline (`Told`). The second
needs the first, for a probe that is made later would spoil an outcome that is there already, and it
is because the poll is in the hands of its worker that there is none.

When all is over only outcomes are left (`decides_of_isOver`). That it comes to this is a matter of
time alone: something can always happen (`exists_step`), and when the last deadline has passed every
event takes some of the weight away (`length_le_weight`).
-/

namespace ControlRig

/-- A new key is one more. -/
theorem Entries.keys_insert_perm {α : Type} {entries : List (String × α)} {key : String}
    (h : key ∉ keys entries) (value : α) :
    (keys (insert key value entries)).Perm (key :: keys entries) := by
  induction entries with
  | nil => exact .refl _
  | cons e rest ih =>
    obtain ⟨k, v⟩ := e
    have hne : k ≠ key := fun heq => h (heq ▸ List.mem_cons_self)
    have hrest : key ∉ keys rest := fun hmem => h (List.mem_cons_of_mem _ hmem)
    unfold insert
    rw [if_neg hne]
    split
    · exact .refl _
    · exact ((ih hrest).cons k).trans (.swap key k _)

namespace Verification

/-! ## Verdicts -/

/-- A probe that found its resource ready. -/
def Probe.FoundReady (probe : Probe) : Prop :=
  ∃ state, probe.reading = some state ∧ state.isReady = true

/-- The moment from which on a poll is out of time. -/
def Poll.deadline (poll : Poll) : Instant := poll.poller.started.after poll.poller.timeout

theorem verdict_eq_true_iff {poller : Poller} {t : Instant} {reading : Option ResourceState} :
    verdict poller t reading = some true ↔
      ∃ state, reading = some state ∧ state.isReady = true := by
  constructor
  · intro h
    cases reading with
    | none => cases h
    | some state => exact ⟨state, rfl, isReady_of_verdict h⟩
  · rintro ⟨state, rfl, hready⟩
    simp [verdict, Poller.check, hready]

/-- A poll fails by a crash or for want of time. -/
theorem verdict_eq_false {poller : Poller} {t : Instant} {reading : Option ResourceState}
    (h : verdict poller t reading = some false) :
    reading = none ∨ poller.timeout ≤ t.since poller.started := by
  cases reading with
  | none => exact .inl rfl
  | some state =>
    by_cases htime : poller.timeout ≤ t.since poller.started
    · exact .inr htime
    · cases hready : state.isReady <;> simp [verdict, Poller.check, hready, htime] at h

/-- Out of time, every probe settles. -/
theorem verdict_ne_none {poller : Poller} {t : Instant}
    (h : poller.started.after poller.timeout ≤ t) (reading : Option ResourceState) :
    verdict poller t reading ≠ none := by
  have htime : poller.timeout ≤ t.since poller.started := by
    have hnanos : poller.started.nanos + poller.timeout.nanos ≤ t.nanos := h
    show poller.timeout.nanos ≤ t.nanos - poller.started.nanos
    omega
  cases reading with
  | none => nofun
  | some state => cases hready : state.isReady <;> simp [verdict, Poller.check, hready, htime]

namespace Polling

open TaskPool (exists_split set_split eraseIdx_split)

/-! ## What an event does -/

/-- A verification goes on with an event. A worker stands where its number says. -/
inductive Steps (p : Polling) : Event → Polling → Prop where
  | queue {resource : String} {rest : List String} {moment : Instant} :
    p.unqueued = resource :: rest → p.now ≤ moment →
    Steps p (.queue moment) (p.queue resource rest moment)
  | spawn {count : Nat} : p.spawned = false → p.unqueued = [] → count ≤ p.ceiling →
    Steps p (.spawn count) { p with spawned := true, workers := List.replicate count none }
  | take {before after : List (Option Poll)} {poll : Poll} {rest : List Poll} :
    p.workers = before ++ none :: after → p.waiting = poll :: rest →
    Steps p (.take before.length)
      { p with waiting := rest, workers := before ++ some poll :: after }
  | leave {before after : List (Option Poll)} : p.workers = before ++ none :: after →
    p.waiting = [] → Steps p (.take before.length) { p with workers := before ++ after }
  | goOn {before after : List (Option Poll)} {poll : Poll} {moment : Instant}
    {reading : Option ResourceState} : p.workers = before ++ some poll :: after → p.now ≤ moment →
    verdict poll.poller moment reading = none →
    Steps p (.probe before.length moment reading) (p.probed poll.resource moment reading)
  | settle {before after : List (Option Poll)} {poll : Poll} {moment : Instant}
    {reading : Option ResourceState} {outcome : Bool} : p.workers = before ++ some poll :: after →
    p.now ≤ moment → verdict poll.poller moment reading = some outcome →
    Steps p (.probe before.length moment reading)
      { p.probed poll.resource moment reading with
        workers := before ++ none :: after
        outcomes := p.outcomes.insert poll.resource outcome }
  | takeOver : p.spawned = true → p.workers = [] → p.waiting ≠ [] →
    Steps p .takeOver { p with workers := [none] }

variable {p q : Polling} {event : Event}

theorem steps_of_step? (h : p.step? event = some q) : Steps p event q := by
  cases event with
  | queue moment =>
    simp only [step?] at h
    cases hunqueued : p.unqueued with
    | nil => simp [hunqueued] at h
    | cons resource rest =>
      rw [hunqueued] at h
      obtain ⟨htime, h⟩ := Option.ite_none_right_eq_some.1 h
      cases h
      exact .queue hunqueued htime
  | spawn count =>
    simp only [step?] at h
    obtain ⟨hmay, h⟩ := Option.ite_none_right_eq_some.1 h
    cases h
    simp only [Bool.and_eq_true, Bool.not_eq_true', List.isEmpty_iff, decide_eq_true_eq] at hmay
    exact .spawn hmay.1.1 hmay.1.2 hmay.2
  | take worker =>
    obtain ⟨options, unqueued, polls, waiting, spawned, workers, outcomes, probes, now⟩ := p
    simp only [step?] at h
    cases hworker : workers[worker]? with
    | none => simp [hworker] at h
    | some w =>
      obtain ⟨before, after, rfl, rfl⟩ := exists_split hworker
      rw [hworker] at h
      cases w with
      | some poll => cases h
      | none =>
        cases waiting with
        | nil =>
          cases h
          rw [eraseIdx_split]
          exact .leave rfl rfl
        | cons poll rest =>
          cases h
          rw [set_split]
          exact .take rfl rfl
  | probe worker moment reading =>
    simp only [step?] at h
    cases hworker : p.workers[worker]? with
    | none => simp [hworker] at h
    | some w =>
      obtain ⟨before, after, rfl, hworkers⟩ := exists_split hworker
      rw [hworker] at h
      cases w with
      | none => cases h
      | some poll =>
        obtain ⟨htime, h⟩ := Option.ite_none_right_eq_some.1 h
        cases hverdict : verdict poll.poller moment reading with
        | none =>
          rw [hverdict] at h
          cases h
          exact .goOn hworkers htime hverdict
        | some outcome =>
          rw [hverdict] at h
          cases h
          show Steps p _ { p.probed poll.resource moment reading with
            workers := p.workers.set before.length none
            outcomes := p.outcomes.insert poll.resource outcome }
          rw [hworkers, set_split]
          exact .settle hworkers htime hverdict
  | takeOver =>
    simp only [step?] at h
    obtain ⟨hmay, h⟩ := Option.ite_none_right_eq_some.1 h
    cases h
    simp only [Bool.and_eq_true, Bool.not_eq_true', List.isEmpty_iff,
      List.isEmpty_eq_false_iff] at hmay
    exact .takeOver hmay.1.1 hmay.1.2 hmay.2

theorem step?_of_steps (h : Steps p event q) : p.step? event = some q := by
  cases h with
  | queue hunqueued htime => simp [step?, hunqueued, htime]
  | spawn hspawned hunqueued hcount => simp [step?, hspawned, hunqueued, hcount]
  | take hworkers hwaiting => simp [step?, hworkers, hwaiting]
  | leave hworkers hwaiting => simp [step?, hworkers, hwaiting, eraseIdx_split]
  | goOn hworkers htime hverdict => simp [step?, hworkers, htime, hverdict]
  | settle hworkers htime hverdict => simp [step?, hworkers, htime, hverdict, probed]
  | takeOver hspawned hworkers hwaiting => simp [step?, hspawned, hworkers, hwaiting]

/-! ## Where the polls are -/

/-- The polls that workers have taken. -/
def held (p : Polling) : List Poll := p.workers.filterMap id

/-- The polls without an outcome. -/
def unsettled (p : Polling) : List Poll := p.held ++ p.waiting

/-- Every resource is in one place: its poll is yet to be queued, or has no outcome, or has one. -/
structure Accounted (options : Options) (resources : NameSet) (p : Polling) : Prop where
  same : p.options = options
  names : p.polls.map (·.resource) ++ p.unqueued = resources.names
  places : (p.outcomes.keys ++ p.unsettled.map (·.resource)).Perm (p.polls.map (·.resource))
  known : ∀ poll ∈ p.unsettled, poll ∈ p.polls
  timed : ∀ poll ∈ p.polls, poll.poller.timeout = options.timeout ∧ poll.poller.started ≤ p.now
  unspawned : p.spawned = false → p.workers = []
  queued : p.spawned = true → p.unqueued = []

namespace Accounted

variable {options : Options} {resources : NameSet}

theorem start (options : Options) (resources : NameSet) (now : Instant) :
    Accounted options resources (.start options resources now) where
  same := rfl
  names := rfl
  places := .refl _
  known := nofun
  timed := nofun
  unspawned _ := rfl
  queued := nofun

theorem nodup (h : Accounted options resources p) : (p.polls.map (·.resource)).Nodup := by
  have hnames : resources.names.Nodup := resources.increasing.imp fun {a b} hlt heq => by
    subst heq
    exact String.lt_irrefl a hlt
  rw [← h.names] at hnames
  exact (List.nodup_append.1 hnames).1

/-- A poll that a worker has taken has no outcome yet. -/
theorem fresh (h : Accounted options resources p) {before after : List (Option Poll)} {poll : Poll}
    (hworkers : p.workers = before ++ some poll :: after) : poll.resource ∉ p.outcomes.keys := by
  have hheld : poll ∈ p.unsettled := by simp [unsettled, held, hworkers]
  intro hkey
  exact (List.nodup_append.1 (h.places.nodup_iff.2 h.nodup)).2.2 _ hkey _
    (List.mem_map_of_mem hheld) rfl

/-- There are workers only after they have been spawned. -/
theorem spawned (h : Accounted options resources p) {before after : List (Option Poll)}
    {w : Option Poll} (hworkers : p.workers = before ++ w :: after) : p.spawned = true := by
  cases hspawned : p.spawned with
  | true => rfl
  | false =>
    rw [h.unspawned hspawned] at hworkers
    cases (List.append_eq_nil_iff.1 hworkers.symm).2

/-- With workers at work, polls only change their places. -/
theorem of_perm (h : Accounted options resources p) (hspawned : p.spawned = true)
    (hsame : q.options = p.options ∧ q.unqueued = p.unqueued ∧ q.polls = p.polls ∧
      q.spawned = p.spawned) (htime : p.now ≤ q.now)
    (hplaces : (q.outcomes.keys ++ q.unsettled.map (·.resource)).Perm
      (p.outcomes.keys ++ p.unsettled.map (·.resource)))
    (hknown : ∀ poll ∈ q.unsettled, poll ∈ p.unsettled) : Accounted options resources q := by
  obtain ⟨hoptions, hunqueued, hpolls, hcrew⟩ := hsame
  refine ⟨hoptions.trans h.same, ?_, ?_, fun poll hpoll => ?_, fun poll hpoll => ?_,
    fun hs => ?_, fun _ => hunqueued.trans (h.queued hspawned)⟩
  · rw [hpolls, hunqueued]
    exact h.names
  · rw [hpolls]
    exact hplaces.trans h.places
  · rw [hpolls]
    exact h.known poll (hknown poll hpoll)
  · rw [hpolls] at hpoll
    exact ⟨(h.timed poll hpoll).1, Nat.le_trans (h.timed poll hpoll).2 htime⟩
  · rw [hcrew, hspawned] at hs
    cases hs

/-- Every event keeps account. -/
theorem step (h : Accounted options resources p) (hstep : Steps p event q) :
    Accounted options resources q := by
  cases hstep with
  | @queue resource rest moment hunqueued htime =>
    have hspawned : p.spawned = false := by
      cases hs : p.spawned with
      | false => rfl
      | true => cases (h.queued hs).symm.trans hunqueued
    have hunsettled : (p.queue resource rest moment).unsettled =
        p.unsettled ++ [p.pollOf resource moment] := (List.append_assoc ..).symm
    refine ⟨h.same, ?_, ?_, ?_, ?_, h.unspawned, fun hs => ?_⟩
    · simpa [queue, pollOf, hunqueued] using h.names
    · rw [hunsettled, List.map_append, ← List.append_assoc]
      simpa [queue, pollOf] using h.places.append_right [resource]
    · rw [hunsettled]
      intro poll hpoll
      rcases List.mem_append.1 hpoll with hpoll | hpoll
      · exact List.mem_append_left _ (h.known poll hpoll)
      · exact List.mem_append_right _ hpoll
    · intro poll hpoll
      rcases List.mem_append.1 hpoll with hpoll | hpoll
      · exact ⟨(h.timed poll hpoll).1, Nat.le_trans (h.timed poll hpoll).2 htime⟩
      · cases List.mem_singleton.1 hpoll
        exact ⟨congrArg Options.timeout h.same, Nat.le_refl _⟩
    · cases hspawned.symm.trans hs
  | @spawn count hspawned hunqueued hcount =>
    have hunsettled : unsettled { p with spawned := true, workers := List.replicate count none } =
        p.unsettled := by
      simp [unsettled, held, h.unspawned hspawned]
    refine ⟨h.same, h.names, ?_, ?_, h.timed, nofun, fun _ => hunqueued⟩
    · rw [hunsettled]
      exact h.places
    · rw [hunsettled]
      exact h.known
  | @take before after poll rest hworkers hwaiting =>
    -- the oldest poll goes from those that wait to those in hand
    have hmoved : (unsettled { p with
        waiting := rest, workers := before ++ some poll :: after }).Perm p.unsettled := by
      simp only [unsettled, held, hworkers, hwaiting, List.filterMap_append, List.filterMap_cons,
        id_eq, List.append_assoc, List.cons_append]
      exact List.perm_middle.symm.append_left _
    exact h.of_perm (h.spawned hworkers) ⟨rfl, rfl, rfl, rfl⟩ (Nat.le_refl _)
      ((hmoved.map _).append_left _) fun other hother => hmoved.mem_iff.1 hother
  | @leave before after hworkers hwaiting =>
    have hunsettled : unsettled { p with workers := before ++ after } = p.unsettled := by
      simp [unsettled, held, hworkers]
    refine h.of_perm (h.spawned hworkers) ⟨rfl, rfl, rfl, rfl⟩ (Nat.le_refl _) ?_ ?_
    · rw [hunsettled]
    · rw [hunsettled]
      exact fun _ => id
  | goOn hworkers htime hverdict =>
    exact h.of_perm (h.spawned hworkers) ⟨rfl, rfl, rfl, rfl⟩ htime (.refl _) fun _ => id
  | @settle before after poll moment reading outcome hworkers htime hverdict =>
    -- the poll goes from those in hand to the outcomes
    have hmoved : p.unsettled.Perm (poll :: unsettled { p.probed poll.resource moment reading with
        workers := before ++ none :: after
        outcomes := p.outcomes.insert poll.resource outcome }) := by
      simp only [unsettled, held, hworkers, probed, List.filterMap_append, List.filterMap_cons,
        id_eq, List.append_assoc, List.cons_append]
      exact List.perm_middle
    have hkeys := Entries.keys_insert_perm (h.fresh hworkers) outcome
    refine h.of_perm (h.spawned hworkers) ⟨rfl, rfl, rfl, rfl⟩ htime ?_
      fun other hother => hmoved.mem_iff.2 (List.mem_cons_of_mem _ hother)
    exact (hkeys.append_right _).trans (List.perm_middle.symm.trans
      ((hmoved.map _).symm.append_left _))
  | takeOver hspawned hworkers hwaiting =>
    have hunsettled : unsettled { p with workers := [none] } = p.unsettled := by
      simp [unsettled, held, hworkers]
    refine h.of_perm hspawned ⟨rfl, rfl, rfl, rfl⟩ (Nat.le_refl _) ?_ ?_
    · rw [hunsettled]
    · rw [hunsettled]
      exact fun _ => id

/-- A run keeps account. -/
theorem run {events : List Event} (h : Accounted options resources p)
    (hrun : p.run? events = some q) : Accounted options resources q := by
  induction events generalizing p with
  | nil =>
    cases hrun
    exact h
  | cons event rest ih =>
    obtain ⟨next, hstep, hrest⟩ := Option.bind_eq_some_iff.1 hrun
    exact ih (h.step (steps_of_step? hstep)) hrest

end Accounted

/-! ## What the outcomes tell -/

/-- Outcomes are what was read, and good ones are given at once. -/
structure Told (p : Polling) : Prop where
  found : ∀ probe ∈ p.probes, probe.FoundReady → p.outcomes.find? probe.resource = some true
  good : ∀ resource, p.outcomes.find? resource = some true →
    ∃ probe ∈ p.probes, probe.resource = resource ∧ probe.FoundReady
  bad : ∀ resource, p.outcomes.find? resource = some false →
    ∃ probe ∈ p.probes, probe.resource = resource ∧
      (probe.reading = none ∨ ∃ poll ∈ p.polls, poll.resource = resource ∧
        poll.deadline ≤ probe.moment)

namespace Told

variable {options : Options} {resources : NameSet}

theorem start (options : Options) (resources : NameSet) (now : Instant) :
    Told (.start options resources now) := ⟨nofun, nofun, nofun⟩

/-- A probe that settles nothing has found nothing. -/
theorem probed (h : Told p) {poll : Poll} {moment : Instant} {reading : Option ResourceState}
    (hverdict : verdict poll.poller moment reading = none) :
    Told (p.probed poll.resource moment reading) := by
  refine ⟨fun probe hprobe hready => ?_, fun resource hgood => ?_, fun resource hbad => ?_⟩
  · rcases List.mem_append.1 hprobe with hprobe | hprobe
    · exact h.found probe hprobe hready
    · cases List.mem_singleton.1 hprobe
      cases hverdict.symm.trans (verdict_eq_true_iff.2 hready)
  · obtain ⟨probe, hprobe, hfound⟩ := h.good resource hgood
    exact ⟨probe, List.mem_append_left _ hprobe, hfound⟩
  · obtain ⟨probe, hprobe, hfailed⟩ := h.bad resource hbad
    exact ⟨probe, List.mem_append_left _ hprobe, hfailed⟩

/-- A probe that settles a poll is what its outcome tells. -/
theorem settled (h : Told p) (accounted : Accounted options resources p)
    {before after : List (Option Poll)} {poll : Poll} {moment : Instant}
    {reading : Option ResourceState} {outcome : Bool}
    (hworkers : p.workers = before ++ some poll :: after) (htime : p.now ≤ moment)
    (hverdict : verdict poll.poller moment reading = some outcome) :
    Told { p.probed poll.resource moment reading with
      workers := before ++ none :: after
      outcomes := p.outcomes.insert poll.resource outcome } := by
  have hfresh : p.outcomes.find? poll.resource = none := by
    cases hfind : p.outcomes.find? poll.resource with
    | none => rfl
    | some other =>
      exact absurd (Entries.find?_isSome_iff.1 (Option.isSome_of_eq_some hfind))
        (accounted.fresh hworkers)
  refine ⟨fun probe hprobe hready => ?_, fun resource hgood => ?_, fun resource hbad => ?_⟩
  · rcases List.mem_append.1 hprobe with hprobe | hprobe
    · -- what was found earlier has been settled, so it is not this poll
      have hold := h.found probe hprobe hready
      have hne : poll.resource ≠ probe.resource := by
        intro heq
        cases (heq ▸ hfresh).symm.trans hold
      exact (SortedMap.find?_insert_of_ne _ hne _).trans hold
    · cases List.mem_singleton.1 hprobe
      cases hverdict.symm.trans (verdict_eq_true_iff.2 hready)
      exact SortedMap.find?_insert_self _ _ _
  · by_cases heq : poll.resource = resource
    · subst heq
      rw [SortedMap.find?_insert_self] at hgood
      cases hgood
      exact ⟨_, List.mem_append_right _ List.mem_cons_self, rfl, verdict_eq_true_iff.1 hverdict⟩
    · rw [SortedMap.find?_insert_of_ne _ heq] at hgood
      obtain ⟨probe, hprobe, hfound⟩ := h.good resource hgood
      exact ⟨probe, List.mem_append_left _ hprobe, hfound⟩
  · by_cases heq : poll.resource = resource
    · subst heq
      rw [SortedMap.find?_insert_self] at hbad
      cases hbad
      have hknown : poll ∈ p.polls :=
        accounted.known poll (by simp [unsettled, held, hworkers])
      refine ⟨_, List.mem_append_right _ List.mem_cons_self, rfl, ?_⟩
      refine (verdict_eq_false hverdict).imp_right fun hlate => ⟨poll, hknown, rfl, ?_⟩
      have hbegan : poll.poller.started.nanos ≤ moment.nanos :=
        Nat.le_trans (accounted.timed poll hknown).2 htime
      have hpassed : poll.poller.timeout.nanos ≤ moment.nanos - poll.poller.started.nanos := hlate
      show poll.poller.started.nanos + poll.poller.timeout.nanos ≤ moment.nanos
      omega
    · rw [SortedMap.find?_insert_of_ne _ heq] at hbad
      obtain ⟨probe, hprobe, hfailed⟩ := h.bad resource hbad
      exact ⟨probe, List.mem_append_left _ hprobe, hfailed⟩

/-- After every event outcomes are what was read. -/
theorem step (h : Told p) (accounted : Accounted options resources p) (hstep : Steps p event q) :
    Told q := by
  cases hstep with
  | queue hunqueued htime =>
    refine ⟨h.found, h.good, fun resource hbad => ?_⟩
    obtain ⟨probe, hprobe, hsame, hfailed⟩ := h.bad resource hbad
    exact ⟨probe, hprobe, hsame, hfailed.imp_right fun ⟨poll, hpoll, hlate⟩ =>
      ⟨poll, List.mem_append_left _ hpoll, hlate⟩⟩
  | spawn | take | leave | takeOver => exact ⟨h.found, h.good, h.bad⟩
  | goOn hworkers htime hverdict => exact h.probed hverdict
  | settle hworkers htime hverdict => exact h.settled accounted hworkers htime hverdict

theorem run {events : List Event} (h : Told p) (accounted : Accounted options resources p)
    (hrun : p.run? events = some q) : Told q := by
  induction events generalizing p with
  | nil =>
    cases hrun
    exact h
  | cons event rest ih =>
    obtain ⟨next, hstep, hrest⟩ := Option.bind_eq_some_iff.1 hrun
    have hsteps := steps_of_step? hstep
    exact ih (h.step accounted hsteps) (accounted.step hsteps) hrest

end Told

/-! ## When all is over -/

/-- What a verification of resources has decided in the end. -/
structure Decides (options : Options) (resources : NameSet) (p : Polling) : Prop where
  /-- There is exactly one entry for each resource. -/
  entries : p.outcomes.keySet = resources
  probed : ∀ resource ∈ resources, ∃ probe ∈ p.probes, probe.resource = resource
  /-- An entry is good if and only if the resource was found ready. -/
  good_iff : ∀ resource ∈ resources, p.outcomes.find? resource = some true ↔
    ∃ probe ∈ p.probes, probe.resource = resource ∧ probe.FoundReady
  polls : p.polls.map (·.resource) = resources.names
  /-- What is ready from a moment not later than the time-out of its poll, and stays so. -/
  prompt : ∀ poll ∈ p.polls, ∀ ready ≤ poll.poller.started.after options.timeout,
    (∀ probe ∈ p.probes, probe.resource = poll.resource →
      ∃ state, probe.reading = some state ∧ (ready ≤ probe.moment → state.isReady = true)) →
    p.outcomes.find? poll.resource = some true
  never : ∀ resource ∈ resources,
    (∀ probe ∈ p.probes, probe.resource = resource → ¬ probe.FoundReady) →
    p.outcomes.find? resource = some false

theorem decides_of_isOver {options : Options} {resources : NameSet}
    (accounted : Accounted options resources p) (told : Told p) (hover : p.isOver = true) :
    Decides options resources p := by
  simp only [isOver, Bool.and_eq_true, List.isEmpty_iff] at hover
  obtain ⟨⟨hspawned, hworkers⟩, hwaiting⟩ := hover
  have hnames : p.polls.map (·.resource) = resources.names := by
    rw [← accounted.names, accounted.queued hspawned, List.append_nil]
  have hkeys : p.outcomes.keys.Perm resources.names := by
    have hplaces := accounted.places
    rw [hnames] at hplaces
    simpa [unsettled, held, hworkers, hwaiting] using hplaces
  have hentry : ∀ resource ∈ resources, ∃ outcome, p.outcomes.find? resource = some outcome :=
    fun resource hmem => Option.isSome_iff_exists.1
      (Entries.find?_isSome_iff.2 (hkeys.mem_iff.2 hmem))
  have hgood : ∀ resource, p.outcomes.find? resource = some true ↔
      ∃ probe ∈ p.probes, probe.resource = resource ∧ probe.FoundReady := by
    refine fun resource => ⟨told.good resource, ?_⟩
    rintro ⟨probe, hprobe, rfl, hready⟩
    exact told.found probe hprobe hready
  refine ⟨NameSet.ext_mem fun resource => hkeys.mem_iff, fun resource hmem => ?_,
    fun resource _ => hgood resource, hnames, fun poll hpoll ready hintime hread => ?_,
    fun resource hmem hnever => ?_⟩
  · obtain ⟨outcome, hfind⟩ := hentry resource hmem
    cases outcome with
    | true =>
      obtain ⟨probe, hprobe, hsame, -⟩ := told.good resource hfind
      exact ⟨probe, hprobe, hsame⟩
    | false =>
      obtain ⟨probe, hprobe, hsame, -⟩ := told.bad resource hfind
      exact ⟨probe, hprobe, hsame⟩
  · have hmem : poll.resource ∈ resources.names := hnames ▸ List.mem_map_of_mem hpoll
    obtain ⟨outcome, hfind⟩ := hentry poll.resource hmem
    cases outcome with
    | true => exact hfind
    | false =>
      -- the probe that failed came when the resource was ready
      obtain ⟨probe, hprobe, hsame, hfailed⟩ := told.bad _ hfind
      obtain ⟨state, hreading, hready⟩ := hread probe hprobe hsame
      rcases hfailed with hcrash | ⟨other, hother, hresource, hlate⟩
      · cases hcrash.symm.trans hreading
      · have hpolls : other = poll :=
          List.inj_on_of_nodup_map accounted.nodup hother hpoll hresource
        subst hpolls
        have hdeadline : ready ≤ probe.moment := by
          unfold Poll.deadline at hlate
          rw [(accounted.timed other hother).1] at hlate
          exact Nat.le_trans hintime hlate
        exact (hgood _).2 ⟨probe, hprobe, hsame, state, hreading, hready hdeadline⟩
  · obtain ⟨outcome, hfind⟩ := hentry resource hmem
    cases outcome with
    | false => exact hfind
    | true =>
      obtain ⟨probe, hprobe, hsame, hready⟩ := told.good resource hfind
      exact absurd hready (hnever probe hprobe hsame)

/-! ## That it comes to an end -/

/-- As long as a verification is not over it can go on, at any later moment and whatever is read
then. -/
theorem exists_step (h : p.isOver = false) {moment : Instant} (later : p.now ≤ moment)
    (reading : Option ResourceState) :
    ∃ event ∈ [.queue moment, .spawn p.ceiling, .take 0, .probe 0 moment reading, .takeOver],
      ∃ next, p.step? event = some next := by
  cases hspawned : p.spawned with
  | false =>
    cases hunqueued : p.unqueued with
    | nil => exact ⟨_, by simp, _, step?_of_steps (.spawn hspawned hunqueued (Nat.le_refl _))⟩
    | cons resource rest => exact ⟨_, by simp, _, step?_of_steps (.queue hunqueued later)⟩
  | true =>
    cases hworkers : p.workers with
    | nil =>
      have hwaiting : p.waiting ≠ [] := by
        intro hwaiting
        simp [isOver, hspawned, hworkers, hwaiting] at h
      exact ⟨_, by simp, _, step?_of_steps (.takeOver hspawned hworkers hwaiting)⟩
    | cons w after =>
      have hsplit : p.workers = [] ++ w :: after := hworkers
      cases w with
      | none =>
        cases hwaiting : p.waiting with
        | nil => exact ⟨.take 0, by simp, _, step?_of_steps (.leave hsplit hwaiting)⟩
        | cons poll rest => exact ⟨.take 0, by simp, _, step?_of_steps (.take hsplit hwaiting)⟩
      | some poll =>
        refine ⟨.probe 0 moment reading, by simp, ?_⟩
        cases hverdict : verdict poll.poller moment reading with
        | none => exact ⟨_, step?_of_steps (.goOn hsplit later hverdict)⟩
        | some outcome => exact ⟨_, step?_of_steps (.settle hsplit later hverdict)⟩

/-- All polls have been queued, and are out of time. -/
structure Late (p : Polling) : Prop where
  queued : p.unqueued = []
  passed : ∀ poll ∈ p.polls, poll.deadline ≤ p.now

/-- How many events there can be at most when all polls are out of time. A poll that waits has to be
taken and settled, one that is held has to be settled, a worker has to leave, and if there is no
worker for a poll that waits the owner has to come and to leave. -/
def weight (p : Polling) : Nat :=
  3 * p.waiting.length + p.held.length + p.workers.length +
    (if p.workers.isEmpty && !p.waiting.isEmpty then 2 else 0) +
    (if p.spawned then 0 else p.ceiling + 1)

theorem Late.step {options : Options} {resources : NameSet} (late : p.Late)
    (accounted : Accounted options resources p) (hstep : Steps p event q) :
    q.Late ∧ q.weight < p.weight := by
  cases hstep with
  | queue hunqueued htime => cases late.queued.symm.trans hunqueued
  | @spawn count hspawned hunqueued hcount =>
    refine ⟨⟨late.queued, late.passed⟩, ?_⟩
    have hnobody := accounted.unspawned hspawned
    cases count <;> cases hwaiting : p.waiting.isEmpty <;>
      simp [weight, held, hspawned, hnobody, hwaiting] <;> omega
  | take hworkers hwaiting =>
    refine ⟨⟨late.queued, late.passed⟩, ?_⟩
    simp [weight, held, accounted.spawned hworkers, hworkers, hwaiting]
    omega
  | leave hworkers hwaiting =>
    refine ⟨⟨late.queued, late.passed⟩, ?_⟩
    simp [weight, held, accounted.spawned hworkers, hworkers, hwaiting]
  | @goOn before after poll moment reading hworkers htime hverdict =>
    have hknown : poll ∈ p.polls := accounted.known poll (by simp [unsettled, held, hworkers])
    have hlate : poll.deadline ≤ moment := Nat.le_trans (late.passed poll hknown) htime
    exact absurd hverdict (verdict_ne_none hlate reading)
  | settle hworkers htime hverdict =>
    refine ⟨⟨late.queued, fun poll hpoll => Nat.le_trans (late.passed poll hpoll) htime⟩, ?_⟩
    simp [weight, held, accounted.spawned hworkers, hworkers, probed]
  | takeOver hspawned hworkers hwaiting =>
    refine ⟨⟨late.queued, late.passed⟩, ?_⟩
    simp [weight, held, hspawned, hworkers, hwaiting]

/-- **When the last deadline has passed, only so many events are left.** -/
theorem Late.length_le {options : Options} {resources : NameSet} {events : List Event}
    (late : p.Late) (accounted : Accounted options resources p) (hrun : p.run? events = some q) :
    events.length ≤ p.weight := by
  induction events generalizing p with
  | nil => exact Nat.zero_le _
  | cons event rest ih =>
    obtain ⟨next, hstep, hrest⟩ := Option.bind_eq_some_iff.1 hrun
    have hsteps := steps_of_step? hstep
    obtain ⟨hlate, hweight⟩ := late.step accounted hsteps
    exact Nat.le_trans (Nat.succ_le_succ (ih hlate (accounted.step hsteps) hrest)) hweight

end Polling

end Verification

end ControlRig
