import ControlRig.Proofs.Registry.Calls
import ControlRig.Registry.Traffic

/-!
# Calls that overlap are noticed

All calls share one flag. A call raises it when it enters and lowers it when it ends, whoever else
is there, so a flag that is down means nothing once two calls have been there at a time: the one
that ends first has lowered it under the other. **The mark that calls have overlapped is exact all
the same** (`Traffic.overlaps_are_noticed`). Until the first overlap there is at most one call, and
the flag tells whether there is (`Traffic.Tells.alone`); the first overlap is noticed for that
reason, and from then on the mark is there and nothing takes it away.

What really happened is read off the events alone: which calls are underway (`Traffic.Underway`),
and whether one of them was when another entered (`Traffic.Overlap`). What a call does in between,
and what it answers, is an event like others and touches neither flag nor mark.
-/

namespace ControlRig

/-- What a call does to a registry leaves the marks alone. -/
theorem SimRegistry.perform_marks (r : SimRegistry) (now : Instant) (limit : Duration)
    (operation : Operation) :
    (r.perform now limit operation).registry.busy = r.busy ∧
      (r.perform now limit operation).registry.reentrant = r.reentrant := by
  unfold perform
  split
  · exact ⟨rfl, rfl⟩
  · obtain ⟨held, h⟩ := r.effect_registry now operation
    rw [h]
    exact ⟨rfl, rfl⟩

namespace Traffic

/-! ## Events -/

def Event.isEntry : Event → Bool
  | .enter _ => true
  | _ => false

def Event.isEndOf (call : Nat) : Event → Bool
  | .leave other => other = call
  | _ => false

/-- After some events a call has entered and not ended. Calls have the numbers of their entries. -/
def Underway (before : List Event) (call : Nat) : Prop :=
  call < before.countP Event.isEntry ∧ ∀ event ∈ before, event.isEndOf call = false

instance (before : List Event) (call : Nat) : Decidable (Underway before call) :=
  inferInstanceAs (Decidable (_ ∧ _))

/-- Only a call that is underway can do something, or end. -/
def Event.CanFollow (before : List Event) : Event → Prop
  | .enter _ => True
  | .perform call _ _ _ => Underway before call
  | .leave call => Underway before call

instance (before : List Event) (event : Event) : Decidable (event.CanFollow before) :=
  match event with
  | .enter _ => inferInstanceAs (Decidable True)
  | .perform call _ _ _ => inferInstanceAs (Decidable (Underway before call))
  | .leave call => inferInstanceAs (Decidable (Underway before call))

/-- Events that can happen one after the other when others have. -/
def Possible : List Event → List Event → Prop
  | _, [] => True
  | before, event :: rest => event.CanFollow before ∧ Possible (before ++ [event]) rest

instance decidablePossible : (before events : List Event) → Decidable (Possible before events)
  | _, [] => inferInstanceAs (Decidable True)
  | before, event :: rest =>
    have := decidablePossible (before ++ [event]) rest
    inferInstanceAs (Decidable (_ ∧ _))

/-- Some call enters while another one is underway. -/
def Overlap (events : List Event) : Prop :=
  ∃ before operation after, events = before ++ .enter operation :: after ∧
    ∃ call, Underway before call

/-- A call has entered and none has ended since. -/
def EntryLast (events : List Event) : Prop :=
  ∃ before operation after, events = before ++ .enter operation :: after ∧
    ∀ event ∈ after, ∀ call, event.isEndOf call = false

/-! ## One more event -/

variable {before events more : List Event} {event : Event} {operation : Operation} {t t' : Traffic}

/-- An entry is the last of the events or one of those before it. -/
theorem exists_entry_concat {R : List Event → List Event → Prop} :
    (∃ front operation back, before ++ [event] = front ++ .enter operation :: back ∧ R front back) ↔
      (∃ operation, event = .enter operation ∧ R before []) ∨
      ∃ front operation back, before = front ++ .enter operation :: back ∧
        R front (back ++ [event]) := by
  constructor
  · rintro ⟨front, operation, back, heq, hR⟩
    rcases List.eq_nil_or_concat back with rfl | ⟨back, last, rfl⟩
    · obtain ⟨rfl, hlast⟩ := List.append_inj' heq rfl
      cases hlast
      exact .inl ⟨operation, rfl, hR⟩
    · rw [List.concat_eq_append, ← List.cons_append, ← List.append_assoc] at heq
      obtain ⟨rfl, hlast⟩ := List.append_inj' heq rfl
      cases hlast
      rw [List.concat_eq_append] at hR
      exact .inr ⟨front, operation, back, rfl, hR⟩
  · rintro (⟨operation, rfl, hR⟩ | ⟨front, operation, back, rfl, hR⟩)
    · exact ⟨before, operation, [], rfl, hR⟩
    · exact ⟨front, operation, back ++ [event], by simp, hR⟩

theorem overlap_concat : Overlap (before ++ [event]) ↔
    Overlap before ∨ event.isEntry = true ∧ ∃ call, Underway before call := by
  rw [Overlap, exists_entry_concat (R := fun front _ => ∃ call, Underway front call), or_comm]
  refine or_congr_right ⟨?_, ?_⟩
  · rintro ⟨operation, rfl, hcall⟩
    exact ⟨rfl, hcall⟩
  · rintro ⟨hentry, hcall⟩
    cases event with
    | enter operation => exact ⟨operation, rfl, hcall⟩
    | _ => cases hentry

theorem Overlap.append (h : Overlap before) (more : List Event) : Overlap (before ++ more) := by
  obtain ⟨front, operation, back, rfl, hcall⟩ := h
  exact ⟨front, operation, back ++ more, by simp, hcall⟩

theorem entryLast_concat : EntryLast (before ++ [event]) ↔
    event.isEntry = true ∨ EntryLast before ∧ ∀ call, event.isEndOf call = false := by
  rw [EntryLast, exists_entry_concat
    (R := fun _ back => ∀ event ∈ back, ∀ call, event.isEndOf call = false)]
  refine or_congr ⟨?_, ?_⟩ ⟨?_, ?_⟩
  · rintro ⟨operation, rfl, -⟩
    rfl
  · intro hentry
    cases event with
    | enter operation => exact ⟨operation, rfl, nofun⟩
    | _ => cases hentry
  · rintro ⟨front, operation, back, rfl, hnone⟩
    refine ⟨⟨front, operation, back, rfl, fun other hother => ?_⟩, hnone event (by simp)⟩
    exact hnone other (List.mem_append_left _ hother)
  · rintro ⟨⟨front, operation, back, rfl, hnone⟩, hevent⟩
    refine ⟨front, operation, back, rfl, fun other hother => ?_⟩
    rcases List.mem_append.1 hother with hother | hother
    · exact hnone other hother
    · rw [List.mem_singleton.1 hother]
      exact hevent

/-! What is no entry makes nobody underway and nothing overlap. -/

theorem countP_concat_of_not_entry (h : event.isEntry = false) :
    (before ++ [event]).countP Event.isEntry = before.countP Event.isEntry := by
  simp [h]

theorem underway_concat_of_not_entry (h : event.isEntry = false) {call : Nat} :
    Underway (before ++ [event]) call ↔ Underway before call ∧ event.isEndOf call = false := by
  rw [Underway, Underway, countP_concat_of_not_entry h, List.forall_mem_append,
    List.forall_mem_singleton, and_assoc]

theorem overlap_concat_of_not_entry (h : event.isEntry = false) :
    Overlap (before ++ [event]) ↔ Overlap before := by
  rw [overlap_concat, h]
  exact or_iff_left fun hentry => Bool.false_ne_true hentry.1

/-! ## What the marks tell -/

/-- **What a registry, and what is kept beside it, tell of the events so far.** -/
structure Tells (before : List Event) (t : Traffic) : Prop where
  entered : t.entered = before.countP Event.isEntry
  underway : ∀ call, call ∈ t.underway ↔ Underway before call
  nodup : t.underway.Nodup
  ended : ∀ event ∈ before, ∀ call, event.isEndOf call = true → call < t.entered
  overlapped : t.overlapped = true ↔ Overlap before
  noticed : t.registry.reentrant = t.overlapped
  /-- Before the first overlap the flag can be relied on. -/
  alone : t.overlapped = false →
    t.underway.length ≤ 1 ∧ t.registry.busy = !t.underway.isEmpty
  busy : t.registry.busy = true ↔ EntryLast before

theorem tells_fresh {registry : SimRegistry} (idle : registry.busy = false)
    (unmarked : registry.reentrant = false) : Tells [] (fresh registry) where
  entered := rfl
  underway := fun call => iff_of_false List.not_mem_nil fun h => Nat.not_lt_zero call h.1
  nodup := List.nodup_nil
  ended := nofun
  overlapped := by
    refine iff_of_false Bool.false_ne_true ?_
    rintro ⟨front, operation, back, heq, -⟩
    simp at heq
  noticed := unmarked
  alone := fun _ => ⟨Nat.zero_le _, idle⟩
  busy := by
    refine iff_of_false (by simp [fresh, idle]) ?_
    rintro ⟨front, operation, back, heq, -⟩
    simp at heq

theorem Tells.enter (h : Tells before t) (operation : Operation) :
    ∃ t', t.step? (.enter operation) = some t' ∧ Tells (before ++ [.enter operation]) t' := by
  have hcount : (before ++ [Event.enter operation]).countP Event.isEntry = t.entered + 1 := by
    rw [List.countP_append, h.entered]
    rfl
  refine ⟨_, rfl, hcount.symm, fun call => ?_, ?_, ?_, ?_, ?_, ?_, ?_⟩
  · rw [List.mem_cons, h.underway, Underway, Underway, hcount, ← h.entered, List.forall_mem_append,
      List.forall_mem_singleton]
    constructor
    · rintro (rfl | ⟨hlt, hnone⟩)
      · -- nobody ends before having entered
        have hnone : ∀ event ∈ before, event.isEndOf t.entered = false := fun event hevent =>
          Bool.eq_false_iff.2 fun hend => Nat.lt_irrefl _ (h.ended event hevent _ hend)
        exact ⟨Nat.lt_succ_self _, hnone, rfl⟩
      · exact ⟨Nat.lt_succ_of_lt hlt, hnone, rfl⟩
    · rintro ⟨hlt, hnone, -⟩
      rcases Nat.lt_succ_iff_lt_or_eq.1 hlt with hlt | heq
      · exact .inr ⟨hlt, hnone⟩
      · exact .inl heq
  · refine List.nodup_cons.2 ⟨fun hmem => ?_, h.nodup⟩
    have hlt := ((h.underway _).1 hmem).1
    rw [← h.entered] at hlt
    exact Nat.lt_irrefl _ hlt
  · refine List.forall_mem_append.2 ⟨fun event hevent call hend => ?_, ?_⟩
    · exact Nat.lt_succ_of_lt (h.ended event hevent call hend)
    · exact List.forall_mem_singleton.2 nofun
  · rw [overlap_concat, Bool.or_eq_true, h.overlapped]
    refine or_congr_right ?_
    rw [Bool.not_eq_true', List.isEmpty_eq_false_iff_exists_mem]
    exact (exists_congr h.underway).trans (and_iff_right rfl).symm
  · -- the flag is looked at only where the mark is not there yet
    show (t.registry.reentrant || t.registry.busy) = (t.overlapped || !t.underway.isEmpty)
    rw [h.noticed]
    cases hmark : t.overlapped with
    | true => rfl
    | false => rw [(h.alone hmark).2]
  · intro hnone
    obtain ⟨-, hempty⟩ := Bool.or_eq_false_iff.1 hnone
    rw [Bool.not_eq_false', List.isEmpty_iff] at hempty
    refine ⟨?_, rfl⟩
    rw [hempty]
    exact Nat.le_refl 1
  · exact iff_of_true rfl (entryLast_concat.2 (.inl rfl))

theorem Tells.perform (h : Tells before t) {call : Nat} (underway : Underway before call)
    (operation : Operation) (now : Instant) (limit : Duration) :
    ∃ t', t.step? (.perform call operation now limit) = some t' ∧
      Tells (before ++ [.perform call operation now limit]) t' := by
  obtain ⟨hbusy, hmark⟩ := t.registry.perform_marks now limit operation
  refine ⟨_, if_pos ((h.underway call).2 underway),
    h.entered.trans (countP_concat_of_not_entry rfl).symm, fun other => ?_, h.nodup, ?_,
    h.overlapped.trans (overlap_concat_of_not_entry rfl).symm, hmark.trans h.noticed,
    fun hnone => ?_, ?_⟩
  · rw [h.underway, underway_concat_of_not_entry rfl]
    exact (and_iff_left rfl).symm
  · exact List.forall_mem_append.2 ⟨h.ended, List.forall_mem_singleton.2 nofun⟩
  · exact ⟨(h.alone hnone).1, hbusy.trans (h.alone hnone).2⟩
  · rw [entryLast_concat, hbusy, h.busy]
    refine ⟨fun hlast => .inr ⟨hlast, fun _ => rfl⟩, ?_⟩
    rintro (hentry | ⟨hlast, -⟩)
    · cases hentry
    · exact hlast

theorem Tells.leave (h : Tells before t) {call : Nat} (underway : Underway before call) :
    ∃ t', t.step? (.leave call) = some t' ∧ Tells (before ++ [.leave call]) t' := by
  have hmem := (h.underway call).2 underway
  refine ⟨_, if_pos hmem, h.entered.trans (countP_concat_of_not_entry rfl).symm, fun other => ?_,
    h.nodup.erase call, ?_, h.overlapped.trans (overlap_concat_of_not_entry rfl).symm, h.noticed,
    fun hnone => ?_, ?_⟩
  · rw [h.nodup.mem_erase_iff, h.underway, underway_concat_of_not_entry rfl, and_comm]
    refine and_congr_right fun _ => ?_
    rw [Event.isEndOf, decide_eq_false_iff_not]
    exact ne_comm
  · refine List.forall_mem_append.2 ⟨h.ended, List.forall_mem_singleton.2 fun other hend => ?_⟩
    rw [← of_decide_eq_true hend, h.entered]
    exact underway.1
  · -- the call that ends was the only one
    have hone := (h.alone hnone).1
    have herase : t.underway.erase call = [] := by
      have hlength := List.length_erase_of_mem hmem
      exact List.length_eq_zero_iff.1 (by omega)
    show (t.underway.erase call).length ≤ 1 ∧ false = !(t.underway.erase call).isEmpty
    rw [herase]
    exact ⟨Nat.zero_le 1, rfl⟩
  · rw [entryLast_concat]
    refine iff_of_false Bool.false_ne_true ?_
    rintro (hentry | ⟨-, hnone⟩)
    · cases hentry
    · exact absurd (hnone call) (by simp [Event.isEndOf])

theorem Tells.step (h : Tells before t) (can : event.CanFollow before) :
    ∃ t', t.step? event = some t' ∧ Tells (before ++ [event]) t' := by
  cases event with
  | enter operation => exact h.enter operation
  | perform call operation now limit => exact h.perform can operation now limit
  | leave call => exact h.leave can

/-- Whatever can happen happens, and the marks go on to tell of it. -/
theorem Tells.run (h : Tells before t) (possible : Possible before events) :
    ∃ t', t.run? events = some t' ∧ Tells (before ++ events) t' := by
  induction events generalizing before t with
  | nil =>
    rw [List.append_nil]
    exact ⟨t, rfl, h⟩
  | cons event rest ih =>
    obtain ⟨mid, hstep, hmid⟩ := h.step possible.1
    obtain ⟨t', hrun, htells⟩ := ih hmid possible.2
    rw [List.append_assoc] at htells
    refine ⟨t', ?_, htells⟩
    rw [run?, hstep]
    exact hrun

/-! ## One call after the other -/

/-- The events of calls that are made one after the other, from the number of the first. -/
def inTurn (r : SimRegistry) (first : Nat) : List (Instant × Duration × Operation) → List Event
  | [] => []
  | (now, limit, operation) :: rest =>
    .enter operation :: .perform first operation (now.after (r.wait limit)) limit :: .leave first ::
      inTurn r (first + 1) rest

/-- What a registry has become by calls that are made one after the other. -/
def afterCalls (r : SimRegistry) (requests : List (Instant × Duration × Operation)) : SimRegistry :=
  requests.foldl (fun r request => (r.run request.1 request.2.1 request.2.2).registry) r

theorem run?_inTurn {r : SimRegistry} (alone : t.underway = [])
    (latency : t.registry.latency = r.latency) (requests : List (Instant × Duration × Operation)) :
    ∃ t', t.run? (inTurn r t.entered requests) = some t' ∧
      t'.registry = afterCalls t.registry requests := by
  induction requests generalizing t with
  | nil => exact ⟨t, rfl, rfl⟩
  | cons request rest ih =>
    obtain ⟨now, limit, operation⟩ := request
    have hwait : r.wait limit = t.registry.wait limit := by
      rw [SimRegistry.wait, SimRegistry.wait, latency]
    obtain ⟨t', hrun, hregistry⟩ :=
      ih (t := ⟨(t.registry.run now limit operation).registry, [], t.entered + 1, t.overlapped⟩) rfl
        ((t.registry.run_latency now limit operation).trans latency)
    refine ⟨t', ?_, hregistry⟩
    simpa [inTurn, run?, step?, alone, hwait, SimRegistry.run] using hrun

/-- No call leaves a mark that is made where nobody else is. -/
theorem afterCalls_reentrant {r : SimRegistry} (idle : r.busy = false)
    (requests : List (Instant × Duration × Operation)) :
    (afterCalls r requests).reentrant = r.reentrant := by
  induction requests generalizing r with
  | nil => rfl
  | cons request rest ih =>
    have hcall := r.run_registry request.1 request.2.1 request.2.2
    rw [afterCalls, List.foldl_cons, ← afterCalls, ih (by rw [hcall]), hcall]
    show (r.reentrant || r.busy) = r.reentrant
    rw [idle, Bool.or_false]

/-- **Overlaps are noticed, and nothing else is taken for one.** Calls enter a registry, do what
they do and end, in any order in which they can. Afterwards the mark is there exactly if some call
has entered while another one was underway, and it stays whatever happens then; although the flag by
which that is noticed is up only if a call has entered since the last one ended, whoever is still
underway. -/
theorem overlaps_are_noticed (registry : SimRegistry) (idle : registry.busy = false)
    (unmarked : registry.reentrant = false) (events : List Event) (possible : Possible [] events) :
    (∃ t, (fresh registry).run? events = some t ∧
      (t.registry.reentrant = true ↔ Overlap events) ∧
      (t.registry.busy = true ↔ EntryLast events) ∧
      (∀ call, call ∈ t.underway ↔ Underway events call) ∧
      ∀ more, Possible events more → Overlap events →
        ∃ t', t.run? more = some t' ∧ t'.registry.reentrant = true) ∧
    ∀ requests, ∃ t, (fresh registry).run? (inTurn registry 0 requests) = some t ∧
      t.registry = afterCalls registry requests ∧ t.registry.reentrant = false := by
  refine ⟨?_, fun requests => ?_⟩
  · obtain ⟨t, hrun, htells⟩ := (tells_fresh idle unmarked).run possible
    refine ⟨t, hrun, ?_, htells.busy, htells.underway, fun more hmore hoverlap => ?_⟩
    · rw [htells.noticed]
      exact htells.overlapped
    · obtain ⟨t', hrun', htells'⟩ := htells.run hmore
      refine ⟨t', hrun', ?_⟩
      rw [htells'.noticed]
      exact htells'.overlapped.2 (hoverlap.append more)
  · obtain ⟨t, hrun, hregistry⟩ := run?_inTurn (t := fresh registry) rfl rfl requests
    exact ⟨t, hrun, hregistry, hregistry ▸ (afterCalls_reentrant idle requests).trans unmarked⟩

/-- A listing enters while a load is underway, and runs out of time after the load has ended. The
flag is down and the mark is there; it is still there when a purge has come and gone. -/
theorem overlaps_are_noticed_late_listing :
    let registry := SimRegistry.fresh .zero (.ofMillis 5)
    let events : List Event := [.enter (.load "arm"), .enter .listLoaded, .leave 0]
    let more : List Event :=
      [.perform 1 .listLoaded ⟨9⟩ (.ofMillis 1), .leave 1, .enter .purge, .leave 2]
    ∃ t, (fresh registry).run? events = some t ∧ t.registry.reentrant = true ∧
      t.registry.busy = false ∧ 1 ∈ t.underway ∧
      ∃ t', t.run? more = some t' ∧ t'.registry.reentrant = true := by
  intro registry events more
  have hoverlap : Overlap events :=
    ⟨[.enter (.load "arm")], .listLoaded, [.leave 0], rfl, 0, by decide⟩
  obtain ⟨⟨t, hrun, hmark, -, hunderway, hmore⟩, -⟩ :=
    overlaps_are_noticed registry rfl rfl events (by decide)
  refine ⟨t, hrun, hmark.2 hoverlap, ?_, (hunderway 1).2 (by decide),
    hmore more (by decide) hoverlap⟩
  cases hrun
  rfl

end Traffic

end ControlRig
