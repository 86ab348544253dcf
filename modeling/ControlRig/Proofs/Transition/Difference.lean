import ControlRig.Proofs.Transition.CallOrder

/-!
# What a transition calls

A transition is told what is loaded and compares that with what it believes to be active. **It
purges exactly if the two differ**, unless it ends before it can compare them. If they do not differ
and it succeeds, all of its calls are known from the two configurations: it loads the one difference
and releases the other (`run_differs`).
-/

namespace ControlRig

/-- An error that ends a transition before anything is compared. -/
def ManagerError.Blind : ManagerError → Prop
  | .registryQuery _ => True
  | .missingParameter .. => True
  | _ => False

namespace Transition

open Observation

variable {active target : Option Configuration} {strictness : Strictness}
variable {limit timeout : Duration} {listed : List String} {steps seen : List Observation}
variable {attempt : Attempt}

/-- The calls that start the controllers of a target. -/
def starting (target : Option Configuration) (strictness : Strictness) : List Call :=
  target.elim [] fun t =>
    if t.resources = ∅ then [] else [.startControllers t.resources.names t.name strictness]

/-- The calls that stop and unload what is dropped. -/
def dropping (names : NameSet) : List Call :=
  if names = ∅ then [] else [.stopControllers names.names, .unload names.names]

/-! ## The calls of the pieces of a course -/

@[simp] theorem calls_nil : calls [] = [] := rfl

@[simp] theorem calls_called (operation : Operation) (limit : Duration) (answer : Operation.Answer)
    (rest : List Observation) :
    calls (.called operation limit answer :: rest) = operation.call :: calls rest := rfl

@[simp] theorem calls_lookedUp (key : String) (found : Bool) (rest : List Observation) :
    calls (.lookedUp key found :: rest) = calls rest := rfl

@[simp] theorem calls_found (requirements : List Requirement) :
    calls (found requirements) = [] := by
  refine List.filterMap_eq_nil_iff.2 fun o ho => ?_
  obtain ⟨q, -, rfl⟩ := List.mem_map.1 ho
  rfl

theorem calls_reports (reports : ∀ o ∈ seen, o.IsReport) : calls seen = [] :=
  List.filterMap_eq_nil_iff.2 fun o ho => (reports o ho).call?

@[simp] theorem calls_purging (loaded : NameSet) :
    calls (purging active limit loaded) =
      if Configuration.resourcesOf active = loaded then [] else [.purge] := by
  unfold purging
  split <;> rfl

@[simp] theorem calls_loading (names : List String) :
    calls (loading limit names) = names.map .load := by
  induction names with
  | nil => rfl
  | cons n rest ih => exact congrArg (Call.load n :: ·) ih

theorem calls_releasing (names : NameSet) : calls (releasing limit names) = dropping names := by
  unfold releasing dropping
  split <;> rfl

theorem Started.calls {skipped : List String} (h : Started target strictness limit skipped seen) :
    calls seen = starting target strictness := by
  cases h with
  | nobody hempty =>
    cases target with
    | none => rfl
    | some t => exact (if_pos hempty).symm
  | started _ htarget hsome =>
    subst htarget
    exact (if_neg hsome).symm

/-! ## What is compared -/

theorem purge_not_mem_starting : Call.purge ∉ starting target strictness := by
  intro hm
  unfold starting at hm
  cases target with
  | none => cases hm
  | some t =>
    dsimp only [Option.elim_some] at hm
    split at hm <;> simp at hm

/-- What goes on after the opening purges nothing, and is not blind. -/
theorem compares_of_opening {rest : List Observation} (none : Call.purge ∉ calls rest)
    (seeing : ∀ e, attempt.outcome = .error e → ¬ e.Blind) :
    Call.purge ∈ calls (opening active target limit listed ++ rest) ↔
      (∀ e, attempt.outcome = .error e → ¬ e.Blind) ∧
        .ofList listed ≠ Configuration.resourcesOf active := by
  rw [and_iff_right seeing, opening]
  simp only [List.cons_append, List.append_assoc, calls_called, calls_append, calls_found,
    calls_purging, List.nil_append, List.mem_cons, List.mem_append, none, or_false]
  split
  · rename_i heq
    simp [heq, Operation.call]
  · rename_i hne
    simp [Ne.symm hne, Operation.call]

/-- A course purges exactly if it gets to comparing what is loaded, and finds it to differ. -/
theorem Course.compares (h : Course active target strictness limit timeout listed steps attempt) :
    Call.purge ∈ calls steps ↔ (∀ e, attempt.outcome = .error e → ¬ e.Blind) ∧
      .ofList listed ≠ Configuration.resourcesOf active := by
  cases h with
  | unlisted e =>
    refine iff_of_false ?_ fun h => h.1 _ rfl trivial
    simp [Operation.call]
  | unmet hsplit =>
    refine iff_of_false ?_ fun h => h.1 _ rfl trivial
    simp [Operation.call]
  | unpurged e hstep =>
    refine iff_of_true (by simp [Operation.call]) ⟨?_, Ne.symm hstep⟩
    rintro _ ⟨⟩
    exact id
  | unloaded e hsplit =>
    rw [List.append_assoc]
    refine compares_of_opening (by simp [Operation.call]) ?_
    rintro _ ⟨⟩
    exact id
  | unready hreports hfailed =>
    rw [List.append_assoc]
    refine compares_of_opening (by simp [calls_reports hreports]) ?_
    rintro _ ⟨⟩
    exact id
  | unstarted e hready htarget hsome =>
    simp only [List.append_assoc]
    refine compares_of_opening (by simp [calls_reports hready.reports, Operation.call]) ?_
    rintro _ ⟨⟩
    exact id
  | unstopped e hready hstarted hdropped =>
    simp only [List.append_assoc]
    refine compares_of_opening ?_ ?_
    · simp [calls_reports hready.reports, hstarted.calls, purge_not_mem_starting, Operation.call]
    · rintro _ ⟨⟩
      exact id
  | unreleased e hready hstarted hdropped =>
    simp only [List.append_assoc]
    refine compares_of_opening ?_ ?_
    · simp [calls_reports hready.reports, hstarted.calls, purge_not_mem_starting, Operation.call]
    · rintro _ ⟨⟩
      exact id
  | settled verification hready hstarted =>
    simp only [List.append_assoc]
    refine compares_of_opening ?_ nofun
    simp [calls_reports hready.reports, hstarted.calls, purge_not_mem_starting, calls_releasing,
      dropping]

theorem Undone.purge_not_mem {policy : RollbackPolicy} (h : Undone limit policy attempt seen) :
    Call.purge ∉ calls seen := by
  cases h with
  | rolledBack => simp [Operation.call]
  | kept | refused | settled => exact List.not_mem_nil

/-- **The calls of a transition from some resources to a target**, on a registry where others may be
loaded. -/
structure Differs (resources : NameSet) (target : Option Configuration) (strictness : Strictness)
    (loaded : NameSet) (outcome : Except ManagerError Unit) (made : List Call) : Prop where
  compares : Call.purge ∈ made ↔
    (∀ e, outcome = .error e → ¬ e.Blind) ∧ loaded ≠ resources
  exactly : outcome = .ok () → loaded = resources → made =
    .listLoaded :: ((Configuration.resourcesOf target \ resources).names.map .load ++
      starting target strictness ++ dropping (resources \ Configuration.resourcesOf target))

theorem Course.differs (h : Course active target strictness limit timeout listed steps attempt)
    {policy : RollbackPolicy} {undone : List Observation}
    (hundone : Undone limit policy attempt undone) :
    Differs (Configuration.resourcesOf active) target strictness (.ofList listed)
      (attempt.outcome.map fun _ => ()) (calls (steps ++ undone)) := by
  constructor
  · rw [calls_append, List.mem_append, or_iff_left hundone.purge_not_mem, h.compares]
    refine and_congr_left fun _ => forall_congr' fun e => ?_
    cases attempt.outcome <;> simp [Except.map]
  · intro hok hstep
    cases h with
    | settled verification hready hstarted =>
      cases hundone
      simp only [opening, due, dropped, purging, hstep, ↓reduceIte, List.append_nil, calls_append,
        calls_called, calls_found, calls_loading, calls_reports hready.reports, hstarted.calls,
        calls_releasing, List.cons_append, List.nil_append]
      rfl
    | _ => cases hok

/-- **What a transition calls**, as far as it is known from the configurations. -/
theorem run_differs {options : Options} {rig final : Rig}
    {outcome : Except ManagerError TransitionRecord}
    (h : (run options active target strictness limit).run rig = (some outcome, final)) :
    ∃ made, final.registry.calls = rig.registry.calls ++ made ∧
      Differs (Configuration.resourcesOf active) target strictness rig.registry.loaded
        (outcome.map fun _ => ()) made := by
  obtain ⟨attempt, mid, -, -, steps, undone, -, hsteps, hundo, hcourse, hundone, rfl⟩ :=
    course_of_run h
  refine ⟨calls (steps ++ undone), ?_, ?_⟩
  · rw [hundo.calls, hsteps.calls, calls_append, List.append_assoc]
  · have hdiffers := hcourse.differs hundone
    rw [SimRegistry.ofList_keys] at hdiffers
    exact hdiffers

end Transition

end ControlRig
