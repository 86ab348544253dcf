import ControlRig.Proofs.Rig.Accord
import ControlRig.Proofs.Transition.CallOrder

/-!
# A strict transition beside a best-effort one

The same transition, from the same rig, once with either strictness. Up to the start of controllers
the two are one procedure (`prepare`), because nothing before it has been told the strictness. At
the start they stay together, and then everything after it is the same procedure once more on rigs
that are in accord; or the strict one gives up at what the other skips first, and then the best-effort
one can only settle with that controller at the head of its list.

`Beside` is what is claimed of two runs, and it is enough to show it where they part
(`Beside.after`).
-/

namespace ControlRig

namespace Transition

open Procedure SimRegistry

/-! ## The start, cut out of a transition -/

/-- The phases before the start of controllers: what was loaded and the plan, or where it stopped. -/
def prepare (options : Options) (active target : Option Configuration) (limit : Duration) :
    Procedure (Except Attempt (List String × TransitionRecord)) := do
  match ← call .listLoaded limit with
  | .error e => return .error (.refused (.registryQuery e))
  | .ok loaded =>
    match ← checkParameters target with
    | .error e => return .error (.refused e)
    | .ok () =>
      match ← synchronize limit (.plan active target (.ofList loaded)) with
      | .error e => return .error (.refused e)
      | .ok record =>
        let (loaded, error) ← loadAll limit record.toLoad.names
        match error with
        | some e => return .error (.failed loaded e)
        | none =>
          match ← verify options record with
          | .error e => return .error (.failed loaded e)
          | .ok record => return .ok (loaded, record)

/-- What follows on the start of controllers. -/
def finish (policy : RollbackPolicy) (limit : Duration) (loaded : List String) :
    Except ManagerError TransitionRecord → Procedure (Except ManagerError TransitionRecord)
  | .error e => conclude policy limit (.failed loaded e)
  | .ok record => do conclude policy limit (.after loaded (← release limit record))

/-- The phases from the start of controllers on, if it comes to that. -/
def engage (policy : RollbackPolicy) (target : Option Configuration) (strictness : Strictness)
    (limit : Duration) :
    Except Attempt (List String × TransitionRecord) →
      Procedure (Except ManagerError TransitionRecord)
  | .error attempt => conclude policy limit attempt
  | .ok (loaded, record) => do
    finish policy limit loaded (← startControllers target strictness limit record)

/-- Only the second part of a transition is told how strict it is to be. -/
theorem run_eq_engage (options : Options) (active target : Option Configuration)
    (strictness : Strictness) (limit : Duration) :
    run options active target strictness limit =
      prepare options active target limit >>= engage options.rollback target strictness limit := by
  rw [run_eq]
  unfold advance prepare
  simp only [bind_assoc]
  congr 1
  funext listing
  cases listing with
  | error e => rfl
  | ok loaded =>
    simp only [bind_assoc]
    congr 1
    funext checked
    cases checked with
    | error e => rfl
    | ok u =>
      simp only [bind_assoc]
      congr 1
      funext synchronized
      cases synchronized with
      | error e => rfl
      | ok record =>
        unfold carryOut
        simp only [bind_assoc]
        congr 1
        funext loads
        obtain ⟨loaded, error⟩ := loads
        cases error with
        | some e => rfl
        | none =>
          unfold establish
          simp only [bind_assoc]
          congr 1
          funext verified
          cases verified with
          | error e => rfl
          | ok record =>
            simp only [bind_assoc, pure_eq, done_bind, engage]
            congr 1
            funext started
            cases started <;> rfl

/-- What becomes of the plan with the answer to a start. -/
def began (name : String) (record : TransitionRecord) :
    Operation.Answer → Procedure (Except ManagerError TransitionRecord)
  | .error e => return .error (.controllerStart e)
  | .ok skipped => do
    if !skipped.isEmpty then
      warn ("'" ++ name ++ "' started without " ++ joined skipped)
    return .ok { record with skippedControllers := skipped }

theorem startControllers_eq (target : Configuration) (strictness : Strictness) (limit : Duration)
    (record : TransitionRecord) :
    startControllers (some target) strictness limit record =
      if record.targetResources.isEmpty then pure (.ok record)
      else
        inform ("starting controllers of '" ++ target.name ++ "' (" ++ strictness.text ++ ")") >>=
          fun _ => call (.startControllers record.targetResources.names target strictness) limit >>=
            began target.name record := by
  unfold startControllers
  dsimp only
  split
  · rfl
  · rfl

/-! ## What the parts come to -/

section

variable {options : Options} {active target : Option Configuration} {limit : Duration}
variable {record : TransitionRecord} {loaded : List String} {seen : List Observation}

/-- Before controllers are started, nothing has been skipped and nothing is settled. -/
theorem goes_prepare {result : Except Attempt (List String × TransitionRecord)}
    (h : (prepare options active target limit).Goes seen (some result)) :
    match result with
    | .error attempt => ∃ e, attempt.outcome = .error e
    | .ok (_, record) => record.skippedControllers = [] := by
  unfold prepare at h
  obtain ⟨listing, xs, ys, hlist, hrest, rfl⟩ := goes_bind_some.1 h
  cases listing with
  | error e =>
    cases (goes_done.1 hrest).2
    exact ⟨_, rfl⟩
  | ok listed =>
    obtain ⟨checked, ps, qs, hcheck, hrest, rfl⟩ := goes_bind_some.1 hrest
    cases checked with
    | error e =>
      cases (goes_done.1 hrest).2
      exact ⟨_, rfl⟩
    | ok u =>
      obtain ⟨synchronized, vs, ws, hsync, hrest, rfl⟩ := goes_bind_some.1 hrest
      rcases goes_synchronize hsync with ⟨rfl, -⟩ | ⟨e, -, rfl, -⟩
      · obtain ⟨⟨names, error⟩, rs, ss, -, hrest, rfl⟩ := goes_bind_some.1 hrest
        cases error with
        | some e =>
          cases (goes_done.1 hrest).2
          exact ⟨_, rfl⟩
        | none =>
          obtain ⟨verified, ts, us, hverify, hrest, rfl⟩ := goes_bind_some.1 hrest
          rcases goes_verify hverify with ⟨verification, rfl, -⟩ | ⟨failed, -, rfl, -⟩
          · cases (goes_done.1 hrest).2
            exact prepared_skippedControllers _
          · cases (goes_done.1 hrest).2
            exact ⟨_, rfl⟩
      · cases (goes_done.1 hrest).2
        exact ⟨_, rfl⟩

/-- A transition that settles does so with what the start has made of the plan. -/
theorem goes_finish {policy : RollbackPolicy} {started : Except ManagerError TransitionRecord}
    (h : (finish policy limit loaded started).Goes seen (some (.ok record))) :
    started = .ok record := by
  cases started with
  | error e =>
    unfold finish at h
    cases (goes_conclude h).1
  | ok planned =>
    obtain ⟨released, xs, ys, hrelease, hrest, rfl⟩ := goes_bind_some.1 h
    have houtcome := (goes_conclude hrest).1
    rcases goes_release hrelease with ⟨rfl, -⟩ | ⟨e, -, ⟨rfl, -⟩ | ⟨rfl, -⟩⟩
    · exact houtcome.symm
    · cases houtcome
    · cases houtcome

theorem goes_began {name : String} {answer : Operation.Answer} {planned : TransitionRecord}
    (h : (began name planned answer).Goes seen (some (.ok record))) :
    answer = .ok record.skippedControllers := by
  cases answer with
  | error e => cases (goes_done.1 h).2
  | ok skipped =>
    unfold began at h
    dsimp only at h
    split at h
    · obtain ⟨_, _, _, -, hdone, -⟩ := goes_bind_some.1 h
      cases (goes_done.1 hdone).2
      rfl
    · cases (goes_done.1 h).2
      rfl

end

/-! ## Two runs -/

/-- How a transition has ended, and where. -/
abbrev Ending := Option (Except ManagerError TransitionRecord) × Rig

/-- What a strict transition comes to beside a best-effort one. -/
inductive Beside (best strict : Ending) : Prop
  /-- They come to the same, and nothing has been skipped. -/
  | together : strict.1 = best.1 → strict.2.Accords best.2 →
      (∀ record, best.1 = some (.ok record) → record.skippedControllers = []) → Beside best strict
  /-- The strict one is refused the first controller that the other has skipped. -/
  | apart (resource id : String) :
      (∀ outcome, strict.1 = some outcome →
        outcome = .error (.controllerStart (refusal resource id))) →
      (∀ record, best.1 = some (.ok record) →
        ∃ rest, record.skippedControllers = controllerName resource id :: rest) →
      Beside best strict

/-- Runs may be compared from where they have a first part behind them in common. -/
theorem Beside.after {α : Type} {p : Procedure α}
    {f g : α → Procedure (Except ManagerError TransitionRecord)} {rig : Rig}
    (h : ∀ a mid, p.run rig = (some a, mid) → Beside ((f a).run mid) ((g a).run mid)) :
    Beside ((p >>= f).run rig) ((p >>= g).run rig) := by
  rw [run_bind, run_bind]
  cases hp : p.run rig with
  | mk result mid =>
    cases result with
    | none => exact .together rfl (.refl mid) nofun
    | some a => exact h a mid hp

/-- On rigs that are in accord, one procedure that skips nothing stays beside itself. -/
theorem Beside.of_accords {rig other : Rig} (h : rig.Accords other)
    (p : Procedure (Except ManagerError TransitionRecord))
    (complete : ∀ seen record, p.Goes seen (some (.ok record)) → record.skippedControllers = []) :
    Beside (p.run other) (p.run rig) := by
  exact .together (h.run p).1 (h.run p).2 fun record hrecord =>
    complete _ record (goes_of_run hrecord)

/-- A start is answered alike with either strictness, or else the strict one is refused the first
controller that the other skips. -/
theorem answer_start_strict (rig : Rig) (resources : List String) (target : Configuration)
    (limit : Duration) :
    let best := rig.answer (.call (.startControllers resources target .bestEffort) limit)
    let strict := rig.answer (.call (.startControllers resources target .strict) limit)
    (strict.1 = best.1 ∧ strict.2.Accords best.2 ∧
      ∀ names, best.1 = some (.ok names) → names = []) ∨
    ∃ resource id, strict.1 = some (.error (refusal resource id)) ∧
      ∀ names, best.1 = some (.ok names) → ∃ rest, names = controllerName resource id :: rest := by
  intro best strict
  have hparted := run_startControllers_strict rig.registry rig.clock limit resources target
  rcases rig.answer_cases (.call (.startControllers resources target .bestEffort) limit) with
    ⟨harmed, heq⟩ | ⟨hcalm, heq⟩
  · -- the cue at which a start can crash does not depend on the strictness
    have hbest : best = (none, _) := heq
    have hstrict : strict = best := (if_pos harmed).trans hbest.symm
    refine .inl ⟨congrArg _ hstrict, hstrict ▸ .refl _, fun names hnames => ?_⟩
    rw [hbest] at hnames
    cases hnames
  · have hbest : best = (some _, _) := heq
    have hstrict : strict = (some _, _) := if_neg (Bool.eq_false_iff.1 hcalm)
    rw [hbest, hstrict]
    rcases hparted with ⟨hanswer, hregistry, hnone⟩ | ⟨resource, id, hrefused, hfirst⟩
    · refine .inl ⟨congrArg some hanswer, ?_, fun names h => hnone names (Option.some.inj h)⟩
      exact ⟨hregistry, rfl, rfl, rfl, rfl, rfl, rfl, rfl⟩
    · exact .inr ⟨resource, id, congrArg some hrefused, fun names h =>
        hfirst names (Option.some.inj h)⟩

/-- What follows on a call goes on with its answer. -/
theorem run_call_bind {α : Type} (operation : Operation) (limit : Duration)
    (f : Operation.Answer → Procedure α) (rig : Rig) :
    (call operation limit >>= f).run rig =
      match (rig.answer (.call operation limit)).1 with
      | some answer => (f answer).run (rig.answer (.call operation limit)).2
      | none => (none, (rig.answer (.call operation limit)).2) := by
  rw [call, of, ask_bind, run_ask]
  cases (rig.answer (.call operation limit)).1 <;> rfl

/-- What follows on a start, beside what follows on the start of the other strictness. -/
theorem start_beside {rig other : Rig} (h : other.Accords rig) (policy : RollbackPolicy)
    (target : Configuration) (limit : Duration) (loaded : List String) (record : TransitionRecord) :
    let start strictness :=
      call (.startControllers record.targetResources.names target strictness) limit >>=
        fun answer => began target.name record answer >>= finish policy limit loaded
    Beside ((start .bestEffort).run rig) ((start .strict).run other) := by
  intro start
  -- a settled transition has the skipped controllers that the start was answered with
  have hskipped : ∀ answer seen settled,
      (began target.name record answer >>= finish policy limit loaded).Goes seen
        (some (.ok settled)) → answer = .ok settled.skippedControllers := by
    intro answer seen settled hgoes
    obtain ⟨started, _, _, hbegan, hfinish, -⟩ := goes_bind_some.1 hgoes
    cases goes_finish hfinish
    exact goes_began hbegan
  obtain ⟨hanswer, hafter⟩ :=
    h.answer (.call (.startControllers record.targetResources.names target .strict) limit)
  have hbest : (start .bestEffort).run rig = _ := run_call_bind _ _ _ rig
  have hstrict : (start .strict).run other = _ := run_call_bind _ _ _ other
  rw [hbest, hstrict, hanswer]
  rcases answer_start_strict rig record.targetResources.names target limit with
    ⟨hsame, haccord, hnone⟩ | ⟨resource, id, hrefused, hfirst⟩
  · rw [hsame]
    cases hans : (rig.answer (.call (.startControllers record.targetResources.names target
      .bestEffort) limit)).1 with
    | none => exact .together rfl (hafter.trans haccord) nofun
    | some answer =>
      refine .of_accords (hafter.trans haccord) _ fun seen settled hgoes => ?_
      obtain rfl := hskipped answer seen settled hgoes
      exact hnone _ hans
  · rw [hrefused]
    refine .apart resource id ?_ fun settled hsettled => ?_
    · intro outcome houtcome
      have hgoes : (conclude policy limit
          (.failed loaded (.controllerStart (refusal resource id)))).Goes _ (some outcome) :=
        goes_of_run houtcome
      exact (goes_conclude hgoes).1
    · cases hans : (rig.answer (.call (.startControllers record.targetResources.names target
        .bestEffort) limit)).1 with
      | none =>
        rw [hans] at hsettled
        cases hsettled
      | some answer =>
        rw [hans] at hsettled
        obtain rfl := hskipped answer _ settled (goes_of_run hsettled)
        exact hfirst _ hans

/-- **From the start of controllers on, a strict transition does what a best-effort one does, or is
refused what that one skips.** -/
theorem engage_beside (policy : RollbackPolicy) (target : Option Configuration) (limit : Duration)
    (loaded : List String) {record : TransitionRecord} (unskipped : record.skippedControllers = [])
    (rig : Rig) :
    Beside ((engage policy target .bestEffort limit (.ok (loaded, record))).run rig)
      ((engage policy target .strict limit (.ok (loaded, record))).run rig) := by
  have hfinish : Beside ((finish policy limit loaded (.ok record)).run rig)
      ((finish policy limit loaded (.ok record)).run rig) := by
    refine .of_accords (.refl rig) _ fun seen settled h => ?_
    cases goes_finish h
    exact unskipped
  unfold engage
  cases target with
  | none => exact hfinish
  | some t =>
    dsimp only
    rw [startControllers_eq, startControllers_eq]
    by_cases hnone : record.targetResources.isEmpty = true
    · rw [if_pos hnone, if_pos hnone]
      exact hfinish
    · rw [if_neg hnone, if_neg hnone]
      simp only [bind_assoc]
      -- the two announce themselves differently, which only the log remembers
      exact start_beside ((Rig.Accords.refl rig).note .info .info _ _) policy t limit loaded record

/-- **A strict transition does what a best-effort one does, or is refused what that one skips.** -/
theorem run_beside (options : Options) (active target : Option Configuration) (limit : Duration)
    (rig : Rig) :
    Beside ((run options active target .bestEffort limit).run rig)
      ((run options active target .strict limit).run rig) := by
  rw [run_eq_engage, run_eq_engage]
  refine .after fun prepared mid hprepare => ?_
  have hgoes := goes_prepare (goes_of_run (congrArg Prod.fst hprepare))
  cases prepared with
  | error attempt =>
    refine .of_accords (.refl mid) _ fun seen settled h => ?_
    obtain ⟨e, he⟩ := hgoes
    cases (goes_conclude h).1.trans he
  | ok plan =>
    obtain ⟨loaded, record⟩ := plan
    exact engage_beside options.rollback target limit loaded hgoes mid

/-- **Strict and best-effort agree wherever both can.** A strict transition is successful exactly if
a best-effort one is and skips nothing; then the two have the same record and leave the same
registry, but for the strictness noted there. Where the best-effort one has skipped controllers, the
strict one fails, and what it names is the first of them. -/
theorem run_strict_iff_complete (options : Options) (active target : Option Configuration)
    (limit : Duration) (rig : Rig) :
    let best := (run options active target .bestEffort limit).run rig
    let strict := (run options active target .strict limit).run rig
    (∀ record, strict.1 = some (.ok record) ↔
      best.1 = some (.ok record) ∧ record.skippedControllers = []) ∧
    (∀ record, strict.1 = some (.ok record) →
      strict.2.registry.lenient = best.2.registry.lenient) ∧
    (rig.armed = ∅ → ∀ record first rest, best.1 = some (.ok record) →
      record.skippedControllers = first :: rest →
      ∃ resource id reason, first = controllerName resource id ∧
        strict.1 = some (.error (.controllerStart (.controllerFailed resource id reason)))) := by
  intro best strict
  rcases run_beside options active target limit rig with
    ⟨hsame, haccord, hcomplete⟩ | ⟨resource, id, hrefused, hskipped⟩
  · refine ⟨fun record => ?_, fun _ _ => haccord.registry, fun _ record first rest hok hskip => ?_⟩
    · rw [hsame]
      exact ⟨fun hok => ⟨hok, hcomplete record hok⟩, And.left⟩
    · cases (hcomplete record hok).symm.trans hskip
  · refine ⟨fun record => ⟨fun hok => ?_, fun ⟨hok, hnone⟩ => ?_⟩, fun record hok => ?_, ?_⟩
    · cases hrefused _ hok
    · obtain ⟨rest, hrest⟩ := hskipped record hok
      cases hnone.symm.trans hrest
    · cases hrefused _ hok
    · intro calm record first rest hok hskip
      obtain ⟨rest', hrest⟩ := hskipped record hok
      cases hskip.symm.trans hrest
      obtain ⟨outcome, after, hrun⟩ := run_returns options active target .strict limit calm
      have hout : strict.1 = some outcome := congrArg Prod.fst hrun
      exact ⟨resource, id, "init returned false", rfl, hout.trans (congrArg some (hrefused _ hout))⟩

/-- The torch cannot be started, so a best-effort transition to welding goes without it, and a strict
one fails on it. The gripper could not be started again either, but it runs. -/
theorem run_strict_iff_complete_welding :
    let options : Options := Settings.standard.transitionOptions
    let best := (run options (some .handling) (some .welding) .bestEffort .zero).run whileHandling
    let strict := (run options (some .handling) (some .welding) .strict .zero).run whileHandling
    (∃ record, best.1 = some (.ok record) ∧ record.skippedControllers = ["arm/torch"]) ∧
      ∃ resource id reason, "arm/torch" = controllerName resource id ∧
        strict.1 = some (.error (.controllerStart (.controllerFailed resource id reason))) := by
  intro options best strict
  have hskip : (best.1.bind Except.toOption).map (·.skippedControllers) = some ["arm/torch"] := by
    decide +kernel
  obtain ⟨record, hrecord, hskipped⟩ := Option.map_eq_some_iff.1 hskip
  have hbest : best.1 = some (.ok record) := by
    obtain ⟨outcome, hout, hok⟩ := Option.bind_eq_some_iff.1 hrecord
    cases outcome with
    | error e => cases hok
    | ok settled =>
      cases hok
      exact hout
  obtain ⟨-, -, hrefused⟩ :=
    run_strict_iff_complete options (some .handling) (some .welding) .zero whileHandling
  exact ⟨⟨record, hbest, hskipped⟩, hrefused rfl record "arm/torch" [] hbest hskipped⟩

end Transition

end ControlRig
