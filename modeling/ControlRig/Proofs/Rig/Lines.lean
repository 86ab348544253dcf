import ControlRig.Proofs.Rig.Leisure

/-!
# A line among others

What `Procedure.Leads` says of a procedure is said here of a line of a crew, which may be in the
middle of a call or asleep. Whatever the other lines do, as long as they only make the rig linger, a
line that leads to its goal still does (`Line.Leads.later`); a turn of its own brings it nearer
(`Crew.turn_of_leads`); and if it is given turn after turn it gets there (`Crew.reaches_of_leads`).

The registry keeps the calls and not who made them. That is read off the turns (`Crew.traffic`).
-/

namespace ControlRig

variable {α : Type} {T : Procedure α → Rig → Prop}

theorem Rig.registry_answer_of_prompt (rig : Rig) {action : Action} (prompt : action.IsPrompt) :
    (rig.answer action).2.registry = rig.registry := by
  rcases rig.answer_cases action with ⟨-, heq⟩ | ⟨-, heq⟩
  · rw [heq, rig.disarm_registry]
  · rw [heq]
    cases action with
    | readState resource => exact rig.countRead_registry
    | call | sleep | lock | unlock => exact absurd prompt id
    | _ => rfl

/-- A call that ends does not change what has been recorded. -/
theorem Crew.endCall_marks (rig : Rig) (operation : Operation) (limit : Duration) :
    (endCall rig operation limit).2.registry.calls = rig.registry.calls ∧
      (endCall rig operation limit).2.registry.reentrant = rig.registry.reentrant := by
  show (rig.registry.perform rig.clock limit operation).registry.leave.calls = _ ∧
    (rig.registry.perform rig.clock limit operation).registry.leave.reentrant = _
  unfold SimRegistry.perform
  split
  · exact ⟨rfl, rfl⟩
  · obtain ⟨held, h⟩ := SimRegistry.effect_registry rig.registry rig.clock operation
    rw [h]
    exact ⟨rfl, rfl⟩

/-- Who has noticed an overlap does not forget it. -/
theorem Procedure.Leads.apart {p : Procedure α} {rig : Rig} (h : p.Leads T rig)
    (apart : ∀ p rig, T p rig → rig.registry.reentrant = false) :
    rig.registry.reentrant = false := by
  induction h with
  | here h => exact apart _ _ (h _ (.refl _))
  | @call operation limit next rig _ ih =>
    have hended := ih rig (.refl rig) _ (Rig.lingers_elapse _ _) (Nat.le_refl _)
    rw [(Crew.endCall_marks _ operation limit).2] at hended
    exact (Bool.or_eq_false_iff.1 hended).1
  | @sleep d next rig _ ih =>
    exact ih rig (.refl rig) (rig.elapse d) (rig.lingers_elapse d) (Nat.le_refl _)
  | @act action next rig prompt _ ih =>
    rw [← rig.registry_answer_of_prompt prompt]
    exact ih rig (.refl rig)

namespace Line

/-- As `Procedure.Leads`, for a line. -/
def Leads (T : Procedure α → Rig → Prop) (rig : Rig) : Line α → Prop
  | .ready p => p.Leads T rig
  | .calling operation limit due next => ∀ ended, rig.Lingers ended → due ≤ ended.clock →
    (next (some (Crew.endCall ended operation limit).1)).Leads T
      (Crew.endCall ended operation limit).2
  | .sleeping due p => ∀ ended, rig.Lingers ended → due ≤ ended.clock → p.Leads T ended

theorem Leads.later {line : Line α} {rig after : Rig} (h : line.Leads T rig)
    (later : rig.Lingers after) : line.Leads T after := by
  cases line with
  | ready p => exact Procedure.Leads.later h later
  | calling operation limit due next => exact fun ended hended => h ended (later.trans hended)
  | sleeping due p => exact fun ended hended => h ended (later.trans hended)

theorem due_le_elapse (rig : Rig) (due : Instant) :
    due ≤ (rig.elapse (due.since .start)).clock := by
  show due.nanos ≤ rig.clock.nanos + (due.nanos - 0)
  omega

theorem Leads.apart {line : Line α} {rig : Rig} (h : line.Leads T rig)
    (apart : ∀ p rig, T p rig → rig.registry.reentrant = false) :
    rig.registry.reentrant = false := by
  cases line with
  | ready p => exact Procedure.Leads.apart h apart
  | calling operation limit due next =>
    have hended := (h _ (rig.lingers_elapse _) (due_le_elapse rig due)).apart apart
    rwa [(Crew.endCall_marks _ operation limit).2] at hended
  | sleeping due p =>
    exact (h _ (rig.lingers_elapse _) (due_le_elapse rig due)).apart apart

/-- Who has ended has got there. -/
theorem Leads.of_over {line : Line α} {rig : Rig} (h : line.Leads T rig)
    (hover : line.isOver = true) : ∃ p, line = .ready p ∧ T p rig := by
  cases line with
  | ready p =>
    cases h with
    | here h => exact ⟨p, rfl, h _ (.refl _)⟩
    | call | sleep | act => cases hover
  | calling operation limit due next => cases hover
  | sleeping due p => cases hover

/-- Who still has to get somewhere has not ended. -/
theorem Leads.not_over {line : Line α} {rig : Rig} (h : line.Leads T rig)
    (unended : ∀ p rig, T p rig → (Line.ready p).isOver = false) : line.isOver = false := by
  cases hover : line.isOver with
  | false => rfl
  | true =>
    obtain ⟨p, rfl, hgoal⟩ := h.of_over hover
    rw [unended p rig hgoal] at hover
    cases hover

end Line

namespace Crew

/-! ## Turns -/

/-- The call that enters by a turn of a line. -/
def entering (crew : Crew α) (i : Nat) : List Call :=
  match crew.lines[i]? with
  | some (.ready (.ask (.call operation limit) _)) =>
    if crew.rig.isArmedAt (.call operation limit) then [] else [operation.call]
  | _ => []

theorem act_of_prompt (crew : Crew α) (i : Nat) {action : Action} (prompt : action.IsPrompt)
    (next : Option action.Answer → Procedure α) :
    crew.act i action next =
      some (crew.goOn i (crew.rig.answer action).2 (.ready (next (crew.rig.answer action).1))) := by
  cases action with
  | call | sleep | lock | unlock => exact absurd prompt id
  | _ => rfl

theorem act_call (crew : Crew α) (i : Nat) (calm : crew.rig.armed = ∅) (operation : Operation)
    (limit : Duration) (next : Option Operation.Answer → Procedure α) :
    crew.act i (.call operation limit) next = some (crew.goOn i (enterCall crew.rig operation)
      (.calling operation limit (crew.rig.clock.after (crew.rig.registry.wait limit)) next)) :=
  if_neg (by rw [crew.rig.not_isArmedAt calm]; exact Bool.false_ne_true)

theorem turn_ready {crew : Crew α} {i : Nat} {action : Action}
    {next : Option action.Answer → Procedure α}
    (hline : crew.lines[i]? = some (.ready (.ask action next))) :
    crew.turn i = crew.act i action next := by
  rw [turn, hline]

theorem turn_calling {crew : Crew α} {i : Nat} {operation : Operation} {limit : Duration}
    {due : Instant} {next : Option Operation.Answer → Procedure α}
    (hline : crew.lines[i]? = some (.calling operation limit due next)) :
    crew.turn i = if due ≤ crew.rig.clock then
      some (crew.goOn i (endCall crew.rig operation limit).2
        (.ready (next (some (endCall crew.rig operation limit).1)))) else none := by
  rw [turn, hline]

theorem turn_sleeping {crew : Crew α} {i : Nat} {due : Instant} {p : Procedure α}
    (hline : crew.lines[i]? = some (.sleeping due p)) :
    crew.turn i =
      if due ≤ crew.rig.clock then some (crew.goOn i crew.rig (.ready p)) else none := by
  rw [turn, hline]

/-- **A turn of a line that leads to its goal**: it has got there, or it goes on and still leads
there, and has recorded the call that it has made. -/
theorem turn_of_leads {crew next : Crew α} {i : Nat} {line : Line α}
    (hline : crew.lines[i]? = some line) (leads : line.Leads T crew.rig)
    (calm : crew.rig.armed = ∅) (hturn : crew.turn i = some next) :
    (∃ p, line = .ready p ∧ T p crew.rig) ∨
      ∃ rig line', next = crew.goOn i rig line' ∧ line'.Leads T rig ∧ rig.armed = ∅ ∧
        rig.registry.calls = crew.rig.registry.calls ++ crew.entering i := by
  cases line with
  | ready p =>
    cases leads with
    | here h => exact .inl ⟨p, rfl, h _ (.refl _)⟩
    | @call operation limit after _ h =>
      rw [turn_ready hline, crew.act_call i calm] at hturn
      refine .inr ⟨_, _, (Option.some.inj hturn).symm, h _ (.refl _), calm, ?_⟩
      have hmade : crew.entering i = [operation.call] := by
        rw [entering, hline]
        exact if_neg (by rw [crew.rig.not_isArmedAt calm]; exact Bool.false_ne_true)
      rw [hmade]
      rfl
    | @sleep d after _ h =>
      rw [turn_ready hline] at hturn
      refine .inr ⟨_, _, (Option.some.inj hturn).symm, h _ (.refl _), calm, ?_⟩
      rw [entering, hline, List.append_nil]
    | @act action after _ prompt h =>
      rw [turn_ready hline, crew.act_of_prompt i prompt] at hturn
      refine .inr ⟨_, _, (Option.some.inj hturn).symm, h _ (.refl _), ?_, ?_⟩
      · rw [crew.rig.answer_of_calm calm]
        exact (crew.rig.respond_armed action).trans calm
      · have hmade : crew.entering i = [] := by
          rw [entering, hline]
          cases action with
          | call => exact absurd prompt id
          | _ => rfl
        rw [hmade, crew.rig.registry_answer_of_prompt prompt, List.append_nil]
  | calling operation limit due after =>
    rw [turn_calling hline] at hturn
    split at hturn
    · rename_i hdue
      refine .inr ⟨_, _, (Option.some.inj hturn).symm, leads _ (.refl _) hdue, calm, ?_⟩
      rw [entering, hline, (endCall_marks _ operation limit).1, List.append_nil]
    · cases hturn
  | sleeping due p =>
    rw [turn_sleeping hline] at hturn
    split at hturn
    · rename_i hdue
      refine .inr ⟨_, _, (Option.some.inj hturn).symm, leads _ (.refl _) hdue, calm, ?_⟩
      rw [entering, hline, List.append_nil]
    · cases hturn

/-! ## Events -/

theorem run?_cons {crew mid next : Crew α} (event : Event) {events : List Event}
    (hstep : crew.step? event = some mid) (hrun : mid.run? events = some next) :
    crew.run? (event :: events) = some next := by
  rw [run?, hstep]
  exact hrun

theorem run?_append {crew mid next : Crew α} {first events : List Event}
    (hfirst : crew.run? first = some mid) (hrun : mid.run? events = some next) :
    crew.run? (first ++ events) = some next := by
  induction first generalizing crew with
  | nil =>
    cases hfirst
    exact hrun
  | cons event rest ih =>
    obtain ⟨between, hstep, hrest⟩ := Option.bind_eq_some_iff.1 hfirst
    exact run?_cons event hstep (ih hrest)

/-- The calls that enter by an event, each with the line that makes it. -/
def entered (crew : Crew α) : Event → List (Nat × Call)
  | .turn i => (crew.entering i).map (i, ·)
  | .elapse _ => []

/-- The calls that enter by several events. -/
def traffic (crew : Crew α) : List Event → List (Nat × Call)
  | [] => []
  | event :: rest => crew.entered event ++ (crew.step? event).elim [] (·.traffic rest)

@[simp] theorem map_snd_own (i : Nat) (calls : List Call) :
    (calls.map (i, ·)).map Prod.snd = calls := by
  rw [List.map_map]
  exact List.map_id _

/-- The calls that a line has made. -/
def madeBy (i : Nat) (traffic : List (Nat × Call)) : List Call :=
  (traffic.filter (·.1 = i)).map Prod.snd

@[simp] theorem madeBy_append (i : Nat) (xs ys : List (Nat × Call)) :
    madeBy i (xs ++ ys) = madeBy i xs ++ madeBy i ys := by
  rw [madeBy, List.filter_append, List.map_append]
  rfl

@[simp] theorem madeBy_self (i : Nat) (calls : List Call) :
    madeBy i (calls.map (i, ·)) = calls := by
  induction calls with
  | nil => rfl
  | cons call rest ih => simpa [madeBy] using ih

theorem madeBy_other {i j : Nat} (h : j ≠ i) (calls : List Call) :
    madeBy i (calls.map (j, ·)) = [] := by
  simp [madeBy, h]

@[simp] theorem goOn_lines (crew : Crew α) (i : Nat) (rig : Rig) (line : Line α) :
    (crew.goOn i rig line).lines = crew.lines.set i line := rfl

theorem getElem?_goOn {crew : Crew α} {i : Nat} {line : Line α} (hline : crew.lines[i]? = some line)
    (rig : Rig) (line' : Line α) : (crew.goOn i rig line').lines[i]? = some line' := by
  obtain ⟨hlt, -⟩ := List.getElem?_eq_some_iff.1 hline
  rw [goOn_lines, List.getElem?_set_self hlt]

/-- A line gets somewhere by turns of its own and the passing of time. -/
def Reaches (crew : Crew α) (i : Nat) (T : Procedure α → Rig → Prop) : Prop :=
  ∃ events next p, crew.run? events = some next ∧ next.lines[i]? = some (.ready p) ∧ T p next.rig ∧
    next.holder = crew.holder ∧ next.turns = crew.turns

/-- A line gets there if it does after an event. -/
theorem reaches_cons {crew mid : Crew α} {i : Nat} (event : Event)
    (hstep : crew.step? event = some mid) (hholder : mid.holder = crew.holder)
    (hturns : mid.turns = crew.turns) (h : mid.Reaches i T) : crew.Reaches i T := by
  obtain ⟨events, next, p, hrun, hline, hgoal, hkept, hsame⟩ := h
  exact ⟨event :: events, next, p, run?_cons event hstep hrun, hline, hgoal, hkept.trans hholder,
    hsame.trans hturns⟩

theorem reaches_of_calling {crew : Crew α} {i : Nat} {operation : Operation} {limit : Duration}
    {due : Instant} {after : Option Operation.Answer → Procedure α}
    (hline : crew.lines[i]? = some (.calling operation limit due after))
    (h : ∀ ended, crew.rig.Lingers ended → due ≤ ended.clock → ∀ crew' : Crew α,
      crew'.rig = (endCall ended operation limit).2 →
      crew'.lines[i]? = some (.ready (after (some (endCall ended operation limit).1))) →
      crew'.Reaches i T) : crew.Reaches i T := by
  let ended := crew.rig.elapse (due.since .start)
  let waited : Crew α := { crew with rig := ended }
  have hdue : due ≤ ended.clock := Line.due_le_elapse crew.rig due
  have hwaited : waited.lines[i]? = some (.calling operation limit due after) := hline
  have hturn : waited.turn i = some (waited.goOn i (endCall ended operation limit).2
      (.ready (after (some (endCall ended operation limit).1)))) := by
    rw [turn_calling hwaited]
    exact if_pos hdue
  have hwait : crew.step? (.elapse (due.since .start)) = some waited := rfl
  refine reaches_cons _ hwait rfl rfl (reaches_cons (.turn i) hturn rfl rfl ?_)
  exact h ended (crew.rig.lingers_elapse _) hdue _ rfl (getElem?_goOn hwaited _ _)

theorem reaches_of_sleeping {crew : Crew α} {i : Nat} {due : Instant} {p : Procedure α}
    (hline : crew.lines[i]? = some (.sleeping due p))
    (h : ∀ ended, crew.rig.Lingers ended → due ≤ ended.clock → ∀ crew' : Crew α,
      crew'.rig = ended → crew'.lines[i]? = some (.ready p) → crew'.Reaches i T) :
    crew.Reaches i T := by
  let ended := crew.rig.elapse (due.since .start)
  let waited : Crew α := { crew with rig := ended }
  have hdue : due ≤ ended.clock := Line.due_le_elapse crew.rig due
  have hwaited : waited.lines[i]? = some (.sleeping due p) := hline
  have hturn : waited.turn i = some (waited.goOn i ended (.ready p)) := by
    rw [turn_sleeping hwaited]
    exact if_pos hdue
  have hwait : crew.step? (.elapse (due.since .start)) = some waited := rfl
  refine reaches_cons _ hwait rfl rfl (reaches_cons (.turn i) hturn rfl rfl ?_)
  exact h ended (crew.rig.lingers_elapse _) hdue _ rfl (getElem?_goOn hwaited _ _)

theorem reaches_of_ready {p : Procedure α} {rig : Rig} (leads : p.Leads T rig) {crew : Crew α}
    {i : Nat} (hrig : crew.rig = rig) (hline : crew.lines[i]? = some (.ready p))
    (calm : rig.armed = ∅) : crew.Reaches i T := by
  induction leads generalizing crew with
  | @here p rig h =>
    refine ⟨[], crew, p, rfl, hline, ?_, rfl, rfl⟩
    rw [hrig]
    exact h rig (.refl rig)
  | @call operation limit next rig _ ih =>
    subst hrig
    have hturn := turn_ready hline
    rw [crew.act_call i calm] at hturn
    refine reaches_cons (.turn i) hturn rfl rfl ?_
    refine reaches_of_calling (getElem?_goOn hline _ _) ?_
    intro ended hended hdue crew' hrig' hline'
    exact ih _ (.refl _) ended hended hdue hrig' hline' (hended.calm calm)
  | @sleep d next rig _ ih =>
    subst hrig
    refine reaches_cons (.turn i) (turn_ready hline) rfl rfl ?_
    refine reaches_of_sleeping (getElem?_goOn hline _ _) ?_
    intro ended hended hdue crew' hrig' hline'
    exact ih _ (.refl _) ended hended hdue hrig' hline' (hended.calm calm)
  | @act action next rig prompt _ ih =>
    subst hrig
    have hturn := turn_ready hline
    rw [crew.act_of_prompt i prompt] at hturn
    refine reaches_cons (.turn i) hturn rfl rfl ?_
    refine ih _ (.refl _) rfl (getElem?_goOn hline _ _) ?_
    rw [crew.rig.answer_of_calm calm]
    exact (crew.rig.respond_armed action).trans calm

/-- **A line that leads to its goal gets there if it is given turn after turn.** -/
theorem reaches_of_leads {crew : Crew α} {i : Nat} {line : Line α}
    (hline : crew.lines[i]? = some line) (leads : line.Leads T crew.rig)
    (calm : crew.rig.armed = ∅) : crew.Reaches i T := by
  cases line with
  | ready p => exact reaches_of_ready leads rfl hline calm
  | calling operation limit due after =>
    refine reaches_of_calling hline fun ended hended hdue crew' hrig hline' => ?_
    exact reaches_of_ready (leads ended hended hdue) hrig hline' (hended.calm calm)
  | sleeping due p =>
    refine reaches_of_sleeping hline fun ended hended hdue crew' hrig hline' => ?_
    exact reaches_of_ready (leads ended hended hdue) hrig hline' (hended.calm calm)

end Crew

end ControlRig
