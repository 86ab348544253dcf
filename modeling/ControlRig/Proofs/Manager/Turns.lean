import ControlRig.Proofs.Manager.Failure
import ControlRig.Proofs.Rig.Lines
import ControlRig.Proofs.Rig.Mirroring

/-!
# One after the other

Procedures that do everything under the manager's lock are carried out side by side as if one came
after the other, **in the order in which they take the lock** (`Crew.InTurns`). There are three
kinds of lines: those that wait for the lock, which take numbers at most (`Procedure.Waits`), the
one that holds it, which will come to what its procedure comes to when its turn begins
(`Line.Leads`), and those that have ended. A step keeps this up (`InTurns.step`), because whoever
does not hold the lock only makes the rig linger.

Nobody gets stuck: whoever holds the lock can go on until it is given back, and then another line
can take it (`InTurns.ends`).
-/

namespace ControlRig

namespace Procedure

variable {α β : Type} {R : α → β → Prop} {rig : Rig}

theorem Matches.later {q : Procedure β} {other after last : Rig} {a : α}
    (h : Matches R q other a after) (later : after.Lingers last) : Matches R q other a last := by
  obtain ⟨b, final, hrun, hab, hafter, hsteady⟩ := h
  exact ⟨b, final, hrun, hab, later.resembles.trans hafter, hsteady.later later⟩

/-- All that is left to do is to give the lock back. -/
def Closes (Q : α → Rig → Prop) (p : Procedure α) (rig : Rig) : Prop :=
  ∃ a, p = (of (.unlock false) >>= fun _ => .done a) ∧ Q a rig

/-- Once the lock has been taken, a step under it leads to giving the lock back. -/
theorem leads_entered {q : Procedure β} {other : Rig} {p : Procedure α} (calm : rig.armed = ∅)
    (crashed : Bool) (h : ∀ after, rig.Lingers after → p.Ensures (Matches R q other) after) :
    Leads (Closes (Matches R q other)) ((if crashed then
        warn "manager lock was poisoned by a panicking request; recovering"
      else pure ()) >>= fun _ => guarded p) rig := by
  have hguarded (after : Rig) (hafter : rig.Lingers after) :
      Leads (Closes (Matches R q other)) (guarded p) after := by
    refine (h after hafter).attempt.bind ?_
    rintro _ mid ⟨a, rfl, hmatches⟩
    exact .here fun last hlast => ⟨a, rfl, hmatches.later hlast⟩
  cases crashed with
  | true => exact (ensures_log calm .warn _).bind fun _ => hguarded
  | false => exact hguarded rig (.refl rig)

theorem attempt_bind_done (p : Procedure α) (f : α → β) :
    (p >>= fun a => .done (f a)).attempt = p.attempt >>= fun result => .done (result.map f) := by
  induction p with
  | done a => rfl
  | crash => rfl
  | ask action next ih =>
    simp only [ask_bind, attempt]
    exact congrArg _ (funext ih)

/-- What is made of the value can be made of it before the lock is given back. -/
theorem withLock_bind_done (step : ManagerState → Procedure α) (f : α → β) :
    (withLock step >>= fun a => .done (f a)) =
      withLock fun state => step state >>= fun a => .done (f a) := by
  rw [withLock_eq, withLock_eq, bind_assoc]
  congr 1
  funext locked
  rw [bind_assoc]
  congr 1
  funext _
  unfold guarded
  rw [attempt_bind_done, bind_assoc, bind_assoc]
  congr 1
  funext result
  cases result with
  | some a => exact bind_assoc (of (.unlock false)) (fun _ => .done a) _
  | none => exact bind_assoc (of (.unlock true)) (fun _ => .crash) _

/-- A procedure waits for the lock, and what it does under it comes to what another one comes to.
Before that it can take numbers. -/
inductive Waits (R : α → β → Prop) (q : Procedure β) : Procedure α → Prop
  | lock {step : ManagerState → Procedure α} :
      (∀ rig other, rig.Resembles other → rig.Steady →
        (step rig.memory).Ensures (Matches R q other) rig) → Waits R q (withLock step)
  | number {next : Nat → Procedure α} :
      (∀ n, Waits R q (next n)) → Waits R q (of .nextNumber >>= next)

theorem Waits.not_over {q : Procedure β} {p : Procedure α} (h : Waits R q p) :
    (Line.ready p).isOver = false := by
  cases h <;> rfl

end Procedure

namespace Crew

open Procedure

variable {α : Type} {R : α → α → Prop} {procedures : List (Procedure α)} {rig : Rig}
  {lines : List (Line α)} {crew next : Crew α} {traffic : List (Nat × Call)} {i : Nat}

theorem nodup_concat {turns : List Nat} : (turns ++ [i]).Nodup ↔ turns.Nodup ∧ i ∉ turns := by
  rw [List.nodup_append]
  constructor
  · rintro ⟨h, -, hne⟩
    exact ⟨h, fun hmem => hne i hmem i (List.mem_singleton_self i) rfl⟩
  · rintro ⟨h, hnot⟩
    refine ⟨h, List.nodup_cons.2 ⟨List.not_mem_nil, List.nodup_nil⟩, ?_⟩
    rintro j hj k hk rfl
    exact hnot (List.mem_singleton.1 hk ▸ hj)

/-- An element of a list with one more is the last one, or is in the list. -/
theorem split_concat {before after turns : List Nat} {j : Nat}
    (h : turns ++ [j] = before ++ i :: after) :
    (before = turns ∧ i = j) ∨ ∃ rest, turns = before ++ i :: rest := by
  rcases List.eq_nil_or_concat after with rfl | ⟨rest, k, rfl⟩
  · obtain ⟨rfl, hj⟩ := List.append_inj' h rfl
    exact .inl ⟨rfl, (List.cons.inj hj).1.symm⟩
  · rw [List.concat_eq_append, ← List.cons_append, ← List.append_assoc] at h
    exact .inr ⟨rest, (List.append_inj' h rfl).1⟩

/-! ## In turn -/

/-- The rig after the procedures of some lines, one after the other. -/
def inTurn (procedures : List (Procedure α)) (rig : Rig) (turns : List Nat) : Rig :=
  turns.foldl (fun rig i => ((procedures.getD i .crash).run rig).2) rig

/-- The calls of the procedures of some lines, one after the other. -/
def callsInTurn (procedures : List (Procedure α)) : Rig → List Nat → List (Nat × Call)
  | _, [] => []
  | rig, i :: rest =>
    let p := procedures.getD i .crash
    (Observation.calls (p.history rig)).map (i, ·) ++ callsInTurn procedures (p.run rig).2 rest

theorem inTurn_concat (procedures : List (Procedure α)) (rig : Rig) (turns : List Nat) (i : Nat) :
    inTurn procedures rig (turns ++ [i]) =
      ((procedures.getD i .crash).run (inTurn procedures rig turns)).2 :=
  List.foldl_append ..

theorem calm_inTurn (procedures : List (Procedure α)) (calm : rig.armed = ∅) (turns : List Nat) :
    (inTurn procedures rig turns).armed = ∅ := by
  induction turns generalizing rig with
  | nil => exact calm
  | cons j rest ih => exact ih (calm_run _ calm)

theorem callsInTurn_append (procedures : List (Procedure α)) (rig : Rig) (xs ys : List Nat) :
    callsInTurn procedures rig (xs ++ ys) =
      callsInTurn procedures rig xs ++ callsInTurn procedures (inTurn procedures rig xs) ys := by
  induction xs generalizing rig with
  | nil => rfl
  | cons j rest ih =>
    rw [List.cons_append, callsInTurn, ih, callsInTurn, List.append_assoc]
    rfl

theorem madeBy_callsInTurn_of_not_mem {turns : List Nat} (h : i ∉ turns) :
    madeBy i (callsInTurn procedures rig turns) = [] := by
  induction turns generalizing rig with
  | nil => rfl
  | cons j rest ih =>
    rw [List.mem_cons, not_or] at h
    rw [callsInTurn, madeBy_append, madeBy_other (Ne.symm h.1), ih h.2]
    rfl

/-- What a line has called is what its procedure calls in its turn. -/
theorem madeBy_callsInTurn {before after : List Nat} (once : (before ++ i :: after).Nodup) :
    madeBy i (callsInTurn procedures rig (before ++ i :: after)) = Observation.calls
      ((procedures.getD i .crash).history (inTurn procedures rig before)) := by
  obtain ⟨-, hlast, hne⟩ := List.nodup_append.1 once
  have hbefore : i ∉ before := fun hmem => hne i hmem i List.mem_cons_self rfl
  rw [callsInTurn_append, callsInTurn, madeBy_append, madeBy_callsInTurn_of_not_mem hbefore,
    madeBy_append, madeBy_self, madeBy_callsInTurn_of_not_mem (List.nodup_cons.1 hlast).1,
    List.append_nil]
  rfl

theorem calls_inTurn (procedures : List (Procedure α)) (rig : Rig) (turns : List Nat) :
    (inTurn procedures rig turns).registry.calls =
      rig.registry.calls ++ (callsInTurn procedures rig turns).map Prod.snd := by
  induction turns generalizing rig with
  | nil => exact (List.append_nil _).symm
  | cons j rest ih =>
    rw [callsInTurn, List.map_append, map_snd_own, ← List.append_assoc, ← run_calls]
    exact ih _

/-- The lines that have had their turns have ended with what their procedures come to. -/
def Settled (R : α → α → Prop) (procedures : List (Procedure α)) (rig : Rig)
    (lines : List (Line α)) (turns : List Nat) : Prop :=
  ∀ before i after, turns = before ++ i :: after → ∃ a b, lines[i]? = some (.ready (.done a)) ∧
    ((procedures.getD i .crash).run (inTurn procedures rig before)).1 = some b ∧ R a b

theorem Settled.concat {turns : List Nat} (h : Settled R procedures rig lines turns)
    (last : ∃ a b, lines[i]? = some (.ready (.done a)) ∧
      ((procedures.getD i .crash).run (inTurn procedures rig turns)).1 = some b ∧ R a b) :
    Settled R procedures rig lines (turns ++ [i]) := by
  intro before j after heq
  rcases split_concat heq with ⟨rfl, rfl⟩ | ⟨rest, hturns⟩
  · exact last
  · exact h before j rest hturns

theorem Settled.done_of_mem {turns : List Nat} (h : Settled R procedures rig lines turns)
    (hmem : i ∈ turns) : ∃ a, lines[i]? = some (.ready (.done a)) := by
  obtain ⟨before, after, heq⟩ := List.append_of_mem hmem
  obtain ⟨a, -, hline, -⟩ := h before i after heq
  exact ⟨a, hline⟩

/-- What another line does makes no difference. -/
theorem Settled.set {turns : List Nat} (h : Settled R procedures rig lines turns)
    (other : i ∉ turns) (line : Line α) : Settled R procedures rig (lines.set i line) turns := by
  intro before j after heq
  have hne : i ≠ j := by
    rintro rfl
    exact other (heq ▸ List.mem_append_right _ List.mem_cons_self)
  rw [List.getElem?_set_ne hne]
  exact h before j after heq

/-! ## The invariant -/

/-- How a crew stands to the procedures one after the other: all that have begun have ended, or the
last one is under way. -/
inductive Underway (R : α → α → Prop) (procedures : List (Procedure α)) (rig : Rig)
    (crew : Crew α) (traffic : List (Nat × Call)) : Prop
  | free : crew.holder = none → Settled R procedures rig crew.lines crew.turns →
      crew.rig.Resembles (inTurn procedures rig crew.turns) → crew.rig.Steady →
      traffic = callsInTurn procedures rig crew.turns → Underway R procedures rig crew traffic
  | held {i : Nat} {before : List Nat} {own : List Call} {line : Line α} :
      crew.holder = some i → crew.turns = before ++ [i] →
      Settled R procedures rig crew.lines before → crew.lines[i]? = some line →
      line.Leads (Closes (Matches R (procedures.getD i .crash) (inTurn procedures rig before)))
        crew.rig →
      traffic = callsInTurn procedures rig before ++ own.map (i, ·) →
      crew.rig.registry.calls = (inTurn procedures rig before).registry.calls ++ own →
      Underway R procedures rig crew traffic

/-- **A crew carries out procedures as if one came after the other.** -/
structure InTurns (R : α → α → Prop) (procedures : List (Procedure α)) (rig : Rig)
    (crew : Crew α) (traffic : List (Nat × Call)) : Prop where
  known : ∀ i ∈ crew.turns, i < procedures.length
  once : crew.turns.Nodup
  calm : crew.rig.armed = ∅
  size : crew.lines.length = procedures.length
  waits : ∀ i < procedures.length, i ∉ crew.turns →
    ∃ p, crew.lines[i]? = some (.ready p) ∧ Waits R (procedures.getD i .crash) p
  underway : Underway R procedures rig crew traffic

theorem inTurns_start (steady : rig.Steady) (waits : ∀ p ∈ procedures, Waits R p p) :
    InTurns R procedures rig (start rig procedures) [] where
  known := fun i hi => absurd hi List.not_mem_nil
  once := List.nodup_nil
  calm := steady.calm
  size := List.length_map _
  waits := by
    intro i hi _
    have hget : procedures.getD i .crash = procedures[i] := by
      rw [List.getD_eq_getElem?_getD, List.getElem?_eq_getElem hi, Option.getD_some]
    refine ⟨procedures[i], ?_, ?_⟩
    · rw [start, List.getElem?_map, List.getElem?_eq_getElem hi, Option.map_some]
    · rw [hget]
      exact waits _ (List.getElem_mem hi)
  underway := by
    refine .free rfl ?_ (.refl rig) steady rfl
    intro before i after heq
    cases before <;> cases heq

/-- Nobody has got in the way of anybody. -/
theorem InTurns.apart (h : InTurns R procedures rig crew traffic) :
    crew.rig.registry.reentrant = false := by
  cases h.underway with
  | free _ _ _ steady => exact steady.apart
  | held _ _ _ _ leads =>
    refine leads.apart ?_
    rintro _ after ⟨a, -, b, final, -, -, -, steady⟩
    exact steady.apart

/-- Whoever has ended has come to what its procedure comes to in its turn, by the same calls. -/
theorem InTurns.ended (h : InTurns R procedures rig crew traffic) {before after : List Nat}
    (hturns : crew.turns = before ++ i :: after) (released : crew.holder ≠ some i) :
    (∃ a b, crew.lines[i]? = some (.ready (.done a)) ∧
      ((procedures.getD i .crash).run (inTurn procedures rig before)).1 = some b ∧ R a b) ∧
    madeBy i traffic = Observation.calls
      ((procedures.getD i .crash).history (inTurn procedures rig before)) := by
  have honce := h.once
  cases h.underway with
  | free _ settled _ _ htraffic =>
    rw [hturns] at honce htraffic
    exact ⟨settled before i after hturns, htraffic ▸ madeBy_callsInTurn honce⟩
  | @held j turned own line hheld hlast settled _ _ htraffic =>
    have hne : j ≠ i := fun heq => released (heq ▸ hheld)
    -- somebody else has had the last turn
    obtain ⟨rest, rfl⟩ : ∃ rest, turned = before ++ i :: rest := by
      rcases split_concat (hlast.symm.trans hturns) with ⟨-, heq⟩ | hrest
      · exact absurd heq.symm hne
      · exact hrest
    rw [hlast] at honce
    refine ⟨settled before i rest rfl, ?_⟩
    rw [htraffic, madeBy_append, madeBy_other hne, List.append_nil,
      madeBy_callsInTurn (nodup_concat.1 honce).1]

/-- All calls have been made in turn. -/
theorem InTurns.calls (h : InTurns R procedures rig crew traffic) :
    crew.rig.registry.calls = rig.registry.calls ++ traffic.map Prod.snd := by
  cases h.underway with
  | free _ _ hsame _ htraffic => rw [hsame.calls, calls_inTurn, htraffic]
  | @held i before own line _ _ _ _ _ htraffic hcalls =>
    rw [hcalls, calls_inTurn, htraffic, List.map_append, map_snd_own, List.append_assoc]

/-! ## Steps -/

theorem Underway.later (h : Underway R procedures rig crew traffic) {after : Rig}
    (later : crew.rig.Lingers after) :
    Underway R procedures rig { crew with rig := after } traffic := by
  cases h with
  | free hfree settled hsame steady htraffic =>
    exact .free hfree settled (later.resembles.trans hsame) (steady.later later) htraffic
  | held hheld hturns settled hline leads htraffic hcalls =>
    refine .held hheld hturns settled hline (leads.later later) htraffic ?_
    rw [← hcalls]
    exact congrArg SimRegistry.calls later.registry

/-- A line that waits does nothing to the others. -/
theorem Underway.set (h : Underway R procedures rig crew traffic) (other : i ∉ crew.turns)
    (line : Line α) :
    Underway R procedures rig { crew with lines := crew.lines.set i line } traffic := by
  cases h with
  | free hfree settled hsame steady htraffic =>
    exact .free hfree (settled.set other line) hsame steady htraffic
  | @held j before own line' hheld hturns settled hline leads htraffic hcalls =>
    rw [hturns] at other
    have hne : i ≠ j := fun heq => other (heq ▸ List.mem_concat_self)
    refine .held hheld hturns ?_ ?_ leads htraffic hcalls
    · exact settled.set (fun hmem => other (List.mem_append_left _ hmem)) line
    · rw [List.getElem?_set_ne hne]
      exact hline

/-- The other lines that wait still do. -/
theorem InTurns.waits_set (h : InTurns R procedures rig crew traffic) (line : Line α) {j : Nat}
    (hj : j < procedures.length) (hnot : j ∉ crew.turns) (hne : i ≠ j) :
    ∃ p, (crew.lines.set i line)[j]? = some (.ready p) ∧ Waits R (procedures.getD j .crash) p := by
  rw [List.getElem?_set_ne hne]
  exact h.waits j hj hnot

theorem InTurns.goOn_waits (h : InTurns R procedures rig crew traffic) (other : i ∉ crew.turns)
    {line : Line α} (hline : crew.lines[i]? = some line) {after : Rig} {p : Procedure α}
    (later : crew.rig.Lingers after) (waits : Waits R (procedures.getD i .crash) p) :
    InTurns R procedures rig (crew.goOn i after (.ready p)) traffic where
  known := h.known
  once := h.once
  calm := later.calm h.calm
  size := List.length_set.trans h.size
  waits := by
    intro j hj hnot
    by_cases hij : i = j
    · subst hij
      exact ⟨p, getElem?_goOn hline _ _, waits⟩
    · exact h.waits_set _ hj hnot hij
  underway := (h.underway.set other (.ready p)).later later

/-- A turn of a line that has begun leaves those alone that wait. -/
theorem InTurns.goOn_begun (h : InTurns R procedures rig crew traffic) (begun : i ∈ crew.turns)
    {line : Line α} {traffic' : List (Nat × Call)} (hlines : next.lines = crew.lines.set i line)
    (hturns : next.turns = crew.turns) (calm : next.rig.armed = ∅)
    (underway : Underway R procedures rig next traffic') :
    InTurns R procedures rig next traffic' where
  known := hturns ▸ h.known
  once := hturns ▸ h.once
  calm := calm
  size := hlines ▸ List.length_set.trans h.size
  waits := by
    intro j hj hnot
    rw [hturns] at hnot
    rw [hlines]
    exact h.waits_set line hj hnot fun heq => hnot (heq ▸ begun)
  underway := underway

/-- Taking the lock. -/
theorem InTurns.take (h : InTurns R procedures rig crew traffic) (hi : i < procedures.length)
    (other : i ∉ crew.turns) (hfree : crew.holder = none) {step : ManagerState → Procedure α}
    (hline : crew.lines[i]? = some (.ready (withLock step)))
    (waits : ∀ rig other, rig.Resembles other → rig.Steady →
      (step rig.memory).Ensures (Matches R (procedures.getD i .crash) other) rig)
    (hturn : crew.turn i = some next) : InTurns R procedures rig next traffic := by
  cases h.underway with
  | held hheld =>
    rw [hfree] at hheld
    cases hheld
  | free _ settled hsame steady htraffic =>
    rw [withLock_eq] at hline
    rw [turn_ready hline, act, hfree] at hturn
    cases hturn
    -- whatever is logged on the way, the step begins with the memory that it has been given
    have hleads := leads_entered steady.calm crew.rig.crashed fun after hafter =>
      hafter.memory ▸ waits after _ (hafter.resembles.trans hsame) (steady.later hafter)
    exact
      { known := fun j hj => by
          rcases List.mem_append.1 hj with hj | hj
          · exact h.known j hj
          · rw [List.mem_singleton.1 hj]
            exact hi
        once := nodup_concat.2 ⟨h.once, other⟩
        calm := h.calm
        size := List.length_set.trans h.size
        waits := fun j hj hnot => h.waits_set _ hj (fun hmem => hnot (List.mem_append_left _ hmem))
          fun heq => hnot (heq ▸ List.mem_concat_self)
        underway := .held rfl rfl (settled.set other _) (getElem?_goOn hline crew.rig _) hleads
          (htraffic.trans (List.append_nil _).symm)
          (hsame.calls.trans (List.append_nil _).symm) }

/-- While somebody holds the lock, the others cannot take it. -/
theorem turn_locked {step : ManagerState → Procedure α} {j : Nat}
    (hline : crew.lines[i]? = some (.ready (withLock step))) (held : crew.holder = some j) :
    crew.turn i = none := by
  rw [withLock_eq] at hline
  rw [turn_ready hline, act, held]

theorem turn_closing {a : α}
    (hline : crew.lines[i]? = some (.ready (of (.unlock false) >>= fun _ => .done a))) :
    crew.turn i = some { crew.goOn i crew.rig (.ready (.done a)) with holder := none } := by
  have hrig : { crew.rig with crashed := crew.rig.crashed || false } = crew.rig := by
    rw [Bool.or_false]
  have hturn : crew.turn i = some { crew.goOn i
      { crew.rig with crashed := crew.rig.crashed || false } (.ready (.done a)) with
        holder := none } :=
    turn_ready hline
  rw [hturn, hrig]

theorem turn_number {after : Nat → Procedure α}
    (hline : crew.lines[i]? = some (.ready (of .nextNumber >>= after)))
    (calm : crew.rig.armed = ∅) :
    crew.turn i = some (crew.goOn i { crew.rig with numbers := crew.rig.numbers + 1 }
      (.ready (after (crew.rig.numbers + 1)))) := by
  have hprompt : Action.IsPrompt .nextNumber := trivial
  rw [turn_ready hline, crew.act_of_prompt i hprompt, crew.rig.answer_of_calm calm]
  rfl

/-- Whoever gives the lock back has come to what its procedure comes to in its turn. -/
theorem InTurns.close (h : InTurns R procedures rig crew traffic) {before : List Nat}
    {own : List Call} {a : α} (hturns : crew.turns = before ++ [i])
    (settled : Settled R procedures rig crew.lines before)
    (hline : crew.lines[i]? = some (.ready (of (.unlock false) >>= fun _ => .done a)))
    (hmatches : Matches R (procedures.getD i .crash) (inTurn procedures rig before) a crew.rig)
    (htraffic : traffic = callsInTurn procedures rig before ++ own.map (i, ·))
    (hcalls : crew.rig.registry.calls = (inTurn procedures rig before).registry.calls ++ own) :
    InTurns R procedures rig { crew.goOn i crew.rig (.ready (.done a)) with holder := none }
      traffic := by
  obtain ⟨b, final, hrun, hab, hsame, steady⟩ := hmatches
  have hmem : i ∈ crew.turns := hturns ▸ List.mem_concat_self
  have hnew : i ∉ before := (nodup_concat.1 (hturns ▸ h.once)).2
  have hfinal : inTurn procedures rig crew.turns = final := by
    rw [hturns, inTurn_concat, hrun]
  -- the registry tells which calls this line has made
  have hown : own = Observation.calls
      ((procedures.getD i .crash).history (inTurn procedures rig before)) := by
    have hlog := run_calls (procedures.getD i .crash) (inTurn procedures rig before)
    rw [hrun, ← hsame.calls, hcalls] at hlog
    exact List.append_cancel_left hlog
  refine h.goOn_begun hmem rfl rfl h.calm (.free rfl ?_ (hfinal ▸ hsame) steady ?_)
  · show Settled R procedures rig (crew.lines.set i _) crew.turns
    rw [hturns]
    exact (settled.set hnew _).concat ⟨a, b, getElem?_goOn hline crew.rig _, by rw [hrun], hab⟩
  · rw [htraffic, hown]
    show _ = callsInTurn procedures rig crew.turns
    rw [hturns, callsInTurn_append, callsInTurn, callsInTurn, List.append_nil]

/-- A turn of the line that holds the lock. -/
theorem InTurns.turn_holder (h : InTurns R procedures rig crew traffic)
    (held : crew.holder = some i) (hturn : crew.turn i = some next) :
    InTurns R procedures rig next (traffic ++ crew.entered (.turn i)) := by
  cases h.underway with
  | free hfree =>
    rw [held] at hfree
    cases hfree
  | @held j before own line hheld hturns settled hline leads htraffic hcalls =>
    cases held.symm.trans hheld
    rcases turn_of_leads hline leads h.calm hturn with ⟨p, rfl, a, rfl, hmatches⟩ |
      ⟨rig', line', rfl, hleads, hcalm, hgrown⟩
    · -- there is nothing left to do but to give the lock back
      have hquiet : crew.entered (.turn i) = [] := by
        rw [entered, entering, hline]
        rfl
      rw [turn_closing hline] at hturn
      cases hturn
      rw [hquiet, List.append_nil]
      exact h.close hturns settled hline hmatches htraffic hcalls
    · -- it goes on, and a call that it makes is added to its own
      have hmem : i ∈ crew.turns := hturns ▸ List.mem_concat_self
      have hnew : i ∉ before := (nodup_concat.1 (hturns ▸ h.once)).2
      have hmade : traffic ++ crew.entered (.turn i) =
          callsInTurn procedures rig before ++ (own ++ crew.entering i).map (i, ·) := by
        rw [htraffic, List.map_append, List.append_assoc]
        rfl
      have hlog : rig'.registry.calls =
          (inTurn procedures rig before).registry.calls ++ (own ++ crew.entering i) := by
        rw [hgrown, hcalls, List.append_assoc]
      exact h.goOn_begun hmem rfl rfl hcalm (.held held hturns (settled.set hnew _)
        (getElem?_goOn hline rig' _) hleads hmade hlog)

/-- Without the lock, only who waits has a turn. -/
theorem InTurns.waits_of_turn (h : InTurns R procedures rig crew traffic)
    (other : crew.holder ≠ some i) (hturn : crew.turn i = some next) :
    i < procedures.length ∧ i ∉ crew.turns ∧
      ∃ p, crew.lines[i]? = some (.ready p) ∧ Waits R (procedures.getD i .crash) p := by
  have hi : i < procedures.length := by
    refine Classical.byContradiction fun hnot => ?_
    have hnone : crew.lines[i]? = none := List.getElem?_eq_none (h.size ▸ Nat.le_of_not_lt hnot)
    rw [turn, hnone] at hturn
    cases hturn
  have hmem : i ∉ crew.turns := by
    intro hmem
    obtain ⟨a, hline⟩ : ∃ a, crew.lines[i]? = some (.ready (.done a)) := by
      cases h.underway with
      | free _ settled => exact settled.done_of_mem hmem
      | held hheld hturns settled =>
        rw [hturns, List.mem_append, List.mem_singleton] at hmem
        rcases hmem with hmem | rfl
        · exact settled.done_of_mem hmem
        · exact absurd hheld other
    rw [turn, hline] at hturn
    cases hturn
  exact ⟨hi, hmem, h.waits i hi hmem⟩

/-- A turn of another line. -/
theorem InTurns.turn_other (h : InTurns R procedures rig crew traffic)
    (other : crew.holder ≠ some i) (hturn : crew.turn i = some next) :
    InTurns R procedures rig next (traffic ++ crew.entered (.turn i)) := by
  obtain ⟨hi, hmem, p, hline, hwaits⟩ := h.waits_of_turn other hturn
  have hquiet : crew.entered (.turn i) = [] := by
    rw [entered, entering, hline]
    cases hwaits <;> rfl
  rw [hquiet, List.append_nil]
  cases hwaits with
  | @lock step hstep =>
    cases hholder : crew.holder with
    | none => exact h.take hi hmem hholder hline hstep hturn
    | some j =>
      rw [turn_locked hline hholder] at hturn
      cases hturn
  | @number after hafter =>
    rw [turn_number hline h.calm] at hturn
    cases hturn
    exact h.goOn_waits hmem hline ⟨rfl, rfl, rfl, rfl, rfl, Nat.le_refl _⟩ (hafter _)

/-- **Whatever happens next, it is still as if one procedure came after the other.** -/
theorem InTurns.step (h : InTurns R procedures rig crew traffic) {event : Event}
    (hstep : crew.step? event = some next) :
    InTurns R procedures rig next (traffic ++ crew.entered event) := by
  cases event with
  | elapse d =>
    cases hstep
    rw [entered, List.append_nil]
    exact { h with
      calm := h.calm
      underway := h.underway.later (crew.rig.lingers_elapse d) }
  | turn i =>
    by_cases hheld : crew.holder = some i
    · exact h.turn_holder hheld hstep
    · exact h.turn_other hheld hstep

theorem InTurns.run (h : InTurns R procedures rig crew traffic) {events : List Event}
    (hrun : crew.run? events = some next) :
    InTurns R procedures rig next (traffic ++ crew.traffic events) := by
  induction events generalizing crew traffic with
  | nil =>
    cases hrun
    rw [Crew.traffic, List.append_nil]
    exact h
  | cons event rest ih =>
    obtain ⟨mid, hstep, hrest⟩ := Option.bind_eq_some_iff.1 hrun
    have hlast := ih (h.step hstep) hrest
    rw [Crew.traffic, hstep, Option.elim_some, ← List.append_assoc]
    exact hlast

/-- While a line holds the lock, the others leave alone what it guards. -/
theorem InTurns.lingers_of_held (h : InTurns R procedures rig crew traffic) {event : Event}
    (held : crew.holder = some i) (other : event ≠ .turn i) (hstep : crew.step? event = some next) :
    crew.rig.Lingers next.rig ∧ next.holder = some i := by
  cases event with
  | elapse d =>
    cases hstep
    exact ⟨crew.rig.lingers_elapse d, held⟩
  | turn j =>
    have hne : crew.holder ≠ some j := fun heq =>
      other (congrArg _ (Option.some.inj (heq.symm.trans held)))
    obtain ⟨-, -, p, hline, hwaits⟩ := h.waits_of_turn hne hstep
    cases hwaits with
    | lock =>
      cases (turn_locked hline held).symm.trans hstep
    | number =>
      cases (turn_number hline h.calm).symm.trans hstep
      exact ⟨⟨rfl, rfl, rfl, rfl, rfl, Nat.le_refl _⟩, held⟩

/-! ## The end -/

theorem isOver_iff : crew.isOver = true ↔ ∀ (i : Nat) (line : Line α),
    crew.lines[i]? = some line → line.isOver = true := by
  rw [isOver, List.all_eq_true]
  constructor
  · intro h i line hline
    exact h line (List.mem_of_getElem? hline)
  · intro h line hmem
    obtain ⟨i, hline⟩ := List.getElem?_of_mem hmem
    exact h i line hline

/-- When all is over, every line has had its turn. -/
theorem InTurns.perm_of_over (h : InTurns R procedures rig crew traffic)
    (ended : crew.isOver = true) :
    crew.holder = none ∧ crew.turns.Perm (List.range procedures.length) := by
  rw [isOver_iff] at ended
  constructor
  · cases h.underway with
    | free hfree => exact hfree
    | held _ _ _ hline leads =>
      have hopen := leads.not_over fun p after hcloses => by
        obtain ⟨a, rfl, -⟩ := hcloses
        rfl
      rw [ended _ _ hline] at hopen
      cases hopen
  · rw [List.perm_ext_iff_of_nodup h.once List.nodup_range]
    intro i
    rw [List.mem_range]
    refine ⟨h.known i, fun hi => Classical.byContradiction fun hnot => ?_⟩
    obtain ⟨p, hline, hwaits⟩ := h.waits i hi hnot
    have hopen := hwaits.not_over
    rw [ended _ _ hline] at hopen
    cases hopen

/-- Whoever holds the lock can go on until it is given back. -/
theorem InTurns.releases (h : InTurns R procedures rig crew traffic) :
    ∃ events next, crew.run? events = some next ∧ next.holder = none ∧
      next.turns = crew.turns := by
  cases h.underway with
  | free hfree => exact ⟨[], crew, rfl, hfree, rfl⟩
  | @held i before own line hheld hturns settled hline leads =>
    obtain ⟨events, mid, p, hrun, hmid, ⟨a, rfl, -⟩, -, hsame⟩ :=
      reaches_of_leads hline leads h.calm
    have hgiven : mid.run? [.turn i] =
        some { mid.goOn i mid.rig (.ready (.done a)) with holder := none } :=
      run?_cons (.turn i) (turn_closing hmid) rfl
    exact ⟨events ++ [.turn i], { mid.goOn i mid.rig (.ready (.done a)) with holder := none },
      run?_append hrun hgiven, rfl, hsame⟩

/-- A line can take the lock when it is free. -/
theorem exists_take {p q : Procedure α} (waits : Waits R q p)
    (hline : crew.lines[i]? = some (.ready p)) (hfree : crew.holder = none)
    (calm : crew.rig.armed = ∅) :
    ∃ events next, crew.run? events = some next ∧ next.turns = crew.turns ++ [i] := by
  induction waits generalizing crew with
  | @lock step =>
    rw [withLock_eq] at hline
    have hturn := turn_ready hline
    rw [act, hfree] at hturn
    exact ⟨[.turn i], _, run?_cons (.turn i) hturn rfl, rfl⟩
  | @number after _ ih =>
    have hgone := getElem?_goOn hline { crew.rig with numbers := crew.rig.numbers + 1 }
      (.ready (after (crew.rig.numbers + 1)))
    obtain ⟨events, next, hrun, hturns⟩ := ih _ hgone hfree calm
    exact ⟨.turn i :: events, next, run?_cons (.turn i) (turn_number hline calm) hrun, hturns⟩

/-- When the lock is free and nobody waits for it, all is over. -/
theorem InTurns.over_of_free (h : InTurns R procedures rig crew traffic)
    (hfree : crew.holder = none) (all : ∀ i < procedures.length, i ∈ crew.turns) :
    crew.isOver = true := by
  refine isOver_iff.2 fun i line hline => ?_
  obtain ⟨hlt, -⟩ := List.getElem?_eq_some_iff.1 hline
  cases h.underway with
  | free _ settled =>
    obtain ⟨a, hdone⟩ := settled.done_of_mem (all i (h.size ▸ hlt))
    cases hline.symm.trans hdone
    rfl
  | held hheld =>
    rw [hfree] at hheld
    cases hheld

/-- **Everybody can come to an end**, whatever has happened so far. -/
theorem InTurns.ends (h : InTurns R procedures rig crew traffic) :
    ∃ events done, crew.run? events = some done ∧ done.isOver = true := by
  suffices hpending : ∀ pending : List Nat, ∀ (crew : Crew α) (traffic : List (Nat × Call)),
      InTurns R procedures rig crew traffic →
      (∀ i < procedures.length, i ∉ crew.turns → i ∈ pending) →
      ∃ events done, crew.run? events = some done ∧ done.isOver = true by
    exact hpending (List.range procedures.length) crew traffic h fun i hi _ => List.mem_range.2 hi
  intro pending
  -- the induction is on those that may still have to wait
  induction pending with
  | nil =>
    intro crew traffic h hpending
    obtain ⟨events, mid, hrun, hfree, hturns⟩ := h.releases
    refine ⟨events, mid, hrun, (h.run hrun).over_of_free hfree fun i hi => ?_⟩
    rw [hturns]
    exact Classical.byContradiction fun hnot => List.not_mem_nil (hpending i hi hnot)
  | cons j rest ih =>
    intro crew traffic h hpending
    by_cases hj : j < procedures.length ∧ j ∉ crew.turns
    · obtain ⟨events, mid, hrun, hfree, hturns⟩ := h.releases
      have hmid := h.run hrun
      obtain ⟨p, hline, hwaits⟩ := hmid.waits j hj.1 (hturns ▸ hj.2)
      obtain ⟨more, next, htake, htaken⟩ := exists_take hwaits hline hfree hmid.calm
      rw [hturns] at htaken
      obtain ⟨last, done, hlast, hover⟩ := ih next _ (hmid.run htake) fun i hi hnot => by
        rw [htaken, List.mem_append, List.mem_singleton] at hnot
        rcases List.mem_cons.1 (hpending i hi fun hmem => hnot (.inl hmem)) with heq | hmem
        · exact absurd (.inr heq) hnot
        · exact hmem
      exact ⟨events ++ (more ++ last), done, run?_append hrun (run?_append htake hlast), hover⟩
    · refine ih crew traffic h fun i hi hnot => ?_
      rcases List.mem_cons.1 (hpending i hi hnot) with rfl | hmem
      · exact absurd ⟨hi, hnot⟩ hj
      · exact hmem

end Crew

end ControlRig
