import ControlRig.Proofs.Manager.Teardown
import ControlRig.Proofs.Server.Lines

/-!
# The stages of the end

What is known of a daemon at each stage of its end (`Serving.Going`): **while it works, its lines
stand where they have been told to; before the monitor is told to end every request has its answer;
before the manager goes the monitor is over; and once it goes, whatever happens leads to nothing
published as active and, if the registry lets it, nothing loaded.** Each kind of event keeps it so:
a request (`Going.accept`), a turn (`Going.turn`), the next stage (`Going.advance`), and time
(`Going.later`).

From the beginning of the manager's end nobody else has a turn (`Staged.line_of_turn`), since all the
others have come to their last value.
-/

namespace ControlRig.Server

/-- Whether the manager goes, or is gone. -/
def EndStage.isLeaving : EndStage → Bool
  | .leaving | .ended _ => true
  | _ => false

namespace Serving

open Procedure

variable {m : Manager} {s next : Serving}

/-! ## Turns -/

/-- A turn is one of the crew, or the monitor goes on from a phase that is not its last. -/
theorem turn_cases {i : Nat} (h : s.turn i = some next) :
    (∃ phase, phase.IsGoing ∧
      s.crew.lines[i]? = some (.ready (.done (.monitor phase))) ∧
      next = { s with
        crew := s.crew.goOn i s.crew.rig (.ready (monitorLine s.manager phase)) }) ∨
    ∃ crew, s.crew.turn i = some crew ∧ next = { s with crew := crew } := by
  unfold turn at h
  split at h
  · cases h
  · rename_i phase hgoing hline
    refine .inl ⟨phase, fun outcome => ?_, hline, (Option.some.inj h).symm⟩
    rintro rfl
    exact hgoing outcome rfl
  · obtain ⟨crew, hcrew, rfl⟩ := Option.map_eq_some_iff.1 h
    exact .inr ⟨crew, hcrew, rfl⟩

/-- A line that has come to its last value. -/
def Rests (line : Line LineEnd) : Prop :=
  ∃ value, line = .ready (.done value) ∧
    ∀ phase, value = .monitor phase → ∃ outcome, phase = .over outcome

theorem ne_of_turn {i j : Nat} {line : Line LineEnd} (hline : s.crew.lines[j]? = some line)
    (rests : Rests line) (hturn : s.turn i = some next) : i ≠ j := by
  rintro rfl
  obtain ⟨value, rfl, hvalue⟩ := rests
  rcases turn_cases hturn with ⟨phase, hgoing, hphase, -⟩ | ⟨crew, hcrew, -⟩
  · cases hline.symm.trans hphase
    obtain ⟨outcome, rfl⟩ := hvalue phase rfl
    exact hgoing outcome rfl
  · rw [Crew.turn, hline] at hcrew
    cases hcrew

theorem rests_response (response : HttpResponse) :
    Rests (.ready (.done (.response response))) := ⟨_, rfl, nofun⟩

theorem rests_over (outcome : Except ManagerError Unit) :
    Rests (.ready (.done (.monitor (.over outcome)))) := by
  refine ⟨_, rfl, ?_⟩
  rintro _ ⟨⟩
  exact ⟨outcome, rfl⟩

theorem rests_gone : Rests (.ready (.done .gone)) := ⟨_, rfl, nofun⟩

/-! ## The stages -/

variable {way : Prop} {requests : List HttpRequest} {told : Nat → List Told}

/-- Every request has its answer. -/
def Drained (count : Nat) (lines : List (Line LineEnd)) : Prop :=
  ∀ i < count, ∃ response, lines[i + 1]? = some (.ready (.done (.response response)))

/-- The monitor is over, and every request has its answer. -/
structure Settled (count : Nat) (outcome : Except ManagerError Unit)
    (lines : List (Line LineEnd)) : Prop where
  monitor : lines[0]? = some (.ready (.done (.monitor (.over outcome))))
  drained : Drained count lines

/-- What a manager leaves behind that could publish when its daemon began, or could not. -/
structure Gone (m : Manager) (way : Prop) (rig : Rig) : Prop where
  status : way → rig.params.text? m.settings.statusKey = some "none"
  loaded : rig.registry.LetsGo m.settings.teardownTimeout → rig.registry.loaded = ∅

theorem Gone.later {rig after : Rig} (h : Gone m way rig) (later : rig.Lingers after) :
    Gone m way after := by
  refine ⟨?_, ?_⟩
  · rw [later.params]
    exact h.status
  · rw [later.registry]
    exact h.loaded

/-- The manager is gone. -/
def Departs (m : Manager) (way : Prop) (p : Procedure LineEnd) (rig : Rig) : Prop :=
  p = .done .gone ∧ Gone m way rig

/-- What is known at each stage, beside where the lines stand. -/
inductive Staged (m : Manager) (way : Prop) (count : Nat) (crew : Crew LineEnd) : EndStage → Prop
  | working {stage : EndStage} : stage.isLeaving = false → crew.lines.length = count + 1 →
      (way → crew.rig.params.Writable m.settings.statusKey) →
      (stage = .stopping → Drained count crew.lines) → Staged m way count crew stage
  | leaving {line : Line LineEnd} {outcome : Except ManagerError Unit} :
      Settled count outcome crew.lines → crew.lines[count + 1]? = some line →
      crew.lines.length = count + 2 → line.Leads (Departs m way) crew.rig →
      Staged m way count crew .leaving
  | ended {outcome : Except ManagerError Unit} : Settled count outcome crew.lines →
      crew.lines[count + 1]? = some (.ready (.done .gone)) → crew.lines.length = count + 2 →
      Gone m way crew.rig → Staged m way count crew (.ended (ending (some outcome)))

/-- The invariant of a daemon that has accepted these requests, and whose lines have been told so
much. -/
structure Going (m : Manager) (way : Prop) (requests : List HttpRequest) (told : Nat → List Told)
    (s : Serving) : Prop where
  manager : s.manager = m
  calm : s.crew.rig.armed = ∅
  accepted : s.accepted = requests.length
  lined : Lined m requests told s.crew.lines
  staged : Staged m way requests.length s.crew s.stage

theorem Staged.of_working {count : Nat} {crew : Crew LineEnd} {stage : EndStage}
    (h : Staged m way count crew stage) (working : stage.isLeaving = false) :
    crew.lines.length = count + 1 ∧ (way → crew.rig.params.Writable m.settings.statusKey) ∧
      (stage = .stopping → Drained count crew.lines) := by
  cases h with
  | working _ hlength hwritable hdrained => exact ⟨hlength, hwritable, hdrained⟩
  | leaving | ended => cases working

theorem Staged.of_ended {count : Nat} {crew : Crew LineEnd} {outcome : Except ServerError Unit}
    (h : Staged m way count crew (.ended outcome)) : ∃ result, outcome = ending (some result) ∧
      Settled count result crew.lines ∧ Gone m way crew.rig := by
  cases h with
  | working hworking => cases hworking
  | ended hsettled _ _ hgone => exact ⟨_, rfl, hsettled, hgone⟩

theorem going_start (m : Manager) {rig : Rig} (calm : rig.armed = ∅) :
    Going m (rig.params.Writable m.settings.statusKey) [] (fun _ => []) (start m rig) where
  manager := rfl
  calm := calm
  accepted := rfl
  lined := lined_start m
  staged := .working rfl rfl id nofun

theorem Going.leaving (h : Going m way requests told s) (hstage : s.stage = .leaving) :
    ∃ line outcome, Settled requests.length outcome s.crew.lines ∧
      s.crew.lines[requests.length + 1]? = some line ∧
      s.crew.lines.length = requests.length + 2 ∧ line.Leads (Departs m way) s.crew.rig := by
  have hstaged := h.staged
  rw [hstage] at hstaged
  cases hstaged with
  | working hworking => cases hworking
  | leaving hsettled hline hlength hleads => exact ⟨_, _, hsettled, hline, hlength, hleads⟩

/-- While a daemon works, its stage and what is not the manager's on the rig may change. -/
theorem Going.enter (h : Going m way requests told s) (working : s.stage.isLeaving = false)
    {stage : EndStage} {rig : Rig} (hstage : stage.isLeaving = false)
    (drained : stage = .stopping → Drained requests.length s.crew.lines)
    (armed : rig.armed = s.crew.rig.armed) (params : rig.params = s.crew.rig.params) :
    Going m way requests told { s with stage := stage, crew := { s.crew with rig := rig } } := by
  obtain ⟨hlength, hwritable, -⟩ := h.staged.of_working working
  rw [← params] at hwritable
  exact ⟨h.manager, armed.trans h.calm, h.accepted, h.lined,
    .working hstage hlength hwritable drained⟩

/-! ### Settled lines -/

theorem Drained.set {count i : Nat} (h : Drained count s.crew.lines)
    (hturn : s.turn i = some next) (line : Line LineEnd) :
    Drained count (s.crew.lines.set i line) := by
  intro j hj
  obtain ⟨response, hresponse⟩ := h j hj
  have hne := ne_of_turn hresponse (rests_response response) hturn
  exact ⟨response, (List.getElem?_set_ne hne).trans hresponse⟩

theorem Settled.set {count i : Nat} {outcome : Except ManagerError Unit}
    (h : Settled count outcome s.crew.lines) (hturn : s.turn i = some next)
    (line : Line LineEnd) : Settled count outcome (s.crew.lines.set i line) where
  monitor :=
    (List.getElem?_set_ne (ne_of_turn h.monitor (rests_over outcome) hturn)).trans h.monitor
  drained := h.drained.set hturn line

theorem Settled.lt_of_turn {count i : Nat} {outcome : Except ManagerError Unit}
    (h : Settled count outcome s.crew.lines) (hturn : s.turn i = some next) : count < i := by
  cases i with
  | zero => exact absurd rfl (ne_of_turn h.monitor (rests_over outcome) hturn)
  | succ i =>
    by_contra hi
    obtain ⟨response, hresponse⟩ := h.drained i (by omega)
    exact ne_of_turn hresponse (rests_response response) hturn rfl

theorem lt_length_of_turn {i : Nat} (hturn : s.turn i = some next) : i < s.crew.lines.length := by
  cases hline : s.crew.lines[i]? with
  | some line => exact (List.getElem?_eq_some_iff.1 hline).1
  | none =>
    rcases turn_cases hturn with ⟨phase, -, hphase, -⟩ | ⟨crew, hcrew, -⟩
    · cases hline.symm.trans hphase
    · rw [Crew.turn, hline] at hcrew
      cases hcrew

/-- Once the manager goes, nobody else has a turn; and when it is gone, nobody has. -/
theorem Staged.line_of_turn {count i : Nat} (h : Staged m way count s.crew s.stage)
    (leaving : s.stage.isLeaving = true) (hturn : s.turn i = some next) :
    i = count + 1 ∧ s.stage = .leaving := by
  have hlt := lt_length_of_turn hturn
  -- all lines before the manager's rest, so a turn can only be that of the last one
  generalize s.stage = stage at h leaving
  cases h with
  | working hworking => cases hworking.symm.trans leaving
  | leaving hsettled hline hlength =>
    have hlast := hsettled.lt_of_turn hturn
    exact ⟨by omega, rfl⟩
  | ended hsettled hline hlength =>
    have hlast := hsettled.lt_of_turn hturn
    exact absurd (by omega) (ne_of_turn hline rests_gone hturn)

/-! ### Events -/

/-- Time may pass at every stage. -/
theorem Staged.later {count : Nat} {crew : Crew LineEnd} {stage : EndStage} {after : Rig}
    (h : Staged m way count crew stage) (later : crew.rig.Lingers after) :
    Staged m way count { crew with rig := after } stage := by
  cases h with
  | working hworking hlength hwritable hdrained =>
    refine .working hworking hlength ?_ hdrained
    show way → after.params.Writable _
    rw [later.params]
    exact hwritable
  | leaving hsettled hline hlength hleads =>
    exact .leaving hsettled hline hlength (hleads.later later)
  | ended hsettled hline hlength hgone =>
    exact .ended hsettled hline hlength (hgone.later later)

theorem Going.later {after : Rig} (h : Going m way requests told s)
    (later : s.crew.rig.Lingers after) :
    Going m way requests told { s with crew := { s.crew with rig := after } } :=
  ⟨h.manager, later.calm h.calm, h.accepted, h.lined, h.staged.later later⟩

theorem eq_of_accept {request : HttpRequest} (h : s.accept request = some next) :
    s.stage.isLeaving = false ∧ s.stage ≠ .stopping ∧ next = { s with
      accepted := s.accepted + 1
      crew := { s.crew with
        lines := s.crew.lines ++ [.ready (requestLine s.manager request)] } } := by
  unfold Serving.accept at h
  split at h
  · rename_i hstage
    exact ⟨by rw [hstage]; rfl, by rw [hstage]; nofun, (Option.some.inj h).symm⟩
  · rename_i hstage
    exact ⟨by rw [hstage]; rfl, by rw [hstage]; nofun, (Option.some.inj h).symm⟩
  · cases h

theorem Going.accept (h : Going m way requests told s) {request : HttpRequest}
    (haccept : s.accept request = some next) :
    Going m way (requests ++ [request]) told next := by
  obtain ⟨hworking, hstopping, rfl⟩ := eq_of_accept haccept
  obtain ⟨hlength, hwritable, -⟩ := h.staged.of_working hworking
  have hcount : (requests ++ [request]).length = requests.length + 1 := List.length_append
  refine ⟨h.manager, h.calm, ?_, ?_, .working hworking ?_ hwritable (absurd · hstopping)⟩
  · rw [hcount, ← h.accepted]
  · rw [h.manager]
    exact h.lined.accept hlength request
  · rw [hcount, ← hlength]
    exact List.length_append

/-- The monitor goes on to its next phase. -/
theorem Going.resume (h : Going m way requests told s) {i : Nat} {phase : MonitorPhase}
    (going : phase.IsGoing)
    (hphase : s.crew.lines[i]? = some (.ready (.done (.monitor phase))))
    (hturn : s.turn i = some next) : Going m way requests told { s with
      crew := s.crew.goOn i s.crew.rig (.ready (monitorLine s.manager phase)) } := by
  have hlt := lt_length_of_turn hturn
  cases hleaving : s.stage.isLeaving with
  | false =>
    obtain ⟨hlength, hwritable, hdrained⟩ := h.staged.of_working hleaving
    refine ⟨h.manager, h.calm, h.accepted, ?_, .working hleaving ?_ hwritable fun hstopping => ?_⟩
    · show Lined m requests told (s.crew.lines.set i (.ready (monitorLine s.manager phase)))
      rw [h.manager]
      exact h.lined.resume (by omega) hphase going
    · exact (List.length_set).trans hlength
    · exact (hdrained hstopping).set hturn _
  | true =>
    -- the line on which the manager goes comes to no phase
    obtain ⟨rfl, hstage⟩ := h.staged.line_of_turn hleaving hturn
    obtain ⟨line, outcome, -, hline, -, hleads⟩ := h.leaving hstage
    cases hline.symm.trans hphase
    cases hleads with
    | here hgone => cases (hgone _ (.refl _)).1

theorem Going.turn (h : Going m way requests told s) {i : Nat} (hturn : s.turn i = some next) :
    Going m way requests (tell told i (s.crew.said i)) next := by
  rcases turn_cases hturn with ⟨phase, hgoing, hphase, rfl⟩ | ⟨crew, hcrew, rfl⟩
  · have hsaid : s.crew.said i = [] := by
      rw [Crew.said, hphase]
    rw [hsaid, tell_nil]
    exact h.resume hgoing hphase hturn
  · obtain ⟨line, line', hline, hhears⟩ := Crew.hears_turn h.calm hcrew
    have hlined := h.lined.hears hline hhears.follows
    rw [← hhears.lines] at hlined
    refine ⟨h.manager, hhears.calm, h.accepted, hlined, ?_⟩
    have hlt := lt_length_of_turn hturn
    cases hleaving : s.stage.isLeaving with
    | false =>
      -- a line of the daemon's own publishes at the key of the status only, so the way stays open
      obtain ⟨hlength, hwritable, hdrained⟩ := h.staged.of_working hleaving
      have hsound := h.lined.sound (by omega) hline
      refine .working hleaving ?_ (fun open' => hhears.writable (hwritable open') hsound) ?_
      · rw [hhears.lines, List.length_set]
        exact hlength
      · intro hstopping
        rw [hhears.lines]
        exact (hdrained hstopping).set hturn line'
    | true =>
      -- the manager's own line, which still leads to the manager's end
      obtain ⟨rfl, hstage⟩ := h.staged.line_of_turn hleaving hturn
      obtain ⟨line, outcome, hsettled, hline, hlength, hleads⟩ := h.leaving hstage
      rcases Crew.turn_of_leads hline hleads h.calm hcrew with
        ⟨p, rfl, rfl, -⟩ | ⟨rig, line', rfl, hleads', -, -⟩
      · exact absurd rfl (ne_of_turn hline rests_gone hturn)
      · show Staged m way requests.length _ s.stage
        rw [hstage]
        refine .leaving (hsettled.set hturn line') (Crew.getElem?_goOn hline rig line') ?_ hleads'
        exact (List.length_set).trans hlength

/-! ### From stage to stage -/

theorem Going.drained (h : Going m way requests told s) (hdrained : s.isDrained = true) :
    Drained requests.length s.crew.lines := by
  intro i hi
  obtain ⟨line, hline, hfollows⟩ := h.lined.answering i requests[i] (List.getElem?_eq_getElem hi)
  have hmem : line ∈ (s.crew.lines.drop 1).take s.accepted := by
    refine List.mem_of_getElem? (i := i) ?_
    rw [List.getElem?_take_of_lt (by rw [h.accepted]; exact hi), List.getElem?_drop, Nat.add_comm]
    exact hline
  obtain ⟨value, rfl⟩ := h.lined.done_of_over hi hline (List.all_eq_true.1 hdrained line hmem)
  obtain ⟨response, rfl, -⟩ := answered_of_follows hfollows
  exact ⟨response, hline⟩

/-- The monitor has not crashed, so it has an outcome of its own. -/
theorem Going.over (h : Going m way requests told s)
    {result : Option (Except ManagerError Unit)} (hresult : s.monitorOutcome? = some result) :
    ∃ outcome, result = some outcome ∧
      s.crew.lines[0]? = some (.ready (.done (.monitor (.over outcome)))) := by
  obtain ⟨line, hline, hwatching⟩ := h.lined.watching
  unfold monitorOutcome? at hresult
  rw [List.head?_eq_getElem?, hline] at hresult
  split at hresult
  · rename_i outcome heq
    cases heq
    cases hresult
    exact ⟨outcome, rfl, hline⟩
  · rename_i heq
    cases heq
    exact absurd hwatching.sound id
  · cases hresult

theorem leads_leavingLine (m : Manager) {rig : Rig} (calm : rig.armed = ∅)
    (writable : way → rig.params.Writable m.settings.statusKey) :
    (leavingLine m).Leads (Departs m way) rig :=
  (m.ensures_drop calm).bind fun _ _ ⟨hstatus, hloaded⟩ => .here fun _ later =>
    ⟨rfl, Gone.later ⟨fun open' => hstatus (writable open'), hloaded⟩ later⟩

/-- The manager begins to go when the monitor is over. -/
theorem Going.leave (h : Going m way requests told s) (hstage : s.stage = .stopping)
    {outcome : Except ManagerError Unit}
    (hmonitor : s.crew.lines[0]? = some (.ready (.done (.monitor (.over outcome))))) :
    Going m way requests told { s with
      stage := .leaving
      crew := { s.crew with lines := s.crew.lines ++ [.ready (leavingLine s.manager)] } } := by
  obtain ⟨hlength, hwritable, hdrained⟩ := h.staged.of_working (by rw [hstage]; rfl)
  have hlast : (s.crew.lines ++ [.ready (leavingLine s.manager)])[requests.length + 1]? =
      some (.ready (leavingLine s.manager)) := by
    rw [← hlength]
    exact List.getElem?_concat_length
  refine ⟨h.manager, h.calm, h.accepted, h.lined.append _,
    .leaving ⟨getElem?_append_of_eq_some hmonitor, fun j hj => ?_⟩ hlast ?_ ?_⟩
  · obtain ⟨response, hresponse⟩ := hdrained hstage j hj
    exact ⟨response, getElem?_append_of_eq_some hresponse⟩
  · rw [List.length_append, hlength]
    rfl
  · rw [h.manager]
    exact leads_leavingLine m h.calm hwritable

/-- A daemon has ended when its manager is gone. -/
theorem Going.finish (h : Going m way requests told s) (hstage : s.stage = .leaving)
    {result : Option (Except ManagerError Unit)} {last : Line LineEnd}
    (hresult : s.monitorOutcome? = some result) (hlast : s.crew.lines.getLast? = some last)
    (hover : last.isOver = true) :
    Going m way requests told { s with stage := .ended (ending result) } := by
  obtain ⟨line, outcome, hsettled, hline, hlength, hleads⟩ := h.leaving hstage
  obtain ⟨outcome', rfl, hmonitor⟩ := h.over hresult
  cases hsettled.monitor.symm.trans hmonitor
  rw [List.getLast?_eq_getElem?, hlength] at hlast
  cases hline.symm.trans hlast
  obtain ⟨p, rfl, rfl, hgone⟩ := Line.Leads.of_over hleads hover
  exact ⟨h.manager, h.calm, h.accepted, h.lined, .ended hsettled hline hlength hgone⟩

theorem Going.advance (h : Going m way requests told s) (hadvance : s.advance = some next) :
    Going m way requests told next := by
  unfold Serving.advance at hadvance
  -- one case for each stage, in their order; an end that has come does not advance
  split at hadvance
  case h_1 hstage =>
    split at hadvance <;> cases hadvance
    exact h.enter (by rw [hstage]; rfl) rfl nofun rfl rfl
  case h_2 hstage =>
    cases hadvance
    exact h.enter (by rw [hstage]; rfl) rfl nofun rfl rfl
  case h_3 hstage =>
    split at hadvance <;> cases hadvance
    rename_i hdrained
    exact h.enter (by rw [hstage]; rfl) rfl (fun _ => h.drained hdrained) rfl rfl
  case h_4 hstage =>
    split at hadvance <;> cases hadvance
    rename_i hover
    obtain ⟨result, hresult⟩ := Option.isSome_iff_exists.1 hover
    obtain ⟨outcome, -, hmonitor⟩ := h.over hresult
    exact h.leave hstage hmonitor
  case h_5 hstage =>
    split at hadvance
    · rename_i result last hresult hlast
      split at hadvance <;> cases hadvance
      rename_i hover
      exact h.finish hstage hresult hlast hover
    · cases hadvance
  case h_6 => cases hadvance

end Serving

end ControlRig.Server
