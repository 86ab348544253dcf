import ControlRig.Proofs.Manager.Watch
import ControlRig.Proofs.Rig.Hearing

/-!
# The lines of a daemon

Where the lines of a daemon stand, by what each has been told (`Serving.Lined`): the first is the
monitor in one of its phases, having performed the stops that its answers tell of; the others are
requests on their way to an answer. Whoever takes a turn, they stand there by what they have been
told then (`Lined.hears`), also if the monitor has gone on to its next phase (`Lined.resume`) and if
a request has come in (`Lined.accept`). None of them crashes.
-/

namespace ControlRig.Server.Serving

open Procedure

variable {m : Manager} {requests : List HttpRequest} {told : Nat → List Told}
  {lines : List (Line LineEnd)}

/-! ## Single lines -/

theorem sound_monitorLine (m : Manager) {phase : MonitorPhase}
    (going : phase.IsGoing) : m.Conducts (monitorLine m phase) := by
  rw [← m.forget_tellLine phase]
  exact (m.sound_tellLine going).bind fun _ _ => trivial

theorem sound_requestLine (m : Manager) (request : HttpRequest) :
    m.Conducts (requestLine m request) :=
  (conducts_answer m request).bind fun _ _ => trivial

/-- The monitor is on its way from a phase to the next, and has been told this so far. -/
def Watching (m : Manager) (told : List Told) (line : Line LineEnd) : Prop :=
  ∃ earlier trail stops phase, told = earlier ++ trail ∧ m.Performs .starting earlier stops phase ∧
    phase.IsGoing ∧ (monitorLine m phase).Follows trail line.procedure

theorem Watching.sound {told : List Told} {line : Line LineEnd} (h : Watching m told line) :
    m.Conducts line.procedure := by
  obtain ⟨earlier, trail, stops, phase, -, -, hgoing, hfollows⟩ := h
  exact (sound_monitorLine m hgoing).follows hfollows

theorem Watching.hears {told more : List Told} {line line' : Line LineEnd}
    (h : Watching m told line) (follows : line.procedure.Follows more line'.procedure) :
    Watching m (told ++ more) line' := by
  obtain ⟨earlier, trail, stops, phase, rfl, hperforms, hgoing, hfollows⟩ := h
  exact ⟨earlier, trail ++ more, stops, phase, List.append_assoc _ _ _, hperforms, hgoing,
    hfollows.trans follows⟩

/-- A monitor that has come to a value has come to a phase. -/
theorem Watching.performs {told : List Told} {value : LineEnd}
    (h : Watching m told (.ready (.done value))) :
    ∃ stops phase, value = .monitor phase ∧ m.Performs .starting told stops phase := by
  obtain ⟨earlier, trail, stops, phase, rfl, hperforms, hgoing, hfollows⟩ := h
  rw [← m.forget_tellLine phase] at hfollows
  obtain ⟨p, htells, hdone⟩ := hfollows.of_map
  obtain ⟨⟨next, stop⟩, rfl, rfl⟩ := eq_done_of_map hdone.symm
  exact ⟨_, next, rfl, hperforms.snoc hgoing htells⟩

/-- What the line of a request comes to is an answer to it. -/
theorem answered_of_follows {request : HttpRequest} {told : List Told} {value : LineEnd}
    (h : (requestLine m request).Follows told (.done value)) :
    ∃ response, value = .response response ∧
      (answer m request).Follows told (.done response) := by
  obtain ⟨p, hanswer, hdone⟩ := Follows.of_map (p := answer m request) h
  obtain ⟨response, rfl, rfl⟩ := eq_done_of_map hdone.symm
  exact ⟨response, rfl, hanswer⟩

/-! ## All lines -/

/-- The lines of the monitor and of the requests stand where they have been told to. -/
structure Lined (m : Manager) (requests : List HttpRequest) (told : Nat → List Told)
    (lines : List (Line LineEnd)) : Prop where
  watching : ∃ line, lines[0]? = some line ∧ Watching m (told 0) line
  answering : ∀ i request, requests[i]? = some request → ∃ line, lines[i + 1]? = some line ∧
    (requestLine m request).Follows (told (i + 1)) line.procedure
  /-- Who is not there has not been told anything. -/
  silent : ∀ i, lines.length ≤ i → told i = []

theorem lined_start (m : Manager) :
    Lined m [] (fun _ => []) [.ready (monitorLine m .starting)] where
  watching := ⟨_, rfl, [], [], [], .starting, rfl, .here _, nofun, .refl _⟩
  answering := nofun
  silent := fun _ _ => rfl

/-- What is told to a line. -/
def tell (told : Nat → List Told) (i : Nat) (more : List Told) (j : Nat) : List Told :=
  told j ++ if i = j then more else []

theorem tell_nil (told : Nat → List Told) (i : Nat) : tell told i [] = told := by
  funext j
  rw [tell, ite_self, List.append_nil]

theorem tell_of_ne {i j : Nat} (h : i ≠ j) (more : List Told) : tell told i more j = told j := by
  rw [tell, if_neg h, List.append_nil]

theorem Lined.sound (h : Lined m requests told lines) {i : Nat} (own : i ≤ requests.length)
    {line : Line LineEnd} (hline : lines[i]? = some line) : m.Conducts line.procedure := by
  cases i with
  | zero =>
    obtain ⟨first, hfirst, hwatching⟩ := h.watching
    cases hline.symm.trans hfirst
    exact hwatching.sound
  | succ i =>
    obtain ⟨line', hline', hfollows⟩ := h.answering i requests[i] (List.getElem?_eq_getElem own)
    cases hline.symm.trans hline'
    exact (sound_requestLine m _).follows hfollows

/-- Own lines that are over have come to a value. -/
theorem Lined.done_of_over (h : Lined m requests told lines) {i : Nat}
    (own : i ≤ requests.length) {line : Line LineEnd} (hline : lines[i]? = some line)
    (hover : line.isOver = true) : ∃ value, line = .ready (.done value) := by
  have hsound := h.sound own hline
  cases line with
  | ready p =>
    cases p with
    | done value => exact ⟨value, rfl⟩
    | crash => exact absurd hsound id
    | ask action next => cases hover
  | calling operation limit due next => cases hover
  | sleeping due p => cases hover

theorem Lined.hears (h : Lined m requests told lines) {i : Nat} {line line' : Line LineEnd}
    {more : List Told} (hline : lines[i]? = some line)
    (follows : line.procedure.Follows more line'.procedure) :
    Lined m requests (tell told i more) (lines.set i line') := by
  obtain ⟨hlt, -⟩ := List.getElem?_eq_some_iff.1 hline
  refine ⟨?_, fun j request hrequest => ?_, fun j hj => ?_⟩
  · obtain ⟨first, hfirst, hwatching⟩ := h.watching
    by_cases hi : i = 0
    · subst hi
      cases hline.symm.trans hfirst
      refine ⟨line', List.getElem?_set_self hlt, ?_⟩
      rw [tell, if_pos rfl]
      exact hwatching.hears follows
    · refine ⟨first, (List.getElem?_set_ne hi).trans hfirst, ?_⟩
      rw [tell_of_ne hi]
      exact hwatching
  · -- the line of the request is the one that goes on, or another one
    obtain ⟨line₀, hline₀, hfollows⟩ := h.answering j request hrequest
    by_cases hi : i = j + 1
    · subst hi
      cases hline.symm.trans hline₀
      refine ⟨line', List.getElem?_set_self hlt, ?_⟩
      rw [tell, if_pos rfl]
      exact hfollows.trans follows
    · refine ⟨line₀, (List.getElem?_set_ne hi).trans hline₀, ?_⟩
      rw [tell_of_ne hi]
      exact hfollows
  · rw [List.length_set] at hj
    rw [tell_of_ne (Nat.ne_of_lt (Nat.lt_of_lt_of_le hlt hj)), h.silent j hj]

/-- Of the own lines it is the monitor's that comes to a phase, and it goes on from there. -/
theorem Lined.resume (h : Lined m requests told lines) {i : Nat} (own : i ≤ requests.length)
    {phase : MonitorPhase} (hline : lines[i]? = some (.ready (.done (.monitor phase))))
    (going : phase.IsGoing) :
    Lined m requests told (lines.set i (.ready (monitorLine m phase))) := by
  obtain ⟨hlt, -⟩ := List.getElem?_eq_some_iff.1 hline
  cases i with
  | zero =>
    obtain ⟨first, hfirst, hwatching⟩ := h.watching
    cases hline.symm.trans hfirst
    obtain ⟨stops, _, ⟨⟩, hperforms⟩ := hwatching.performs
    refine ⟨⟨_, List.getElem?_set_self hlt, told 0, [], stops, phase, (List.append_nil _).symm,
      hperforms, going, .refl _⟩, fun j request hrequest => ?_, fun j hj => ?_⟩
    · rw [List.getElem?_set_ne (Nat.succ_ne_zero j).symm]
      exact h.answering j request hrequest
    · rw [List.length_set] at hj
      exact h.silent j hj
  | succ i =>
    obtain ⟨line, hline', hfollows⟩ := h.answering i requests[i] (List.getElem?_eq_getElem own)
    cases hline.symm.trans hline'
    obtain ⟨response, ⟨⟩, -⟩ := answered_of_follows hfollows

theorem getElem?_append_of_eq_some {α : Type} {xs ys : List α} {i : Nat} {x : α}
    (h : xs[i]? = some x) : (xs ++ ys)[i]? = some x := by
  obtain ⟨hlt, -⟩ := List.getElem?_eq_some_iff.1 h
  rw [List.getElem?_append_left hlt, h]

/-- A line that is none of theirs changes nothing. -/
theorem Lined.append (h : Lined m requests told lines) (line : Line LineEnd) :
    Lined m requests told (lines ++ [line]) := by
  refine ⟨?_, fun i request hrequest => ?_, fun i hi => ?_⟩
  · obtain ⟨first, hfirst, hwatching⟩ := h.watching
    exact ⟨first, getElem?_append_of_eq_some hfirst, hwatching⟩
  · obtain ⟨line', hline', hfollows⟩ := h.answering i request hrequest
    exact ⟨line', getElem?_append_of_eq_some hline', hfollows⟩
  · rw [List.length_append] at hi
    exact h.silent i (Nat.le_of_succ_le hi)

theorem Lined.accept (h : Lined m requests told lines) (length : lines.length = requests.length + 1)
    (request : HttpRequest) :
    Lined m (requests ++ [request]) told (lines ++ [.ready (requestLine m request)]) := by
  have hmore := h.append (.ready (requestLine m request))
  refine ⟨hmore.watching, fun i request' hrequest' => ?_, hmore.silent⟩
  rcases Nat.lt_trichotomy i requests.length with hi | rfl | hi
  · rw [List.getElem?_append_left hi] at hrequest'
    exact hmore.answering i request' hrequest'
  · -- the new line has been told nothing, and is at the beginning
    rw [List.getElem?_concat_length] at hrequest'
    cases hrequest'
    rw [h.silent _ (Nat.le_of_eq length), ← length]
    exact ⟨_, List.getElem?_concat_length, .refl _⟩
  · rw [List.getElem?_eq_none (by rw [List.length_append]; exact hi)] at hrequest'
    cases hrequest'

end ControlRig.Server.Serving
