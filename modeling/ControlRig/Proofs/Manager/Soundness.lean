import ControlRig.Manager.Monitor
import ControlRig.Proofs.Procedure.Following
import ControlRig.Server.Http

/-!
# What the manager asks for

However its collaborators answer, the manager does not crash of its own accord, and the only key at
which it publishes is the one for its status (`Action.WritesAt`). A request over HTTP is answered by
such a procedure, so nothing in the course of an answer keeps it from coming.
-/

namespace ControlRig

/-- An action that publishes at no other key than this. -/
def Action.WritesAt (key : String) : Action → Prop
  | .publish key' _ => key' = key
  | _ => True

theorem Action.Spares.writesAt {action : Action} (h : action.Spares) (key : String) :
    action.WritesAt key := by
  cases action with
  | publish => exact absurd h id
  | _ => trivial

namespace Procedure

theorem allowsLock_writesAt (key : String) : AllowsLock (Action.WritesAt key) :=
  ⟨trivial, trivial, fun _ _ => trivial⟩

theorem Composed.soundAt {α : Type} {p : Procedure α} (h : p.Composed Action.Spares)
    (key : String) : p.Sound (Action.WritesAt key) fun _ => True :=
  (h.mono fun _ spares => spares.writesAt key).sound

end Procedure

namespace Manager

open Procedure

variable (m : Manager)

/-- A procedure that keeps to the manager's own key, and does not crash of its own accord. -/
abbrev Conducts {α : Type} (p : Procedure α) : Prop :=
  p.Sound (Action.WritesAt m.settings.statusKey) fun _ => True

variable {m}

theorem conducts_log {α : Type} (level : Level) (message : String) {f : Unit → Procedure α}
    (h : m.Conducts (f ())) : m.Conducts (of (.log level message) >>= f) :=
  ⟨trivial, fun _ => h⟩

variable (m)

theorem conducts_commit (state : ManagerState) (active : Option Configuration) :
    m.Conducts (m.commit state active) :=
  ⟨trivial, fun _ => ⟨trivial, fun _ => ⟨rfl, fun _ => trivial⟩⟩⟩

theorem conducts_transition (active target : Option Configuration) (strictness : Strictness) :
    m.Conducts (Transition.run m.settings.transitionOptions active target strictness
      m.settings.requestTimeout) :=
  (Transition.run_composed _ target strictness _ active).soundAt _

theorem conducts_stopLocked (strictness : Strictness) (state : ManagerState) :
    m.Conducts (m.stopLocked strictness state) := by
  refine conducts_log _ _ ((m.conducts_transition _ none strictness).bind fun outcome _ => ?_)
  cases outcome with
  | error e => exact conducts_log _ _ trivial
  | ok record => exact (m.conducts_commit state none).bind fun _ _ => trivial

theorem conducts_startLocked (number : Nat) (name : String) (strictness : Strictness)
    (state : ManagerState) : m.Conducts (m.startLocked number name strictness state) := by
  unfold startLocked
  split
  · exact conducts_log _ _ trivial
  · split
    · trivial
    · rename_i target _
      refine conducts_log _ _
        ((m.conducts_transition _ (some target) strictness).bind fun outcome _ => ?_)
      cases outcome with
      | error e => exact conducts_log _ _ trivial
      | ok record =>
        refine (m.conducts_commit state (some target)).bind fun _ _ => ?_
        dsimp only
        split <;> exact conducts_log _ _ trivial

theorem conducts_refreshLocked (state : ManagerState) : m.Conducts (m.refreshLocked state) := by
  refine ((readCatalog_composed m.settings state.activeName).spares.soundAt _).bind fun read _ => ?_
  cases read with
  | error e => trivial
  | ok catalog => exact ⟨trivial, fun _ => trivial⟩

theorem conducts_start (name : String) (strictness : Strictness) :
    m.Conducts (m.start name strictness) :=
  ⟨trivial, fun number => .withLock (allowsLock_writesAt _)
    (m.conducts_startLocked number name strictness)⟩

theorem conducts_stop (strictness : Strictness) : m.Conducts (m.stop strictness) :=
  .withLock (allowsLock_writesAt _) (m.conducts_stopLocked strictness)

theorem conducts_refresh : m.Conducts m.refresh :=
  .withLock (allowsLock_writesAt _) fun state => (m.conducts_refreshLocked state).bind
    fun outcome _ => by
      cases outcome with
      | error e => trivial
      | ok catalog => exact conducts_log _ _ trivial

theorem conducts_list : m.Conducts m.list :=
  .withLock (allowsLock_writesAt _) fun state => (m.conducts_refreshLocked state).bind
    fun outcome _ => by cases outcome <;> trivial

theorem conducts_activeName : m.Conducts m.activeName :=
  .withLock (allowsLock_writesAt _) fun _ => trivial

theorem conducts_status : m.Conducts m.status :=
  .withLock (allowsLock_writesAt _) fun _ => trivial

theorem conducts_reportEnd (outcome : Except ManagerError Unit) :
    m.Conducts (reportEnd outcome) := by
  cases outcome with
  | error e => exact sound_of trivial
  | ok u => trivial

end Manager

/-! ## Answering -/

namespace Service

open Procedure

theorem conducts_dispatch (m : Manager) (request : Request) :
    m.Conducts (dispatch m request) := by
  cases request with
  | start r => exact (m.conducts_start r.name r.strictness).bind fun _ _ => trivial
  | stop r => exact (m.conducts_stop r.strictness).bind fun _ _ => trivial
  | list => exact m.conducts_list.bind fun _ _ => trivial
  | update => exact m.conducts_refresh.bind fun _ _ => trivial

theorem conducts_handle (m : Manager) (request : Request) : m.Conducts (handle m request) := by
  refine (conducts_dispatch m request).attempt.bind ?_
  rintro _ ⟨reply, rfl, -⟩
  dsimp only
  rw [pure_eq, done_bind]
  split
  · exact Manager.conducts_log _ _ trivial
  · trivial

end Service

namespace Server

open Procedure

/-- However its collaborators answer, nothing keeps a request from being answered. -/
theorem conducts_answer (m : Manager) (request : HttpRequest) : m.Conducts (answer m request) := by
  unfold answer
  split
  · trivial
  · split
    · trivial
    · unfold answerOn
      split
      · trivial
      · exact (Service.conducts_handle m _).bind fun _ _ => Manager.conducts_log _ _ trivial
      · split
        · exact m.conducts_status.bind fun _ _ => trivial
        · trivial

end Server

end ControlRig
