import ControlRig.Client.Report
import ControlRig.Proofs.Client.Exchange
import ControlRig.Proofs.Manager.Errors

/-!
# What a daemon cannot say

The client recognizes an unreachable daemon by the words with which an error begins, and an error
may be what the daemon has sent. So no text of a daemon may begin with these words, whatever names
and keys it was made with. It is enough that each text parts from them early, in the words that it
begins with itself (`Departs.append`).

`Harmless` says so of a body: where a message can be read, it departs. **Every answer of the server
is a refusal or has a harmless body** (`harmless_of_goes`), and a client that looks for one kind of
record in the body of another finds no other message there, because the message is read from the
field of that name and from nowhere else (`message_of_decode`).
-/

namespace ControlRig

namespace Client

/-- A text and the words for an unreachable daemon part before either ends. -/
def Departs (text : String) : Prop :=
  ¬ unreachableText.toList <+: text.toList ∧ ¬ text.toList <+: unreachableText.toList

instance (text : String) : Decidable (Departs text) := inferInstanceAs (Decidable (_ ∧ _))

/-- Texts that have parted do not come together again. -/
theorem Departs.append {text : String} (h : Departs text) (rest : String) :
    Departs (text ++ rest) := by
  have hfront : text.toList <+: (text ++ rest).toList := by
    rw [String.toList_append]
    exact List.prefix_append _ _
  refine ⟨fun hwords => ?_, fun hwords => h.2 (hfront.trans hwords)⟩
  rcases List.prefix_or_prefix_of_prefix hwords hfront with hbegins | hbegins
  · exact h.1 hbegins
  · exact h.2 hbegins

theorem errorCode_of_departs {message : String} (h : Departs message) : errorCode message = 1 := by
  unfold errorCode
  rw [if_neg fun hp => h.1 (List.isPrefixOf_iff_prefix.1 hp)]

theorem errorCode_unreachable (rest : String) : errorCode (unreachableText ++ rest) = 2 := by
  unfold errorCode
  rw [String.toList_append, if_pos (List.isPrefixOf_iff_prefix.2 (List.prefix_append _ _))]

end Client

open Client

/-! ## What the manager says -/

theorem Requirement.departs {target : Configuration} {key owner : String}
    (h : ⟨key, owner⟩ ∈ target.requirements) : Departs owner := by
  obtain ⟨⟨resource, controllers⟩, -, hmem⟩ := List.mem_flatMap.1 h
  rcases List.mem_cons.1 hmem with heq | hmem
  · cases heq
    have hwords : Departs "hardware interface '" := by decide
    exact (hwords.append _).append _
  · obtain ⟨controller, -, heq⟩ := List.mem_map.1 hmem
    cases heq
    have hwords : Departs "controller '" := by decide
    exact (((hwords.append _).append _).append _).append _

theorem ManagerError.departs {e : ManagerError} (h : e.Owned) : Departs e.message := by
  cases e with
  | missingParameter key owner =>
    obtain ⟨target, hmem⟩ := h
    exact (((Requirement.departs hmem).append _).append _).append _
  | catalog error =>
    have hwords : Departs "catalog error: " := by decide
    exact hwords.append _
  | unknownConfiguration name =>
    have hwords : Departs "the configuration '" := by decide
    exact (hwords.append _).append _
  | resourceLoad resource source =>
    have hwords : Departs "loading of the resource '" := by decide
    exact ((hwords.append _).append _).append _
  | resourceVerification resources timeout =>
    have hwords : Departs "resources not initialized within " := by decide
    exact ((hwords.append _).append _).append _
  | controllerStart source =>
    have hwords : Departs "starting controllers failed: " := by decide
    exact hwords.append _
  | controllerStop source =>
    have hwords : Departs "stopping controllers failed: " := by decide
    exact hwords.append _
  | resourceUnload source =>
    have hwords : Departs "unloading resources failed: " := by decide
    exact hwords.append _
  | registryQuery source =>
    have hwords : Departs "querying loaded resources failed: " := by decide
    exact hwords.append _
  | purge source =>
    have hwords : Departs "purging resources failed: " := by decide
    exact hwords.append _
  | config error =>
    have hwords : Departs "config error: " := by decide
    exact hwords.append _
  | unreadable => exact (by decide : Departs "I/O error")

/-! ## What the server says -/

/-- A body in which no message can be taken for the words of a client. -/
structure Harmless (form : Json) : Prop where
  legible : form.Legible Json.maxDepth
  departs : ∃ fields, form = .object fields ∧
    ∀ text, ("message", .string text) ∈ fields → Departs text

/-- What a reply says beside whether it was carried out. -/
def Reply.message : Reply → Option String
  | .ack a => a.message
  | .list l => l.message

theorem mem_messageField {message : Option String} {text : String}
    (h : ("message", Json.string text) ∈ messageField message) : message = some text := by
  cases message with
  | none => cases h
  | some other =>
    cases List.mem_singleton.1 h
    rfl

theorem Reply.harmless {reply : Reply} (h : ∀ text, reply.message = some text → Departs text) :
    Harmless reply.json := by
  cases reply with
  | ack a =>
    have hwrites : Writes (Ack.shape.decode .refused) Json.maxDepth a.json a := Ack.writes a
    refine ⟨hwrites.legible, _, rfl, fun text hmem => h text (mem_messageField ?_)⟩
    rcases List.mem_cons.1 hmem with hok | hmem
    · exact absurd (congrArg Prod.fst hok) (by simp)
    · exact hmem
  | list l =>
    have hwrites : Writes ((ConfigurationList.shape .refused).decode .refused) Json.maxDepth
      l.json l := ConfigurationList.writes l
    refine ⟨hwrites.legible, _, rfl, fun text hmem => h text (mem_messageField ?_)⟩
    rcases List.mem_append.1 hmem with hfirst | hmem
    · have hname := List.mem_map_of_mem (f := Prod.fst) hfirst
      exact absurd hname (by simp)
    · exact hmem

/-- The counters of a report fit the words that hold them. -/
structure StatusReport.Fits (s : StatusReport) : Prop where
  transitions : s.transitions < Decode.Width.long.bound
  configurations : s.configurations < Decode.Width.count.bound

theorem StatusReport.harmless {s : StatusReport} (h : s.Fits) : Harmless s.json := by
  obtain ⟨active, transitions, moment, configurations, registry⟩ := s
  have htransitions : (Json.integer transitions).Legible (Json.maxDepth - 1) :=
    (Writes.natural (by decide) h.transitions).legible
  have hconfigurations : (Json.integer configurations).Legible (Json.maxDepth - 1) :=
    (Writes.natural (by decide) h.configurations).legible
  refine ⟨⟨by decide, ?_, htransitions, ?_, hconfigurations, trivial, trivial⟩, _, rfl,
    fun text hmem => ?_⟩
  · cases active <;> trivial
  · cases moment <;> trivial
  · have hname := List.mem_map_of_mem (f := Prod.fst) hmem
    exact absurd hname (by simp)

namespace Service

open Procedure

/-- Whatever comes of a request, what there is to say about it departs. -/
theorem departs_of_dispatch {m : Manager} {request : Request} {seen : List Observation}
    {reply : Reply} (h : (dispatch m request).Goes seen (some reply)) {text : String}
    (told : reply.message = some text) : Departs text := by
  have hskipped : Departs "'" := by decide
  cases request with
  | start r =>
    obtain ⟨outcome, _, _, hstart, hdone, -⟩ := goes_bind_some.1 h
    cases (goes_done.1 hdone).2
    rcases outcome with e | _ | ⟨first, rest⟩
    · cases told
      exact ManagerError.departs (Manager.owned_of_start hstart)
    · cases told
    · cases told
      exact ((hskipped.append _).append _).append _
  | stop r =>
    obtain ⟨outcome, _, _, hstop, hdone, -⟩ := goes_bind_some.1 h
    cases (goes_done.1 hdone).2
    rcases outcome with e | u
    · cases told
      exact ManagerError.departs (Manager.owned_of_stop hstop)
    · cases told
  | list =>
    obtain ⟨outcome, _, _, hlist, hdone, -⟩ := goes_bind_some.1 h
    cases (goes_done.1 hdone).2
    rcases outcome with e | configurations
    · cases told
      exact ManagerError.departs (Manager.owned_of_list hlist)
    · cases told
  | update =>
    obtain ⟨outcome, _, _, hrefresh, hdone, -⟩ := goes_bind_some.1 h
    cases (goes_done.1 hdone).2
    rcases outcome with e | u
    · cases told
      exact ManagerError.departs (Manager.owned_of_refresh hrefresh)
    · cases told

/-- A warning does not change a reply. -/
theorem eq_of_warned {served reply : Reply} {text : String} {seen : List Observation}
    (h : (if (!served.ok) = true then warn text >>= fun _ => Procedure.done served
      else Procedure.done served).Goes seen (some reply)) : reply = served := by
  split at h
  · obtain ⟨_, _, _, -, hdone, -⟩ := goes_bind_some.1 h
    exact (goes_done.1 hdone).2
  · exact (goes_done.1 h).2

theorem departs_of_handle {m : Manager} {request : Request} {seen : List Observation}
    {reply : Reply} (h : (handle m request).Goes seen (some reply)) {text : String}
    (told : reply.message = some text) : Departs text := by
  have hinternal : Departs "internal error" := by decide
  obtain ⟨result, _, _, hattempt, hrest, -⟩ := goes_bind_some.1 h
  cases result with
  | none =>
    -- what is complained of is the crash
    obtain ⟨_, _, _, -, hwarned, -⟩ := goes_bind_some.1 hrest
    cases eq_of_warned hwarned
    cases request <;>
    · cases told
      exact hinternal
  | some served =>
    cases eq_of_warned hrest
    exact departs_of_dispatch (goes_attempt.1 hattempt) told

end Service

namespace Server

open Procedure

/-- The answer of a server, if it is no refusal, has a harmless body. -/
theorem harmless_of_goes {m : Manager} {request : HttpRequest} {seen : List Observation}
    {response : HttpResponse} (h : (answer m request).Goes seen (some response))
    (counted : Route.parse? request.url = some .status →
      ∀ s : StatusReport, response = .json s.json → s.Fits) :
    response.status ≠ 200 ∨ ∃ form, response = .json form ∧ Harmless form := by
  unfold answer at h
  split at h
  · cases (goes_done.1 h).2
    exact .inl (by decide : 404 ≠ 200)
  · rename_i route hroute
    split at h
    · cases (goes_done.1 h).2
      exact .inl (by decide : 405 ≠ 200)
    · unfold answerOn at h
      split at h
      · cases (goes_done.1 h).2
        exact .inl (by decide : 400 ≠ 200)
      · obtain ⟨reply, _, _, hhandled, hrest, -⟩ := goes_bind_some.1 h
        obtain ⟨_, _, _, -, hdone, -⟩ := goes_bind_some.1 hrest
        cases (goes_done.1 hdone).2
        exact .inr ⟨_, rfl, Reply.harmless fun _ => Service.departs_of_handle hhandled⟩
      · split at h
        · obtain ⟨status, _, _, -, hdone, -⟩ := goes_bind_some.1 h
          cases (goes_done.1 hdone).2
          exact .inr ⟨_, rfl, StatusReport.harmless (counted hroute _ rfl)⟩
        · cases (goes_done.1 h).2
          refine .inr ⟨_, rfl, ⟨⟨by decide, trivial, trivial⟩, _, rfl, fun text hmem => ?_⟩⟩
          have hname := List.mem_map_of_mem (f := Prod.fst) hmem
          exact absurd hname (by simp)

end Server

/-! ## What the client reads -/

namespace Decode.RecordShape

variable {δ α : Type} {shape : RecordShape δ α}

/-- What is true of a draft stays true while fields are read, if each field keeps it. -/
theorem readFields_keeps (holds : δ → Prop) {fields : List (String × Datum)} {draft last : δ}
    (h : shape.readFields fields draft = .ok last) (now : holds draft)
    (keeps : ∀ name value, (name, value) ∈ fields → ∀ field ∈ shape.fields,
      field.isCalled name = true → ∀ before after, field.read value before = .ok after →
        holds before → holds after) : holds last := by
  fun_induction shape.readFields fields draft with
  | case1 =>
    cases h
    exact now
  | case2 => cases h
  | case3 name value rest draft field hfield hnew next hread ih =>
    have hknown : field ∈ shape.fields := List.mem_of_find?_eq_some hfield
    have hcalled := List.find?_some hfield
    have hnext : holds next :=
      keeps name value List.mem_cons_self field hknown hcalled draft next hread now
    exact ih h hnext fun name value hmem => keeps name value (List.mem_cons_of_mem _ hmem)
  | case4 => cases h
  | case5 => cases h
  | case6 name value rest draft hno hopen ih =>
    exact ih h now fun name value hmem => keeps name value (List.mem_cons_of_mem _ hmem)

/-- What a draft tells is read from the field for a message, and from no other. -/
structure Speaks (shape : RecordShape δ α) (told : δ → Option String) : Prop where
  blank : told shape.blank = none
  read : ∀ field ∈ shape.fields, ∀ name, field.isCalled name = true →
    ∀ value before after, field.read value before = .ok after →
      told after = told before ∨
        name = "message" ∧ Decode.optional Decode.text value = .ok (told after)

end Decode.RecordShape

theorem Json.mem_datumFields {fields : List (String × Json)} {name : String} {value : Datum}
    (h : (name, value) ∈ datumFields fields) :
    ∃ form, (name, form) ∈ fields ∧ value = form.datum := by
  induction fields with
  | nil => cases h
  | cons field rest ih =>
    rcases List.mem_cons.1 h with heq | hmem
    · cases heq
      exact ⟨field.2, List.mem_cons_self, rfl⟩
    · obtain ⟨form, hform, hvalue⟩ := ih hmem
      exact ⟨form, List.mem_cons_of_mem _ hform, hvalue⟩

/-- Only a string is read as a text. -/
theorem Json.eq_string_of_text {form : Json} {text : String}
    (h : Decode.optional Decode.text form.datum = .ok (some text)) : form = .string text := by
  cases form with
  | string s =>
    cases h
    rfl
  | _ => cases h

/-- The message that is read from a harmless body departs, whatever record was looked for. -/
theorem Decode.RecordShape.Speaks.departs {δ α : Type} {shape : RecordShape δ α}
    {told : δ → Option String} (speaks : shape.Speaks told) {form : Json} (harmless : Harmless form)
    {excess : Excess} {record : α} (h : shape.decode excess form.datum = .ok record) :
    ∃ draft, shape.finish draft = some record ∧ ∀ text, told draft = some text → Departs text := by
  obtain ⟨fields, rfl, hdeparts⟩ := harmless.departs
  unfold decode at h
  cases hread : shape.readFields (Json.datumFields fields) shape.blank with
  | error fault => simp [Json.datum, hread] at h
  | ok draft =>
    refine ⟨draft, ?_, ?_⟩
    · cases hfinish : shape.finish draft with
      | none => simp [Json.datum, hread, complete, hfinish] at h
      | some other => simpa [Json.datum, hread, complete, hfinish] using h
    · refine readFields_keeps (fun d => ∀ text, told d = some text → Departs text) hread
        (by simp [speaks.blank]) ?_
      intro name value hmem field hfield hcalled before after hnext hbefore text htold
      rcases speaks.read field hfield name hcalled value before after hnext with
        hsame | ⟨rfl, htext⟩
      · exact hbefore text (hsame ▸ htold)
      · obtain ⟨spoken, hspoken, rfl⟩ := Json.mem_datumFields hmem
        rw [htold] at htext
        rw [Json.eq_string_of_text htext] at hspoken
        exact hdeparts text hspoken

theorem Ack.speaks : Ack.shape.Speaks (·.message.getD none) where
  blank := rfl
  read := by
    intro field hfield name hcalled value before after hread
    rcases List.mem_cons.1 hfield with rfl | hfield
    · obtain ⟨b, -, rfl⟩ := Server.map_eq_ok_iff.1 hread
      exact .inl rfl
    · cases List.mem_singleton.1 hfield
      obtain ⟨message, htext, rfl⟩ := Server.map_eq_ok_iff.1 hread
      refine .inr ⟨?_, htext⟩
      simpa [Decode.Field.isCalled, eq_comm] using hcalled

theorem Ack.departs_of_decode {form : Json} (harmless : Harmless form) {excess : Decode.Excess}
    {a : Ack} (h : shape.decode excess form.datum = .ok a) {text : String}
    (told : a.message = some text) : Departs text := by
  obtain ⟨⟨ok, message⟩, hfinish, hdeparts⟩ := Ack.speaks.departs harmless h
  obtain ⟨_, -, rfl⟩ := Option.map_eq_some_iff.1 hfinish
  exact hdeparts text told

theorem ConfigurationList.speaks (excess : Decode.Excess) :
    (ConfigurationList.shape excess).Speaks (·.message.getD none) where
  blank := rfl
  read := by
    intro field hfield name hcalled value before after hread
    rcases List.mem_cons.1 hfield with rfl | hfield
    · obtain ⟨b, -, rfl⟩ := Server.map_eq_ok_iff.1 hread
      exact .inl rfl
    rcases List.mem_cons.1 hfield with rfl | hfield
    · obtain ⟨configurations, -, rfl⟩ := Server.map_eq_ok_iff.1 hread
      exact .inl rfl
    · cases List.mem_singleton.1 hfield
      obtain ⟨message, htext, rfl⟩ := Server.map_eq_ok_iff.1 hread
      refine .inr ⟨?_, htext⟩
      simpa [Decode.Field.isCalled, eq_comm] using hcalled

theorem ConfigurationList.departs_of_decode {form : Json} (harmless : Harmless form)
    {excess : Decode.Excess} {l : ConfigurationList}
    (h : (shape excess).decode excess form.datum = .ok l) {text : String}
    (told : l.message = some text) : Departs text := by
  obtain ⟨⟨ok, configurations, message⟩, hfinish, hdeparts⟩ :=
    (ConfigurationList.speaks excess).departs harmless h
  obtain ⟨_, -, hrest⟩ := Option.bind_eq_some_iff.1 hfinish
  obtain ⟨_, -, hlist⟩ := Option.bind_eq_some_iff.1 hrest
  cases hlist
  exact hdeparts text told

end ControlRig
