import ControlRig.Proofs.Manager.Failure
import ControlRig.Proofs.Manager.Run
import ControlRig.Proofs.Service.Wire
import ControlRig.Server.Http

/-!
# What a request over HTTP comes to

A request is answered, whatever it looks like and whatever the rig does. What the answer is follows
from three questions, asked in this order: whether the path is known, whether the method is the
route's, and whether the body asks for something (`Server.Asks`). Only if all are answered with yes
is anything done, and then it is what a service does with the request that was asked for
(`Server.Comes`).

The body of a stop may be blank, which then stands for a request. That this never takes the place of
a request in the body, and that a blank body is none anywhere else, is a fact about texts: a text
whose bytes are blank is no JSON.
-/

namespace ControlRig.Server

open Procedure

/-! ## Blank bodies -/

/-- A body of nothing but spaces, tabs, line feeds, form feeds and carriage returns. -/
def Blank (body : ByteArray) : Prop :=
  ∀ b ∈ body.toList, b = 0x20 ∨ b = 0x09 ∨ b = 0x0A ∨ b = 0x0C ∨ b = 0x0D

instance (body : ByteArray) : Decidable (Blank body) :=
  inferInstanceAs (Decidable (∀ b ∈ body.toList, _))

theorem isBlankByte_iff {b : UInt8} :
    isBlankByte b = true ↔ b = 0x20 ∨ b = 0x09 ∨ b = 0x0A ∨ b = 0x0C ∨ b = 0x0D := by
  simp only [isBlankByte, Bool.or_eq_true, decide_eq_true_eq, or_assoc]

theorem all_isBlankByte_iff {body : ByteArray} :
    body.toList.all isBlankByte = true ↔ Blank body := by
  simp only [List.all_eq_true, isBlankByte_iff, Blank]

theorem toList_loop (body : ByteArray) (i : Nat) (seen : List UInt8) :
    ByteArray.toList.loop body i seen = seen.reverse ++ body.data.toList.drop i := by
  fun_induction ByteArray.toList.loop body i seen with
  | case1 i seen h ih =>
    have hlength : i < body.data.toList.length := h
    have hbyte : body.get! i = body.data.toList[i] := by
      show body.data[i]! = _
      rw [getElem!_pos body.data i h, Array.getElem_toList]
    rw [ih, List.drop_eq_getElem_cons hlength, ← hbyte, List.reverse_cons, List.append_assoc]
    rfl
  | case2 i seen h =>
    have hempty : body.data.toList.drop i = [] := List.drop_eq_nil_iff.2 (Nat.le_of_not_lt h)
    rw [hempty, List.append_nil]

/-- The bytes of a text are those of its characters. -/
theorem toList_of_fromUTF8? {body : ByteArray} {text : String}
    (h : String.fromUTF8? body = some text) :
    body.toList = text.toList.flatMap String.utf8EncodeChar := by
  have hbytes : text.toByteArray = body := by
    unfold String.fromUTF8? at h
    split at h
    · cases h
      rfl
    · cases h
  rw [ByteArray.toList, toList_loop, ← hbytes, ← String.utf8Encode_toList, List.utf8Encode,
    List.toList_data_toByteArray]
  rfl

theorem lt_of_isBlankByte {b : UInt8} (h : isBlankByte b = true) : b.toNat < 128 := by
  rcases isBlankByte_iff.1 h with rfl | rfl | rfl | rfl | rfl <;> decide

/-- The bytes of a character are blank only where the character is. -/
theorem blank_of_encoded {c : Char} (h : ∀ b ∈ String.utf8EncodeChar c, isBlankByte b = true) :
    Json.isSpace c = true ∨ c = '\x0c' := by
  rw [String.utf8EncodeChar.eq_1] at h
  split at h
  · rename_i hascii
    have hbyte := h _ List.mem_cons_self
    -- a single byte is the number of the character
    have hchar (d : Char) (hd : d.val.toNat < 128)
        (heq : UInt8.ofNat c.val.toNat = UInt8.ofNat d.val.toNat) : c = d := by
      have hnumber := congrArg UInt8.toNat heq
      rw [UInt8.toNat_ofNat', UInt8.toNat_ofNat'] at hnumber
      exact Char.ext (UInt32.toNat_inj.1 (by omega))
    rcases isBlankByte_iff.1 hbyte with hbyte | hbyte | hbyte | hbyte | hbyte
    · rw [hchar ' ' (by decide) hbyte]
      exact .inl rfl
    · rw [hchar '\t' (by decide) hbyte]
      exact .inl rfl
    · rw [hchar '\n' (by decide) hbyte]
      exact .inl rfl
    · exact .inr (hchar '\x0c' (by decide) hbyte)
    · rw [hchar '\r' (by decide) hbyte]
      exact .inl rfl
  · -- a longer code does not begin with a byte of the ASCII range
    exfalso
    split at h
    · have hfirst := lt_of_isBlankByte (h _ List.mem_cons_self)
      rw [UInt8.toNat_ofNat'] at hfirst
      omega
    split at h
    · have hfirst := lt_of_isBlankByte (h _ List.mem_cons_self)
      rw [UInt8.toNat_ofNat'] at hfirst
      omega
    · have hfirst := lt_of_isBlankByte (h _ List.mem_cons_self)
      rw [UInt8.toNat_ofNat'] at hfirst
      omega

/-- White space is no JSON; a form feed is not even white space there. -/
theorem scanFrom_blank {cs : List Char} (h : ∀ c ∈ cs, Json.isSpace c = true ∨ c = '\x0c') :
    Json.scanFrom .between [] cs = none ∨ Json.scanFrom .between [] cs = some [] := by
  induction cs with
  | nil => exact .inr rfl
  | cons c rest ih =>
    rcases h c List.mem_cons_self with hspace | rfl
    · have hstep : Json.scanStep .between c = some ([], .between) := by
        simp [Json.scanStep, Json.scanBetween, hspace]
      rw [Json.scanFrom, hstep]
      exact ih fun d hd => h d (List.mem_cons_of_mem _ hd)
    · exact .inl rfl

/-- A blank body is no JSON. -/
theorem parse?_of_blank {body : ByteArray} {text : String} (hblank : Blank body)
    (htext : String.fromUTF8? body = some text) : Json.parse? text = none := by
  have hchars : ∀ c ∈ text.toList, Json.isSpace c = true ∨ c = '\x0c' := by
    intro c hc
    refine blank_of_encoded fun b hb => isBlankByte_iff.2 (hblank b ?_)
    rw [toList_of_fromUTF8? htext]
    exact List.mem_flatMap.2 ⟨c, hc, hb⟩
  rw [Json.parse?, Json.scan]
  rcases scanFrom_blank hchars with hnone | hempty
  · rw [hnone]
  · rw [hempty]
    rfl

/-! ## What a body asks for -/

/-- A body says a record. -/
def Says {δ α : Type} (shape : Decode.RecordShape δ α) (body : ByteArray) (record : α) : Prop :=
  ∃ text, String.fromUTF8? body = some text ∧
    Decode.ofText? (shape.decode .refused) text = some (.ok record)

/-- What a body asks of the manager on a route. -/
inductive Asks (body : ByteArray) : Route → Request → Prop where
  | start {r : StartRequest} : Says StartRequest.shape body r → Asks body .start (.start r)
  | stop {r : StopRequest} : Says StopRequest.shape body r → Asks body .stop (.stop r)
  /-- A stop without further ado. -/
  | blankStop : Blank body → Asks body .stop (.stop ⟨.bestEffort⟩)
  | list : Asks body .list .list
  | update : Asks body .update .update

theorem not_says_of_blank {δ α : Type} {shape : Decode.RecordShape δ α} {body : ByteArray}
    {record : α} (h : Blank body) : ¬ Says shape body record := by
  rintro ⟨text, htext, hsaid⟩
  rw [Decode.ofText?, parse?_of_blank h htext] at hsaid
  cases hsaid

variable {δ α : Type} {shape : Decode.RecordShape δ α} {body : ByteArray}

/-- A body that does not stand for a default has to say the record. -/
theorem decodeBody_eq_ok_iff {standard : Option α} {record : α}
    (h : standard = none ∨ ¬ Blank body) :
    decodeBody shape standard body = .ok record ↔ Says shape body record := by
  unfold decodeBody
  split
  · rename_i hblank
    rcases h with hnone | hno
    · cases hnone
    · exact absurd (all_isBlankByte_iff.1 hblank) hno
  unfold Says Decode.ofText?
  cases String.fromUTF8? body with
  | none => simp
  | some text =>
    cases hjson : Json.parse? text with
    | none => simp [hjson]
    | some json =>
      cases hrecord : shape.decode .refused json.datum with
      | error fault => simp [hjson, hrecord]
      | ok value => simp [hjson, hrecord]

theorem decodeBody_of_blank (standard : α) (h : Blank body) :
    decodeBody shape (some standard) body = .ok standard := by
  unfold decodeBody
  rw [all_isBlankByte_iff.2 h]

theorem map_eq_ok_iff {ε β : Type} {f : α → β} {b : β} {result : Except ε α} :
    result.map f = .ok b ↔ ∃ a, result = .ok a ∧ f a = b := by
  cases result <;> simp [Except.map]

/-- A request is made of a body exactly if the body asks for it. -/
theorem requestOf_eq_ok_iff {route : Route} {asked : Request} :
    requestOf body route = .ok (some asked) ↔ Asks body route asked := by
  cases route with
  | start =>
    rw [requestOf, map_eq_ok_iff]
    constructor
    · rintro ⟨r, hdecoded, hasked⟩
      cases hasked
      exact .start ((decodeBody_eq_ok_iff (.inl rfl)).1 hdecoded)
    · rintro ⟨hsaid⟩
      exact ⟨_, (decodeBody_eq_ok_iff (.inl rfl)).2 hsaid, rfl⟩
  | stop =>
    rw [requestOf, map_eq_ok_iff]
    by_cases hblank : Blank body
    · rw [decodeBody_of_blank _ hblank]
      constructor
      · rintro ⟨r, hdecoded, hasked⟩
        cases hdecoded
        cases hasked
        exact .blankStop hblank
      · intro hasks
        cases hasks with
        | stop hsaid => exact absurd hsaid (not_says_of_blank hblank)
        | blankStop _ => exact ⟨_, rfl, rfl⟩
    · constructor
      · rintro ⟨r, hdecoded, hasked⟩
        cases hasked
        exact .stop ((decodeBody_eq_ok_iff (.inr hblank)).1 hdecoded)
      · intro hasks
        cases hasks with
        | stop hsaid => exact ⟨_, (decodeBody_eq_ok_iff (.inr hblank)).2 hsaid, rfl⟩
        | blankStop h => exact absurd h hblank
  | list =>
    constructor
    · intro h
      cases h
      exact .list
    · rintro ⟨⟩
      rfl
  | update =>
    constructor
    · intro h
      cases h
      exact .update
    · rintro ⟨⟩
      rfl
  | status | health => exact ⟨nofun, nofun⟩

/-- No request is made of a body exactly if the body should ask for one and does not. -/
theorem requestOf_eq_error_iff {route : Route} :
    (∃ text, requestOf body route = .error text) ↔
      (route = .start ∨ route = .stop) ∧ ∀ asked, ¬ Asks body route asked := by
  simp only [← requestOf_eq_ok_iff]
  cases route with
  | start =>
    cases hdecoded : decodeBody StartRequest.shape none body <;> simp [requestOf, hdecoded, Except.map]
  | stop =>
    cases hdecoded : decodeBody StopRequest.shape (some ⟨.bestEffort⟩) body <;>
      simp [requestOf, hdecoded, Except.map]
  | list | update | status | health => simp [requestOf]

/-! ## What the answer is -/

@[simp] theorem status_json (value : Json) : (HttpResponse.json value).status = 200 := rfl

@[simp] theorem status_refusal (status : Nat) (text : String) :
    (HttpResponse.refusal status text).status = status := rfl

/-- The course of answering a request, from one rig to another. -/
inductive Comes (m : Manager) (request : HttpRequest) (rig : Rig) : HttpResponse → Rig → Prop where
  | unknown : Route.parse? request.url = none →
    Comes m request rig (.refusal 404 "not found") rig
  | mistaken {route : Route} : Route.parse? request.url = some route →
    request.method ≠ route.method.text →
    Comes m request rig (.refusal 405 "method not allowed") rig
  | meaningless {route : Route} (text : String) : Route.parse? request.url = some route →
    request.method = route.method.text → (route = .start ∨ route = .stop) →
    (∀ asked, ¬ Asks request.body route asked) →
    Comes m request rig (.refusal 400 text) rig
  | served {route : Route} {asked : Request} {reply : Reply} {after : Rig} (message : String) :
    Route.parse? request.url = some route → request.method = route.method.text →
    Asks request.body route asked → (Service.handle m asked).run rig = (some reply, after) →
    Comes m request rig (.json reply.json) (after.note .info message)
  | looked {status : ManagerStatus} {after : Rig} : Route.parse? request.url = some .status →
    request.method = HttpMethod.get.text → m.status.run rig = (some status, after) →
    Comes m request rig (.json (StatusReport.ofStatus status).json) after
  | healthy : Route.parse? request.url = some .health → request.method = HttpMethod.get.text →
    Comes m request rig (.json (.object [("status", .string "ok")])) rig

/-- Looking at the manager's memory always comes to an end. -/
theorem run_status (m : Manager) (rig : Rig) :
    ∃ status after, m.status.run rig = (some status, after) := by
  obtain ⟨registry, params, clock, log, armed, exit, memory, crashed, numbers⟩ := rig
  cases crashed with
  | false => exact ⟨_, _, rfl⟩
  | true => exact ⟨_, _, rfl⟩

/-- **Every request is answered**, in one of the ways there are. -/
theorem run_answer (m : Manager) (request : HttpRequest) (rig : Rig) :
    ∃ response after, (answer m request).run rig = (some response, after) ∧
      Comes m request rig response after := by
  unfold answer
  cases hroute : Route.parse? request.url with
  | none => exact ⟨_, rig, rfl, .unknown hroute⟩
  | some route =>
    dsimp only
    split
    · rename_i hmethod
      exact ⟨_, rig, rfl, .mistaken hroute hmethod⟩
    rename_i hmethod
    replace hmethod := Decidable.not_not.1 hmethod
    unfold answerOn
    cases hasked : requestOf request.body route with
    | error text =>
      obtain ⟨hroutes, hno⟩ := requestOf_eq_error_iff.1 ⟨text, hasked⟩
      exact ⟨_, rig, rfl, .meaningless text hroute hmethod hroutes hno⟩
    | ok asked =>
      cases asked with
      | some asked =>
        obtain ⟨after, hrun, -⟩ := Service.run_handle m asked rig
        have hserved := Comes.served (request.method ++ " " ++ request.url ++ ": ok="
          ++ if (((Service.dispatch m asked).run rig).1.getD (Service.crashReply asked)).ok then
            "true" else "false") hroute hmethod (requestOf_eq_ok_iff.1 hasked) hrun
        refine ⟨_, _, ?_, hserved⟩
        dsimp only
        rw [run_bind, hrun]
        rfl
      | none =>
        cases route with
        | status =>
          obtain ⟨status, after, hrun⟩ := run_status m rig
          refine ⟨_, after, ?_, .looked hroute hmethod hrun⟩
          dsimp only
          rw [run_bind, hrun]
          rfl
        | health => exact ⟨_, rig, rfl, .healthy hroute hmethod⟩
        | start | stop =>
          -- on these routes a body asks for something or is refused
          exfalso
          rw [requestOf, map_eq_ok_iff] at hasked
          obtain ⟨r, -, heq⟩ := hasked
          cases heq
        | list | update => cases hasked

/-- A body asks for one request at most. -/
theorem Asks.unique {route : Route} {asked other : Request} (h : Asks body route asked)
    (hother : Asks body route other) : other = asked := by
  have hsame := (requestOf_eq_ok_iff.2 hother).symm.trans (requestOf_eq_ok_iff.2 h)
  cases hsame
  rfl

/-- A blank body is a stop without further ado, and no start. -/
theorem asks_of_blank (h : Blank body) :
    (∀ asked, ¬ Asks body .start asked) ∧
      ∀ asked, Asks body .stop asked ↔ asked = .stop ⟨.bestEffort⟩ := by
  refine ⟨?_, fun asked => ⟨Asks.unique (.blankStop h), ?_⟩⟩
  · rintro asked ⟨hsaid⟩
    exact not_says_of_blank h hsaid
  · rintro rfl
    exact .blankStop h

namespace Comes

variable {m : Manager} {request : HttpRequest} {rig after : Rig} {response : HttpResponse}

theorem unknown_iff (h : Comes m request rig response after) :
    response.status = 404 ↔ Route.parse? request.url = none := by
  cases h with
  | unknown hparsed => exact iff_of_true rfl hparsed
  | mistaken hparsed | meaningless _ hparsed | served _ hparsed | looked hparsed
  | healthy hparsed => exact iff_of_false (by simp) (by simp [hparsed])

theorem mistaken_iff (h : Comes m request rig response after) {route : Route}
    (hroute : Route.parse? request.url = some route) :
    response.status = 405 ↔ request.method ≠ route.method.text := by
  cases h with
  | unknown hparsed =>
    rw [hroute] at hparsed
    cases hparsed
  | mistaken hparsed hmethod =>
    rw [hroute] at hparsed
    cases hparsed
    exact iff_of_true rfl hmethod
  | meaningless _ hparsed hmethod | served _ hparsed hmethod | looked hparsed hmethod
  | healthy hparsed hmethod =>
    rw [hroute] at hparsed
    cases hparsed
    exact iff_of_false (by simp) (not_not_intro hmethod)

theorem meaningless_iff (h : Comes m request rig response after) {route : Route}
    (hroute : Route.parse? request.url = some route) (hmethod : request.method = route.method.text) :
    (response.status = 400 ↔ (route = .start ∨ route = .stop) ∧
      ∀ asked, ¬ Asks request.body route asked) ∧
      (response.status = 400 ∨ response.status = 200) := by
  cases h with
  | unknown hparsed =>
    rw [hroute] at hparsed
    cases hparsed
  | mistaken hparsed hmistaken =>
    rw [hroute] at hparsed
    cases hparsed
    exact absurd hmethod hmistaken
  | meaningless _ hparsed _ hroutes hno =>
    rw [hroute] at hparsed
    cases hparsed
    exact ⟨iff_of_true rfl ⟨hroutes, hno⟩, .inl rfl⟩
  | served _ hparsed _ hasked =>
    rw [hroute] at hparsed
    cases hparsed
    exact ⟨iff_of_false (by simp) fun h => h.2 _ hasked, .inr rfl⟩
  | looked hparsed | healthy hparsed =>
    rw [hroute] at hparsed
    cases hparsed
    exact ⟨iff_of_false (by simp) (by simp), .inr rfl⟩

/-- A 200 on a route that asks for something carries the reply of the service. -/
theorem reply (h : Comes m request rig response after) {route : Route}
    (hroute : Route.parse? request.url = some route) (hstatus : response.status = 200)
    (hasks : route ≠ .status ∧ route ≠ .health) :
    ∃ asked reply done, (∀ other, Asks request.body route other ↔ other = asked) ∧
      (Service.handle m asked).run rig = (some reply, done) ∧
      response = .json reply.json ∧ ∃ message, after = done.note .info message := by
  cases h with
  | unknown | mistaken | meaningless => cases hstatus
  | served message hparsed hmethod hasked hrun =>
    rw [hroute] at hparsed
    cases hparsed
    refine ⟨_, _, _, fun other => ⟨hasked.unique, ?_⟩, hrun, rfl, message, rfl⟩
    rintro rfl
    exact hasked
  | looked hparsed =>
    rw [hroute] at hparsed
    cases hparsed
    exact absurd rfl hasks.1
  | healthy hparsed =>
    rw [hroute] at hparsed
    cases hparsed
    exact absurd rfl hasks.2

/-- What is not done leaves everything as it was. -/
theorem eq_of_refusal (h : Comes m request rig response after) (hstatus : response.status ≠ 200) :
    after = rig := by
  cases h with
  | unknown | mistaken | meaningless => rfl
  | served | looked | healthy => exact absurd rfl hstatus

end Comes

/-- A service tells whether the operation has succeeded. -/
theorem ok_of_handle {m : Manager} {asked : Request} {rig after : Rig} {reply : Reply}
    (h : (Service.handle m asked).run rig = (some reply, after)) :
    (reply.ok = false ↔ ¬ asked.Succeeds m rig) ∧ (reply.IsList ↔ asked = .list) := by
  obtain ⟨final, hrun, -⟩ := Service.run_handle m asked rig
  have hserves := Service.dispatch_serves m asked rig
  rw [hrun] at h
  cases h
  exact ⟨hserves.ok, hserves.list⟩

/-- **Every request over HTTP is answered, and the answer is the right one.** It is 404 exactly if
no route has the path, else 405 exactly if the method is not the route's, else 400 exactly if the
route is that of a start or a stop and the body asks for nothing, and else 200. Whatever is not 200
has changed nothing at all. A 200 on a route that asks something of the manager carries the reply of
the service to the one request the body asks for, also if that failed. A blank body asks for a stop
without further ado, and never for a start. -/
theorem dispatch_of_request (m : Manager) (rig : Rig) (request : HttpRequest) :
    ∃ response after, (answer m request).run rig = (some response, after) ∧
      (response.status = 404 ↔ Route.parse? request.url = none) ∧
      (∀ route, Route.parse? request.url = some route →
        (response.status = 405 ↔ request.method ≠ route.method.text) ∧
        (request.method = route.method.text →
          (response.status = 400 ↔ (route = .start ∨ route = .stop) ∧
            ∀ asked, ¬ Asks request.body route asked) ∧
          (response.status = 400 ∨ response.status = 200)) ∧
        (response.status = 200 → route ≠ .status ∧ route ≠ .health →
          ∃ asked reply done, (∀ other, Asks request.body route other ↔ other = asked) ∧
            (Service.handle m asked).run rig = (some reply, done) ∧
            (reply.ok = false ↔ ¬ asked.Succeeds m rig) ∧
            response = .json reply.json ∧ ∃ message, after = done.note .info message)) ∧
      (response.status ≠ 200 → after = rig) ∧
      (Blank request.body → (∀ asked, ¬ Asks request.body .start asked) ∧
        ∀ asked, Asks request.body .stop asked ↔ asked = .stop ⟨.bestEffort⟩) := by
  obtain ⟨response, after, hrun, hcomes⟩ := run_answer m request rig
  refine ⟨response, after, hrun, hcomes.unknown_iff, fun route hroute =>
    ⟨hcomes.mistaken_iff hroute, hcomes.meaningless_iff hroute, ?_⟩, hcomes.eq_of_refusal,
    asks_of_blank⟩
  intro hstatus hasks
  obtain ⟨asked, reply, done, hunique, hserved, hjson, hnote⟩ := hcomes.reply hroute hstatus hasks
  exact ⟨asked, reply, done, hunique, hserved, (ok_of_handle hserved).1, hjson, hnote⟩

/-- While handling goes on, an unknown path, a wrong method and a body that is no text change
nothing. A blank body stops it. -/
theorem dispatch_of_request_handling :
    (∃ response, (answer .usual ⟨"POST", "/stop", .empty⟩).run .handling =
      (some response, .handling) ∧ response.status = 404) ∧
    (∃ response, (answer .usual ⟨"GET", "/stop_configuration", .empty⟩).run .handling =
      (some response, .handling) ∧ response.status = 405) ∧
    (∃ response, (answer .usual ⟨"POST", "/start_configuration", ⟨#[0xFF]⟩⟩).run .handling =
      (some response, .handling) ∧ response.status = 400) ∧
    ∃ response after reply done,
      (answer .usual ⟨"POST", "/stop_configuration", ⟨#[0x20, 0x0A]⟩⟩).run .handling =
        (some response, after) ∧
      (Service.handle .usual (.stop ⟨.bestEffort⟩)).run .handling = (some reply, done) ∧
      reply.ok = true ∧ response = .json reply.json ∧ after.memory.active = none := by
  refine ⟨?_, ?_, ?_, ?_⟩
  · obtain ⟨response, after, hrun, hunknown, -, hkept, -⟩ :=
      dispatch_of_request .usual .handling ⟨"POST", "/stop", .empty⟩
    have hstatus := hunknown.2 (by decide +kernel)
    have hsame := hkept (by simp [hstatus])
    exact ⟨response, hsame ▸ hrun, hstatus⟩
  · obtain ⟨response, after, hrun, -, hknown, hkept, -⟩ :=
      dispatch_of_request .usual .handling ⟨"GET", "/stop_configuration", .empty⟩
    have hstatus := (hknown .stop (by decide +kernel)).1.2 (by decide +kernel)
    have hsame := hkept (by simp [hstatus])
    exact ⟨response, hsame ▸ hrun, hstatus⟩
  · obtain ⟨response, after, hrun, -, hknown, hkept, -⟩ :=
      dispatch_of_request .usual .handling ⟨"POST", "/start_configuration", ⟨#[0xFF]⟩⟩
    have hnothing : ∀ asked, ¬ Asks ⟨#[0xFF]⟩ .start asked := by
      have htextless : String.fromUTF8? ⟨#[0xFF]⟩ = none := by decide +kernel
      rintro asked ⟨text, htext, -⟩
      cases htextless.symm.trans htext
    have hstatus := ((hknown .start (by decide +kernel)).2.1 rfl).1.2 ⟨.inl rfl, hnothing⟩
    have hsame := hkept (by simp [hstatus])
    exact ⟨response, hsame ▸ hrun, hstatus⟩
  · obtain ⟨response, after, hrun, -, hknown, -, hblank⟩ :=
      dispatch_of_request .usual .handling ⟨"POST", "/stop_configuration", ⟨#[0x20, 0x0A]⟩⟩
    obtain ⟨-, hstop⟩ := hblank (by decide +kernel)
    obtain ⟨-, hmethod, hserves⟩ := hknown .stop (by decide +kernel)
    obtain ⟨hrefused, hends⟩ := hmethod rfl
    have hstatus : response.status = 200 :=
      hends.resolve_left fun h => (hrefused.1 h).2 _ ((hstop _).2 rfl)
    obtain ⟨asked, reply, done, hasked, hserved, hfails, hjson, message, rfl⟩ :=
      hserves hstatus (by decide)
    cases (hasked _).1 ((hstop _).2 rfl)
    have hsucceeds : (Manager.usual.stop .bestEffort).Succeeds .handling := by decide +kernel
    have hidle : ((Service.handle .usual (.stop ⟨.bestEffort⟩)).run .handling).2.memory.active =
        none := by
      decide +kernel
    rw [hserved] at hidle
    exact ⟨response, _, reply, done, hrun, hserved,
      Bool.eq_true_of_not_eq_false fun h => hfails.1 h hsucceeds, hjson, hidle⟩

end ControlRig.Server
