import ControlRig.Proofs.Client.Wording

/-!
# Exit codes

The client ends with 2 if the daemon did not answer, with 0 if it granted the order, and with 1
otherwise. The first is decided by the words of an error, and an error may be what the daemon has
sent; that the two are never mixed up rests on what a daemon can say
(`ControlRig.Proofs.Client.Wording`).

A daemon is met here in any state: what it answers with is the end of any walk through the answering
of any request, whoever else takes part. It may as well be something else that listens at the URL,
as long as its answers have another code than 200 or make no sense.
-/

namespace ControlRig.Client

/-! ## Answers -/

/-- A body tells whether an order was carried out, in a record of the kind that the order calls for.
A status tells only itself. -/
def Order.Tells (body : String) (ok : Bool) : Order → Prop
  | .start .. | .stop _ | .update =>
    ∃ a, Decode.ofText? (Ack.shape.decode .refused) body = some (.ok a) ∧ a.ok = ok
  | .list =>
    ∃ l, Decode.ofText? ((ConfigurationList.shape .refused).decode .refused) body = some (.ok l) ∧
      l.ok = ok
  | .status =>
    (∃ s, Decode.ofText? (StatusReport.shape.decode .refused) body = some (.ok s)) ∧ ok = true

/-- An answer by which the daemon has carried out an order. -/
def Order.Granted (order : Order) (answer : Answer) : Prop :=
  ∃ body, answer = .response 200 body ∧ order.Tells body true

/-- What a client can get for an order. -/
inductive Order.Meets (order : Order) : Answer → Prop where
  | unreachable (cause : String) : Meets order (.unreachable cause)
  | unreadable (cause : String) : Meets order (.unreadable cause)
  | otherStatus {status : Nat} (body : String) (h : status ≠ 200) :
    Meets order (.response status body)
  | undecodable {body : String} (h : ∀ ok, ¬ order.Tells body ok) :
    Meets order (.response 200 body)
  /-- The answer of a server, whoever asked it and whatever; its counters are words. -/
  | server {m : Manager} {request : HttpRequest} {seen : List Observation} {response : HttpResponse}
    (h : (Server.answer m request).Goes seen (some response))
    (counted : Route.parse? request.url = some .status →
      ∀ s : StatusReport, response = .json s.json → s.Fits) :
    Meets order (.response response.status response.body)

/-- The answer that a server gives on a rig. -/
theorem meets_of_run {order : Order} {m : Manager} {request : HttpRequest} {rig after : Rig}
    {response : HttpResponse} (h : (Server.answer m request).run rig = (some response, after))
    (counted : Route.parse? request.url = some .status →
      ∀ s : StatusReport, response = .json s.json → s.Fits) :
    order.Meets (.response response.status response.body) :=
  .server (Procedure.goes_of_run (congrArg Prod.fst h)) counted

/-! ## Records in answers -/

section

variable {δ α : Type}

/-- What an answer comes to when it is read. -/
inductive Heard (shape : Decode.RecordShape δ α) : Answer → Except String α → Prop where
  | unreachable (cause rest : String) :
    Heard shape (.unreachable cause) (.error (unreachableText ++ rest))
  | record {body : String} {a : α}
    (h : Decode.ofText? (shape.decode .refused) body = some (.ok a)) :
    Heard shape (.response 200 body) (.ok a)
  | nothing {answer : Answer} {text : String} (reached : ∀ cause, answer ≠ .unreachable cause)
    (unread : ∀ body a, answer = .response 200 body →
      Decode.ofText? (shape.decode .refused) body ≠ some (.ok a)) (departs : Departs text) :
    Heard shape answer (.error text)

/-- What is read from an answer with code 200 is what its body says. -/
theorem record_ok (shape : Decode.RecordShape δ α) (url path body : String) :
    ∃ words, (Answer.response 200 body).record shape url path =
      match Decode.ofText? (shape.decode .refused) body with
      | some (.ok a) => .ok a
      | _ => .error ("invalid response from " ++ words) := by
  have hbody : (Answer.response 200 body).body url path = .ok body := rfl
  unfold Answer.record Decode.ofText?
  rw [hbody]
  dsimp only [bind, Except.bind]
  cases Json.parse? body with
  | none => exact ⟨baseOf url ++ path ++ ": " ++ "malformed JSON", by simp [String.append_assoc]⟩
  | some form =>
    rw [Option.map_some]
    dsimp only
    cases shape.decode .refused form.datum with
    | error fault =>
      exact ⟨baseOf url ++ path ++ ": " ++ fault.message, by simp [String.append_assoc]⟩
    | ok a => exact ⟨"", rfl⟩

/-- Every answer is heard as one of three. -/
theorem heard_record (shape : Decode.RecordShape δ α) (url path : String) (answer : Answer) :
    Heard shape answer (answer.record shape url path) := by
  cases answer with
  | unreachable cause =>
    have htext : (Answer.unreachable cause).record shape url path =
        .error (unreachableText ++ (" at " ++ baseOf url ++ ": " ++ cause)) := by
      simp [Answer.record, Answer.body, bind, Except.bind, String.append_assoc]
    rw [htext]
    exact .unreachable cause _
  | unreadable cause =>
    have hwords : Departs "reading response from " := by decide
    exact .nothing nofun nofun ((((hwords.append _).append _).append _).append _)
  | response status body =>
    by_cases hstatus : status = 200
    · subst hstatus
      have hwords : Departs "invalid response from " := by decide
      obtain ⟨rest, hrecord⟩ := record_ok shape url path body
      rw [hrecord]
      split
      · exact .record ‹_›
      · rename_i hnone
        refine .nothing nofun ?_ (hwords.append rest)
        rintro _ a ⟨⟩ hread
        exact hnone a hread
    · have hwords : Departs "HTTP " := by decide
      have htext : (Answer.response status body).record shape url path =
          .error ("HTTP " ++ (Text.decimal status ++ (" for " ++ (baseOf url ++ (path ++ (": "
            ++ Text.trim body)))))) := by
        simp [Answer.record, Answer.body, hstatus, bind, Except.bind, String.append_assoc]
      rw [htext]
      refine .nothing nofun ?_ (hwords.append _)
      rintro _ a heq
      cases heq
      exact absurd rfl hstatus

end

/-! ## Messages in answers -/

/-- No record that is read from the answer, of the kind that the order calls for, has a message that
could be mistaken. -/
def Order.Civil (answer : Answer) : Order → Prop
  | .start .. | .stop _ | .update =>
    ∀ body a, answer = .response 200 body →
      Decode.ofText? (Ack.shape.decode .refused) body = some (.ok a) →
      ∀ text, a.message = some text → Departs text
  | .list =>
    ∀ body l, answer = .response 200 body →
      Decode.ofText? ((ConfigurationList.shape .refused).decode .refused) body = some (.ok l) →
      ∀ text, l.message = some text → Departs text
  | .status => True

/-- What is not a record of the right kind has no message either. -/
theorem civil_of_unread {order : Order} {answer : Answer}
    (h : ∀ body ok, answer = .response 200 body → ¬ order.Tells body ok) : order.Civil answer := by
  cases order with
  | start name strictness | stop strictness | update =>
    exact fun body a hanswer hread => absurd ⟨a, hread, rfl⟩ (h body a.ok hanswer)
  | list => exact fun body l hanswer hread => absurd ⟨l, hread, rfl⟩ (h body l.ok hanswer)
  | status => trivial

theorem civil_of_harmless {order : Order} {form : Json} (h : Harmless form) :
    order.Civil (.response 200 form.compact) := by
  -- the body is read as the form itself
  have hread {β : Type} {decode : Decoder β} {body : String} {b : β}
      (hanswer : Answer.response 200 form.compact = .response 200 body)
      (hsaid : Decode.ofText? decode body = some (.ok b)) : decode form.datum = .ok b := by
    cases hanswer
    rw [Decode.ofText?, Json.parse?_compact h.legible] at hsaid
    exact Option.some.inj hsaid
  cases order with
  | start name strictness | stop strictness | update =>
    exact fun body a hanswer hsaid text => Ack.departs_of_decode h (hread hanswer hsaid)
  | list =>
    exact fun body l hanswer hsaid text =>
      ConfigurationList.departs_of_decode h (hread hanswer hsaid)
  | status => trivial

theorem Order.Meets.civil {order : Order} {answer : Answer} (h : order.Meets answer) :
    order.Civil answer := by
  have hstatus {status : Nat} {body : String} (hother : status ≠ 200) :
      order.Civil (.response status body) := by
    refine civil_of_unread fun _ _ heq => ?_
    cases heq
    exact absurd rfl hother
  cases h with
  | unreachable cause => exact civil_of_unread nofun
  | unreadable cause => exact civil_of_unread nofun
  | otherStatus body hother => exact hstatus hother
  | undecodable hno =>
    refine civil_of_unread fun _ ok heq => ?_
    cases heq
    exact hno ok
  | @server m request seen response hanswered counted =>
    rcases Server.harmless_of_goes hanswered counted with hother | ⟨form, rfl, hform⟩
    · exact hstatus hother
    · exact civil_of_harmless hform

/-! ## Exit codes -/

/-- The exit code of an outcome. -/
def exitCode : Except String Printed → Nat
  | .ok printed => if printed.success then 0 else 1
  | .error message => errorCode message

theorem code_report (i : Invocation) (answer : Answer) :
    (report i answer).code = exitCode (outcome i answer) := by
  unfold report
  cases outcome i answer <;> rfl

/-- How the client ends on an answer. -/
inductive Order.Ends (order : Order) (answer : Answer) : Nat → Prop where
  | unreachable {cause : String} (h : answer = .unreachable cause) : Ends order answer 2
  | granted (h : order.Granted answer) : Ends order answer 0
  | failed (reached : ∀ cause, answer ≠ .unreachable cause) (h : ¬ order.Granted answer) :
    Ends order answer 1

/-- The code of a record that is heard is that of its report. -/
theorem Heard.ends {δ α : Type} {shape : Decode.RecordShape δ α} {order : Order} {answer : Answer}
    {record : Except String α} {tail : α → Except String Printed}
    (heard : Heard shape answer record) (ok : α → Bool)
    (tells : ∀ body, order.Tells body true ↔
      ∃ a, Decode.ofText? (shape.decode .refused) body = some (.ok a) ∧ ok a = true)
    (reported : ∀ body a, answer = .response 200 body →
      Decode.ofText? (shape.decode .refused) body = some (.ok a) →
      exitCode (tail a) = if ok a then 0 else 1) :
    order.Ends answer (exitCode (record >>= tail)) := by
  cases heard with
  | unreachable cause rest =>
    show order.Ends _ (errorCode (unreachableText ++ rest))
    rw [errorCode_unreachable]
    exact .unreachable rfl
  | @record body a hread =>
    show order.Ends _ (exitCode (tail a))
    rw [reported body a rfl hread]
    cases hok : ok a with
    | true => exact .granted ⟨body, rfl, (tells body).2 ⟨a, hread, hok⟩⟩
    | false =>
      refine .failed nofun ?_
      rintro ⟨_, ⟨⟩, htells⟩
      obtain ⟨other, hother, hgranted⟩ := (tells body).1 htells
      rw [hread] at hother
      cases hother
      rw [hok] at hgranted
      cases hgranted
  | @nothing _ text reached unread departs =>
    show order.Ends _ (errorCode text)
    rw [errorCode_of_departs departs]
    refine .failed reached ?_
    rintro ⟨body, hanswer, htells⟩
    obtain ⟨a, hread, -⟩ := (tells body).1 htells
    exact unread body a hanswer hread

theorem exitCode_reportAck {a : Ack} (h : ∀ text, a.message = some text → Departs text)
    (json : Bool) (done : Option String) :
    exitCode (reportAck json done a) = if a.ok then 0 else 1 := by
  have hdefault : Departs "request failed" := by decide
  unfold reportAck
  cases json with
  | true => rfl
  | false =>
    cases hok : a.ok with
    | true => rfl
    | false =>
      show errorCode (a.message.getD "request failed") = 1
      cases hmessage : a.message with
      | none => exact errorCode_of_departs hdefault
      | some text => exact errorCode_of_departs (h text hmessage)

theorem exitCode_reportList {l : ConfigurationList}
    (h : ∀ text, l.message = some text → Departs text) (json : Bool) :
    exitCode (reportList json l) = if l.ok then 0 else 1 := by
  have hdefault : Departs "listing configurations failed" := by decide
  unfold reportList
  cases hok : l.ok with
  | true => cases json <;> rfl
  | false =>
    show errorCode (l.message.getD "listing configurations failed") = 1
    cases hmessage : l.message with
    | none => exact errorCode_of_departs hdefault
    | some text => exact errorCode_of_departs (h text hmessage)

theorem ends_of_civil {i : Invocation} {answer : Answer} (h : i.order.Civil answer) :
    i.order.Ends answer (report i answer).code := by
  rw [code_report]
  obtain ⟨url, timeoutSecs, json, verbose, order⟩ := i
  cases order with
  | start name strictness | stop strictness | update =>
    exact (heard_record Ack.shape url _ answer).ends Ack.ok (fun _ => Iff.rfl)
      fun body a hanswer hread => exitCode_reportAck (h body a hanswer hread) json _
  | list =>
    exact (heard_record (ConfigurationList.shape .refused) url _ answer).ends ConfigurationList.ok
      (fun _ => Iff.rfl) fun body l hanswer hread =>
        exitCode_reportList (h body l hanswer hread) json
  | status =>
    -- a status is always told
    refine (heard_record StatusReport.shape url _ answer).ends (fun _ => true) (fun body => ?_)
      fun _ _ _ _ => rfl
    exact ⟨fun ⟨⟨s, hread⟩, _⟩ => ⟨s, hread, rfl⟩, fun ⟨s, hread, _⟩ => ⟨⟨s, hread⟩, rfl⟩⟩

theorem Order.Ends.codes {order : Order} {answer : Answer} {code : Nat}
    (h : order.Ends answer code) :
    (code = 2 ↔ ∃ cause, answer = .unreachable cause) ∧ (code = 0 ↔ order.Granted answer) ∧
      (code = 1 ↔ (∀ cause, answer ≠ .unreachable cause) ∧ ¬ order.Granted answer) := by
  cases h with
  | @unreachable cause hcause =>
    have hungranted : ¬ order.Granted answer := by
      rintro ⟨body, hbody, -⟩
      rw [hcause] at hbody
      cases hbody
    exact ⟨iff_of_true rfl ⟨cause, hcause⟩, iff_of_false nofun hungranted,
      iff_of_false nofun fun h => h.1 cause hcause⟩
  | granted hgranted =>
    refine ⟨iff_of_false nofun ?_, iff_of_true rfl hgranted,
      iff_of_false nofun fun h => h.2 hgranted⟩
    rintro ⟨cause, hcause⟩
    obtain ⟨body, hbody, -⟩ := hgranted
    rw [hcause] at hbody
    cases hbody
  | failed reached hno =>
    exact ⟨iff_of_false nofun fun ⟨cause, hcause⟩ => reached cause hcause, iff_of_false nofun hno,
      iff_of_true rfl ⟨reached, hno⟩⟩

/-- **Exit codes are exact.** Whatever a well-formed command line orders, with or without JSON, and
whatever comes of it: the client ends with 2 exactly if no response was received, with 0 exactly if
the response has code 200 and a body that grants the order, and with 1 in every other case. So no
message of a daemon is ever taken for a daemon that does not answer, whatever names it holds. -/
theorem exit_code_exact {words : List String} {i : Invocation}
    (wellFormed : Invocation.ofWords words = .ok i) (send : Nat → Call → Answer)
    (meets : i.order.Meets (send i.timeoutSecs (i.order.request i.url))) :
    let answer := send i.timeoutSecs (i.order.request i.url)
    let code := (run (m := Id) send words).code
    (code = 2 ↔ ∃ cause, answer = .unreachable cause) ∧
      (code = 0 ↔ i.order.Granted answer) ∧
      (code = 1 ↔ (∀ cause, answer ≠ .unreachable cause) ∧ ¬ i.order.Granted answer) ∧
      ∀ (m : Manager) (request : Request) (seen : List Observation) (reply : Reply),
        (Service.handle m request).Goes seen (some reply) →
        ∀ text, reply.message = some text → errorCode text = 1 := by
  intro answer code
  have hcode : code = (report i answer).code := by
    show (run (m := Id) send words).code = _
    unfold run
    rw [wellFormed]
    rfl
  obtain ⟨htwo, hzero, hone⟩ := (ends_of_civil meets.civil).codes
  rw [hcode]
  exact ⟨htwo, hzero, hone, fun m request seen reply hreply text told =>
    errorCode_of_departs (Service.departs_of_handle hreply told)⟩

/-- A configuration that is named like the words for an unreachable daemon, and is not there. -/
theorem exit_code_exact_mimicry :
    let words := ["start", "cannot reach rigconfd"]
    let order : Order := .start "cannot reach rigconfd" .bestEffort
    let url := "http://127.0.0.1:8420"
    let m : Manager := ⟨.standard, "sim"⟩
    let rig : Rig := .fresh (.fresh .zero .zero) .empty
    ∃ response after, (Server.answer m (order.arriving url)).run rig = (some response, after) ∧
      Invocation.ofWords words = .ok ⟨url, 60, false, false, order⟩ ∧
      let answer := Answer.response response.status response.body
      let code := (run (m := Id) (fun _ _ => answer) words).code
      (code = 2 ↔ ∃ cause, answer = .unreachable cause) ∧ (code = 0 ↔ order.Granted answer) ∧
        (code = 1 ↔ (∀ cause, answer ≠ .unreachable cause) ∧ ¬ order.Granted answer) := by
  intro words order url m rig
  obtain ⟨response, after, hrun, -⟩ := Server.run_answer m (order.arriving url) rig
  have hwords : Invocation.ofWords words = .ok ⟨url, 60, false, false, order⟩ := by
    decide +kernel
  have hroute : Route.parse? (order.arriving url).url ≠ some .status := by decide +kernel
  obtain ⟨htwo, hzero, hone, -⟩ := exit_code_exact hwords
    (fun _ _ => .response response.status response.body)
    (meets_of_run hrun fun hstatus => absurd hstatus hroute)
  exact ⟨response, after, hrun, hwords, htwo, hzero, hone⟩

end ControlRig.Client
