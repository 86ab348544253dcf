import ControlRig.Client.Exchange
import ControlRig.Proofs.Server.Dispatch

/-!
# Client and daemon understand each other

The client writes a request, the daemon reads it; the daemon writes a reply, the client reads it.
Both sides go through text, and neither loses anything: **what is asked is what the order means, and
what is read is what was replied** (`wire_round_trip`). Asking for the status is left aside, for it
is no request to the manager; its record reads back like the others.
-/

namespace ControlRig

open Server

theorem fromUTF8?_toUTF8 (s : String) : String.fromUTF8? s.toUTF8 = some s := by
  rw [String.toUTF8_eq_toByteArray, String.fromUTF8?, dif_pos s.isValidUTF8]
  rfl

theorem parse?_path (route : Route) : Route.parse? route.path = some route := by
  cases route <;> decide +kernel

section

variable {δ α : Type} {shape : Decode.RecordShape δ α} {form : Json} {record : α}

/-- The daemon reads a record from the bytes of its form. -/
theorem Writes.said (h : Writes (shape.decode .refused) Json.maxDepth form record) :
    Says shape form.compact.toUTF8 record :=
  ⟨form.compact, fromUTF8?_toUTF8 form.compact, h.ofText?⟩

/-- The client reads a record from an answer that carries its form. -/
theorem Writes.answered (h : Writes (shape.decode .refused) Json.maxDepth form record)
    (url path : String) :
    (Client.Answer.response 200 form.compact).record shape url path = .ok record := by
  have hbody : (Client.Answer.response 200 form.compact).body url path = .ok form.compact := rfl
  unfold Client.Answer.record
  rw [hbody]
  dsimp only [bind, Except.bind]
  rw [Json.parse?_compact h.legible]
  dsimp only
  rw [h.decoded]

end

namespace Client

/-- The request to the manager that an order stands for. -/
def Order.meant : Order → Option Request
  | .start name strictness => some (.start ⟨name, strictness⟩)
  | .stop strictness => some (.stop ⟨strictness⟩)
  | .list => some .list
  | .update => some .update
  | .status => none

/-- The bytes that are sent along with a call. -/
def Call.bytes (call : Call) : ByteArray := ((call.body.map Json.compact).getD "").toUTF8

/-- The request that reaches a daemon when an order goes out to its URL. -/
def Order.arriving (order : Order) (url : String) : HttpRequest :=
  ⟨(order.request url).method.text, order.route.path, (order.request url).bytes⟩

/-- The client reads a reply in an answer, as the kind of record that the order calls for. -/
def Order.Reads (order : Order) (url : String) (answer : Answer) : Reply → Prop
  | .ack a => order ≠ .list ∧ answer.record Ack.shape url order.route.path = .ok a
  | .list l =>
    order = .list ∧ answer.record (ConfigurationList.shape .refused) url order.route.path = .ok l

/-- What an order sends along asks for what the order means. -/
theorem asks_of_meant {order : Order} {asked : Request} (h : order.meant = some asked)
    (url : String) : Asks (order.request url).bytes order.route asked := by
  cases order with
  | start name strictness =>
    cases h
    exact .start (StartRequest.writes ⟨name, strictness⟩).said
  | stop strictness =>
    cases h
    exact .stop (StopRequest.writes ⟨strictness⟩).said
  | list =>
    cases h
    exact .list
  | update =>
    cases h
    exact .update
  | status => cases h

theorem meant_eq_list_iff {order : Order} : order.meant = some .list ↔ order = .list := by
  cases order <;> simp [Order.meant]

/-- A reply of the kind that the order calls for is read by the client. -/
theorem reads_reply {order : Order} {reply : Reply} (h : reply.IsList ↔ order = .list)
    (url : String) : order.Reads url (.response 200 reply.json.compact) reply := by
  cases reply with
  | ack a => exact ⟨fun hlist => h.2 hlist, (Ack.writes a).answered url order.route.path⟩
  | list l => exact ⟨h.1 trivial, (ConfigurationList.writes l).answered url order.route.path⟩

/-- An order is understood and carried out as it was meant, and the client reads the reply. -/
theorem exchange (m : Manager) (rig : Rig) {order : Order} {asked : Request}
    (h : order.meant = some asked) (url : String) :
    requestOf (order.arriving url).body order.route = .ok (some asked) ∧
    ∃ reply done response after, (Service.handle m asked).run rig = (some reply, done) ∧
      (answer m (order.arriving url)).run rig = (some response, after) ∧
      order.Reads url (.response response.status response.body) reply := by
  obtain ⟨response, after, hrun, hcomes⟩ := run_answer m (order.arriving url) rig
  have hroute : Route.parse? (order.arriving url).url = some order.route := parse?_path order.route
  have hasks : Asks (order.arriving url).body order.route asked := asks_of_meant h url
  have hanswers : order.route ≠ .status ∧ order.route ≠ .health := by
    cases order with
    | status => cases h
    | _ => exact ⟨nofun, nofun⟩
  have hstatus : response.status = 200 := by
    obtain ⟨hrefused, heither⟩ := hcomes.meaningless_iff hroute rfl
    exact heither.resolve_left fun hbad => (hrefused.1 hbad).2 asked hasks
  obtain ⟨other, reply, done, hunique, hhandled, rfl, -⟩ :=
    hcomes.reply hroute hstatus hanswers
  cases (hunique asked).1 hasks
  have hlist : reply.IsList ↔ order = .list := by
    rw [(ok_of_handle hhandled).2, ← meant_eq_list_iff, h, Option.some_inj]
  exact ⟨requestOf_eq_ok_iff.2 hasks, reply, done, _, after, hhandled, hrun,
    reads_reply hlist url⟩

end Client

/-- **Nothing is lost on the wire.** Every request, reply, definition and undated status is read
back from its text. Whatever order the client sends, a daemon that receives it reads and serves the
request that the order stands for, and the client reads from the answer the very reply of the
service. -/
theorem wire_round_trip (excess : Decode.Excess) :
    (∀ r : StartRequest,
      Decode.ofText? (StartRequest.shape.decode excess) r.json.compact = some (.ok r)) ∧
    (∀ r : StopRequest,
      Decode.ofText? (StopRequest.shape.decode excess) r.json.compact = some (.ok r)) ∧
    (∀ a : Ack, Decode.ofText? (Ack.shape.decode excess) a.json.compact = some (.ok a)) ∧
    (∀ l : ConfigurationList, Decode.ofText? ((ConfigurationList.shape excess).decode excess)
      l.json.compact = some (.ok l)) ∧
    (∀ d : Definition, Decode.ofText? (Definition.decode excess) d.json.compact = some (.ok d)) ∧
    (∀ s : StatusReport, s.Plain →
      Decode.ofText? (StatusReport.shape.decode excess) s.json.compact = some (.ok s)) ∧
    ∀ (m : Manager) (rig : Rig) (order : Client.Order) (url : String) (asked : Request),
      order.meant = some asked →
      Server.requestOf (order.arriving url).body order.route = .ok (some asked) ∧
      ∃ reply done response after, (Service.handle m asked).run rig = (some reply, done) ∧
        (Server.answer m (order.arriving url)).run rig = (some response, after) ∧
        order.Reads url (.response response.status response.body) reply :=
  ⟨fun r => r.writes.ofText?, fun r => r.writes.ofText?, fun a => a.writes.ofText?,
    fun l => l.writes.ofText?, fun d => d.writes.ofText?, fun _ h => (StatusReport.writes h).ofText?,
    fun m rig _ url _ h => Client.exchange m rig h url⟩

/-- A status with a name that needs escapes, and a strict stop of a daemon without configurations. -/
theorem wire_round_trip_of_strict_stop :
    let status : StatusReport := ⟨some "weld \"A\"", 3, none, 2, "sim"⟩
    let m : Manager := ⟨.standard, "sim"⟩
    let rig : Rig := .fresh (.fresh .zero .zero) .empty
    let order : Client.Order := .stop .strict
    status.Plain ∧ order.meant = some (.stop ⟨.strict⟩) ∧
      Decode.ofText? (StatusReport.shape.decode .refused) status.json.compact =
        some (.ok status) ∧
      Server.requestOf (order.arriving "http://localhost:8420").body .stop =
        .ok (some (.stop ⟨.strict⟩)) ∧
      ∃ reply done response after,
        (Service.handle m (.stop ⟨.strict⟩)).run rig = (some reply, done) ∧
        (Server.answer m (order.arriving "http://localhost:8420")).run rig =
          (some response, after) ∧
        order.Reads "http://localhost:8420" (.response response.status response.body) reply := by
  intro status m rig order
  obtain ⟨-, -, -, -, -, hstatus, hexchange⟩ := wire_round_trip .refused
  have hplain : status.Plain := ⟨rfl, by decide, by decide⟩
  exact ⟨hplain, rfl, hstatus status hplain, hexchange m rig order "http://localhost:8420" _ rfl⟩

end ControlRig
