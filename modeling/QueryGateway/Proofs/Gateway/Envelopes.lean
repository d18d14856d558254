import QueryGateway.Proofs.Rpc.Bodies
import QueryGateway.Gateway

namespace QueryGateway
set_option autoImplicit true

open Rpc

namespace Rpc

/-- The `id` that a body writes: an object's last one, else null. -/
def idWritten : Option Json → Json
  | some (.object ms) => (ms.reverse.lookup "id").elim .null Json.merged
  | _ => .null

theorem idOf_merged (w : Json) : Envelope.idOf w.merged = idWritten (some w) := by
  unfold Envelope.idOf
  rw [Json.member?_merged]
  cases w with
  | object ms =>
    change ((ms.reverse.lookup "id").map Json.merged).getD .null = (ms.reverse.lookup "id").elim .null Json.merged
    cases ms.reverse.lookup "id" with
    | none => rfl
    | some v => rfl
  | _ => rfl

namespace Answer

def errorJson (e : ErrorObject) : Json :=
  .object [("code", .int e.code), ("message", .string e.message)]

theorem members_done (id v : Json) :
    (Answer.mk id (.ok v)).toJson.member? "result" = some v ∧ (Answer.mk id (.ok v)).toJson.member? "error" = none :=
  ⟨rfl, rfl⟩

theorem members_failed (id : Json) (e : ErrorObject) :
    (Answer.mk id (.error e)).toJson.member? "result" = none ∧
      (Answer.mk id (.error e)).toJson.member? "error" = some (errorJson e) :=
  ⟨rfl, rfl⟩

end Answer

namespace FailureKind

theorem status_ne_ok (k : FailureKind) : k.status ≠ 200 := by
  cases k <;> decide

end FailureKind

namespace Call

theorem argument_error (h : argument v i = .error f) : ∃ message, f = .invalidParams message := by
  cases v with
  | null | array | object => exact ⟨_, (Except.error.inj h).symm⟩
  | bool | int | float | string => exact nomatch h

theorem ofChecked_error (h : ofChecked ms m = .error f) : ∃ message, f = .invalidParams message := by
  cases m with
  | executeQuery =>
    cases ha : arguments (items ms "args") with
    | ok args =>
      rw [ofChecked, ha] at h
      exact nomatch h
    | error f' =>
      rw [ofChecked, ha] at h
      obtain rfl : f' = f := Except.error.inj h
      obtain ⟨a, -, he⟩ := mapM_error ha
      exact argument_error he
  | _ => exact nomatch h

/-- Parameters that are not right for a method are the caller's mistake, whatever the method. -/
theorem ofParams_error (h : ofParams m ms = .error f) : ∃ message, f = .invalidParams message := by
  unfold ofParams at h
  cases hc : m.schema.check ms with
  | error e =>
    rw [hc] at h
    exact ⟨_, (Except.error.inj h).symm⟩
  | ok u =>
    rw [hc] at h
    exact ofChecked_error h

end Call

end Rpc

namespace Gateway

/-- Parameters in the form of members: those of an object, or none. -/
def GivesMembers (params : Option Json) (ms : List (String × Json)) : Prop :=
  params = none ∧ ms = [] ∨ params = some (.object ms)

/-- How a written body is answered, in the order in which it is looked at. -/
inductive Answered (g : Gateway) (clock : Clock) : Option Json → Nat → Except ErrorObject Json → Prop
  | notJson : Answered g clock none 400 (.error ⟨-32700, "Parse error"⟩)
  | unreadable (e : ShapeError) : ¬ Readable w →
      Answered g clock (some w) 400 (.error ⟨-32600, "Invalid request: " ++ e.message⟩)
  | version : Readable w → given? 0 "jsonrpc" w = some (.string s) → s ≠ "2.0" →
      Answered g clock (some w) 400 (.error ⟨-32600, "Invalid request: jsonrpc must be \"2.0\""⟩)
  | noMethod : Readable w → (∀ s, given? 0 "jsonrpc" w = some (.string s) → s = "2.0") →
      given? 1 "method" w = none ∨ given? 1 "method" w = some .null →
      Answered g clock (some w) 400 (.error ⟨-32600, "Invalid request: missing method"⟩)
  | methodNotFound : Asks w method params → Method.ofName? method = none →
      Answered g clock (some w) 404 (.error ⟨-32601, "Method not found: " ++ method⟩)
  | notMembers : Asks w method params → Method.ofName? method = some m → (∀ ms, ¬ GivesMembers params ms) →
      Answered g clock (some w) 400 (.error ⟨-32602, "params must be an object"⟩)
  | unbound : Asks w method params → Method.ofName? method = some m → GivesMembers params ms →
      Call.ofParams m ms = .error f → Answered g clock (some w) 400 (.error ⟨-32602, f.message⟩)
  | failed : Asks w method params → Method.ofName? method = some m → GivesMembers params ms →
      Call.ofParams m ms = .ok c → (g.answerCall clock c).1 = .error f →
      Answered g clock (some w) f.kind.status (.error ⟨f.kind.code, f.message⟩)
  | done : Asks w method params → Method.ofName? method = some m → GivesMembers params ms →
      Call.ofParams m ms = .ok c → (g.answerCall clock c).1 = .ok v → Answered g clock (some w) 200 (.ok v)

/-- What holds of every answer to a body, given with its HTTP status. -/
structure Lawful (g : Gateway) (clock : Clock) (body : ByteArray) (response : Nat × Answer) : Prop where
  version : response.2.toJson.member? "jsonrpc" = some (.string "2.0")
  id : response.2.toJson.member? "id" = some (idWritten (Json.writtenBytes? body))
  result : ∀ v, response.2.toJson.member? "result" = some v ↔ response.2.result = .ok v
  error : ∀ v, response.2.toJson.member? "error" = some v ↔
    ∃ e, response.2.result = .error e ∧ v = Answer.errorJson e
  one : (response.2.toJson.member? "result").isSome ↔ response.2.toJson.member? "error" = none
  status : response.1 = 200 ↔ (response.2.toJson.member? "result").isSome
  answered : Answered g clock (Json.writtenBytes? body) response.1 response.2.result

theorem givesMembers_iff (hp : params ≠ some .null) : GivesMembers params ms ↔ paramsOf params = .ok ms := by
  cases params with
  | none => exact ⟨fun h => h.elim (fun h => h.2 ▸ rfl) nofun, fun h => .inl ⟨rfl, (Except.ok.inj h).symm⟩⟩
  | some v =>
    cases v with
    | null => exact absurd rfl hp
    | object ms' => exact ⟨fun h => h.elim nofun fun h => by cases h; rfl, fun h => .inr (by cases h; rfl)⟩
    | _ => exact ⟨fun h => h.elim nofun nofun, nofun⟩

theorem paramsOf_error (h : paramsOf params = .error f) : f = .invalidParams "params must be an object" := by
  match params with
  | none | some .null | some (.object ms) => exact nomatch h
  | some (.bool _) | some (.int _) | some (.float _) | some (.string _) | some (.array _) =>
    exact (Except.error.inj h).symm

/-- The answer that a call's outcome makes, with its HTTP status. -/
def responseOf (id : Json) : Except Failure Json → Nat × Answer
  | .ok v => (200, ⟨id, .ok v⟩)
  | .error f => (f.kind.status, .ofFailure id f)

theorem responseOf_id (id : Json) (r : Except Failure Json) : (responseOf id r).2.id = id := by
  cases r with
  | ok v => rfl
  | error f => rfl

section

variable (g : Gateway) (clock : Clock)

theorem invoke_unknown (hm : Method.ofName? method = none) :
    g.invoke clock method params = (.error (.methodNotFound method), g) := by
  simp only [invoke, hm]

theorem invoke_misformed (hm : Method.ofName? method = some m) (hp : paramsOf params = .error f) :
    g.invoke clock method params = (.error f, g) := by
  simp only [invoke, hm, hp, bind, Except.bind]

theorem invoke_unbound (hm : Method.ofName? method = some m) (hp : paramsOf params = .ok ms)
    (hc : Call.ofParams m ms = .error f) : g.invoke clock method params = (.error f, g) := by
  simp only [invoke, hm, hp, hc, bind, Except.bind]

theorem invoke_bound (hm : Method.ofName? method = some m) (hp : paramsOf params = .ok ms)
    (hc : Call.ofParams m ms = .ok c) : g.invoke clock method params = g.answerCall clock c := by
  simp only [invoke, hm, hp, hc, bind, Except.bind]

/-- A call is looked at in the order method, form of the parameters, parameters, and only then carried out. -/
theorem invoke_answered (id : Json) (h : Asks w method params) :
    Answered g clock (some w) (responseOf id (g.invoke clock method params).1).1
      (responseOf id (g.invoke clock method params).1).2.result := by
  cases hm : Method.ofName? method with
  | none =>
    rw [invoke_unknown g clock hm]
    exact .methodNotFound h hm
  | some m =>
    cases hp : paramsOf params with
    | error f =>
      rw [invoke_misformed g clock hm hp, paramsOf_error hp]
      exact .notMembers h hm fun ms hms => nomatch hp.symm.trans ((givesMembers_iff h.params_ne_null).mp hms)
    | ok ms =>
      have hms : GivesMembers params ms := (givesMembers_iff h.params_ne_null).mpr hp
      cases hc : Call.ofParams m ms with
      | error f =>
        rw [invoke_unbound g clock hm hp hc]
        have hf : Answered g clock (some w) 400 (.error ⟨-32602, f.message⟩) := .unbound h hm hms hc
        obtain ⟨message, rfl⟩ := Call.ofParams_error hc
        exact hf
      | ok c =>
        rw [invoke_bound g clock hm hp hc]
        cases hr : (g.answerCall clock c).1 with
        | error f => exact .failed h hm hms hc hr
        | ok v => exact .done h hm hms hc hr

theorem handle_of_asks (hw : Json.writtenBytes? body = some w) (h : Asks w method params) :
    g.handle clock body =
      (responseOf (idWritten (some w)) (g.call clock method params).1, (g.call clock method params).2) := by
  unfold handle handleJson
  rw [Json.readBytes?_eq, hw, Option.map_some]
  simp only [(read_envelope w).eq_ok h, idOf_merged]
  cases g.call clock method params with
  | mk r g' =>
    cases r with
    | ok v => rfl
    | error f => rfl

theorem handle_of_refused (hw : Json.writtenBytes? body = some w)
    (he : Envelope.ofJson w.merged = .error e) :
    g.handle clock body = ((400, .refusal (idWritten (some w)) e), g) := by
  unfold handle handleJson
  rw [Json.readBytes?_eq, hw, Option.map_some]
  simp only [he, idOf_merged]

theorem handle_answered (body : ByteArray) :
    (g.handle clock body).1.2.id = idWritten (Json.writtenBytes? body) ∧
      Answered g clock (Json.writtenBytes? body) (g.handle clock body).1.1 (g.handle clock body).1.2.result := by
  cases hw : Json.writtenBytes? body with
  | none =>
    have hr : g.handle clock body = ((400, .refusal .null .notJson), g) := by
      unfold handle
      rw [Json.readBytes?_eq, hw]
      rfl
    rw [hr]
    exact ⟨rfl, .notJson⟩
  | some w =>
    have hread := read_envelope w
    cases he : Envelope.ofJson w.merged with
    | ok envelope =>
      rw [he] at hread
      cases hread with
      | asks h =>
        rw [handle_of_asks g clock hw h]
        exact ⟨responseOf_id _ _, invoke_answered g clock _ h⟩
    | error e =>
      rw [he] at hread
      rw [handle_of_refused g clock hw he]
      refine ⟨rfl, ?_⟩
      cases hread with
      | unreadable hr => exact .unreadable _ hr
      | version hr hs hne => exact .version hr hs hne
      | noMethod hr hall hnone => exact .noMethod hr hall (hr.missing hnone)

end

theorem Answered.status_iff (h : Answered g clock w code r) : code = 200 ↔ ∃ v, r = .ok v := by
  cases h with
  | done => exact iff_of_true rfl ⟨_, rfl⟩
  | failed => exact iff_of_false (FailureKind.status_ne_ok _) nofun
  | notJson | unreadable | version | noMethod | methodNotFound | notMembers | unbound =>
    exact iff_of_false (by decide) nofun

/-- Every body, whatever its bytes, has one answer: under the id it writes, with a result or an error, and with the
code and the status that belong to the first thing that is wrong. -/
theorem handle_lawful (g : Gateway) (clock : Clock) (body : ByteArray) :
    Lawful g clock body (g.handle clock body).1 := by
  obtain ⟨hid, ha⟩ := handle_answered g clock body
  generalize (g.handle clock body).1 = response at hid ha
  obtain ⟨code, id, r⟩ := response
  obtain rfl : id = idWritten (Json.writtenBytes? body) := hid
  have hcode := ha.status_iff
  cases r with
  | ok v =>
    obtain ⟨hresult, herror⟩ := Answer.members_done (idWritten (Json.writtenBytes? body)) v
    exact {
      version := rfl
      id := rfl
      result := fun v' => hresult ▸ ⟨fun h => congrArg _ (Option.some.inj h), fun h => congrArg _ (Except.ok.inj h)⟩
      error := fun v' => herror ▸ iff_of_false nofun nofun
      one := iff_of_true (hresult ▸ rfl) herror
      status := iff_of_true (hcode.mpr ⟨v, rfl⟩) (hresult ▸ rfl)
      answered := ha }
  | error e =>
    obtain ⟨hresult, herror⟩ := Answer.members_failed (idWritten (Json.writtenBytes? body)) e
    exact {
      version := rfl
      id := rfl
      result := fun v' => hresult ▸ iff_of_false nofun nofun
      error := fun v' => herror ▸
        ⟨fun h => ⟨e, rfl, (Option.some.inj h).symm⟩, fun ⟨e', he, hv⟩ => hv ▸ Except.error.inj he ▸ rfl⟩
      one := iff_of_false (hresult ▸ nofun) (herror ▸ nofun)
      status := iff_of_false (fun h => nomatch hcode.mp h) (hresult ▸ nofun)
      answered := ha }

/-- A body that is no object is refused and leaves everything as it was, unless it is a list with a method in its second
place: that is answered as the call it lists, with no id. -/
theorem handle_not_object (g : Gateway) (clock : Clock) (hw : Json.writtenBytes? body = some w)
    (ho : ∀ ms, w ≠ .object ms) :
    (∀ method params, Asks w method params ↔ ∃ items, w = .array items ∧ items.length ≤ 4 ∧
      (∀ v, items[0]? = some v → v = .null ∨ v = .string "2.0") ∧ items[1]? = some (.string method) ∧
        params = (items[2]?.map Json.merged).filter (!·.isNull)) ∧
    (∀ method params, Asks w method params →
      g.handle clock body =
        (responseOf .null (g.call clock method params).1, (g.call clock method params).2)) ∧
    ((∀ method params, ¬ Asks w method params) →
      ∃ message, g.handle clock body = ((400, ⟨.null, .error ⟨-32600, message⟩⟩), g)) := by
  have hid : idWritten (some w) = .null := by
    cases w with
    | object ms => exact absurd rfl (ho ms)
    | _ => rfl
  refine ⟨fun method params => ⟨fun h => ?_, ?_⟩, fun method params h => ?_, fun hno => ?_⟩
  · obtain ⟨items, rfl⟩ := h.array ho
    exact ⟨items, rfl, asks_array.mp h⟩
  · rintro ⟨items, rfl, h⟩
    exact asks_array.mpr h
  · rw [handle_of_asks g clock hw h, hid]
  · obtain ⟨e, he, hcode⟩ := (read_envelope w).eq_error hno
    rw [handle_of_refused g clock hw he, hid, Answer.refusal, hcode]
    exact ⟨e.message, rfl⟩

theorem handle_not_object_ping :
    let g := Gateway.new (.ofTables none "main" []) ⟨.builtIn, false, 100⟩ none
    (g.handle ⟨0, "now", 0⟩ "[\"2.0\", \"ping\"]".toUTF8).1 =
      (200, ⟨.null, .ok (status "ok" [("timestamp", .string "now")])⟩) := by
  intro g
  have hw : Json.writtenBytes? "[\"2.0\", \"ping\"]".toUTF8 = some (.array [.string "2.0", .string "ping"]) := by cbv
  obtain ⟨hasks, hrun, -⟩ := handle_not_object g ⟨0, "now", 0⟩ hw fun _ => Json.noConfusion
  have hping : Asks (.array [.string "2.0", .string "ping"]) "ping" none :=
    (hasks _ _).mpr ⟨_, rfl, by decide, fun v hv => .inr (Option.some.inj hv).symm, rfl, rfl⟩
  rw [hrun "ping" none hping]
  rfl

end Gateway

end QueryGateway
