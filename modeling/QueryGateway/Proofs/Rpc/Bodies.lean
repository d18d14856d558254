import QueryGateway.Proofs.Json.Repeated
import QueryGateway.Proofs.Traversal
import QueryGateway.Rpc.Envelope

namespace QueryGateway.Rpc
set_option autoImplicit true

/-- What a body gives for a member of a call: an object under its name, where the last one counts, a list at its
place. -/
def given? (place : Nat) (name : String) : Json → Option Json
  | .array items => items[place]?
  | w => w.lastMember? name

def TextOrNull (v : Json) : Prop :=
  v = .null ∨ ∃ s, v = .string s

/-- A body that can be read as a request: nothing is asked of its members but that the version and the method are
text. -/
structure Readable (w : Json) : Prop where
  form : (∃ ms, w = .object ms) ∨ ∃ items, w = .array items ∧ items.length ≤ 4
  version : ∀ v, given? 0 "jsonrpc" w = some v → TextOrNull v
  method : ∀ v, given? 1 "method" w = some v → TextOrNull v

/-- A body that asks for a method. -/
structure Asks (w : Json) (method : String) (params : Option Json) : Prop where
  readable : Readable w
  version : ∀ s, given? 0 "jsonrpc" w = some (.string s) → s = "2.0"
  method : given? 1 "method" w = some (.string method)
  params : params = ((given? 2 "params" w).map Json.merged).filter (!·.isNull)

theorem Readable.missing (h : Readable w) (hno : ∀ s, given? 1 "method" w ≠ some (.string s)) :
    given? 1 "method" w = none ∨ given? 1 "method" w = some .null := by
  cases hv : given? 1 "method" w with
  | none => exact .inl rfl
  | some v =>
    obtain rfl | ⟨s, rfl⟩ := h.method v hv
    · exact .inr rfl
    · exact absurd hv (hno s)

theorem Asks.params_ne_null {method : String} {params : Option Json} (h : Asks w method params) :
    params ≠ some .null := by
  intro hp
  obtain ⟨-, hnot⟩ := Option.filter_eq_some_iff.mp (h.params.symm.trans hp)
  exact nomatch hnot

/-- A list asks for a method by its places; what stands in the fourth is passed over. -/
theorem asks_array {items : List Json} {method : String} {params : Option Json} :
    Asks (.array items) method params ↔
      items.length ≤ 4 ∧ (∀ v, items[0]? = some v → v = .null ∨ v = .string "2.0") ∧
        items[1]? = some (.string method) ∧ params = (items[2]?.map Json.merged).filter (!·.isNull) := by
  constructor
  · rintro ⟨⟨hform, hv, -⟩, hversion, hmethod, hparams⟩
    obtain ⟨ms, hms⟩ | ⟨items', hi, hl⟩ := hform
    · exact nomatch hms
    · cases hi
      refine ⟨hl, fun v hv' => ?_, hmethod, hparams⟩
      obtain rfl | ⟨s, rfl⟩ := hv v hv'
      · exact .inl rfl
      · exact .inr (congrArg Json.string (hversion s hv'))
  · rintro ⟨hl, hv, hmethod, hparams⟩
    refine ⟨⟨.inr ⟨items, rfl, hl⟩, fun v hv' => ?_, fun v hv' => ?_⟩, fun s hs => ?_, hmethod, hparams⟩
    · exact (hv v hv').imp_right fun h => ⟨_, h⟩
    · exact .inr ⟨method, Option.some.inj (hv'.symm.trans hmethod)⟩
    · obtain h | h := hv _ hs
      · exact nomatch h
      · exact Json.string.inj h

theorem Asks.array {method : String} {params : Option Json} (h : Asks w method params) (ho : ∀ ms, w ≠ .object ms) :
    ∃ items, w = .array items := by
  obtain ⟨ms, hms⟩ | ⟨items, hi, -⟩ := h.readable.form
  · exact absurd hms (ho ms)
  · exact ⟨items, hi⟩

theorem textOrNull_merged (v : Json) : TextOrNull v.merged ↔ TextOrNull v := by
  cases v <;> simp [TextOrNull, Json.merged]

namespace Envelope

theorem checkText_eq_ok (v : Json) : (⟨name, .text, false⟩ : Member).check v = .ok () ↔ TextOrNull v := by
  cases v <;> simp [Member.check, Shape.check, Shape.checkText, TextOrNull, Json.isNull]

theorem checkAny_eq_ok (name : String) (v : Json) : (⟨name, .any, false⟩ : Member).check v = .ok () := by
  unfold Member.check
  split
  · rfl
  · rfl

theorem checkMember_eq_ok (name : String) (v : Json) :
    checkMember (name, v) = .ok () ↔ (name = "jsonrpc" ∨ name = "method" → TextOrNull v) := by
  unfold checkMember
  cases hm : List.find? (fun m => m.name == name) schema with
  | none =>
    have hno := List.find?_eq_none.mp hm
    refine iff_of_true rfl fun h => ?_
    rcases h with rfl | rfl
    · exact absurd rfl (hno ⟨"jsonrpc", .text, false⟩ (by decide))
    · exact absurd rfl (hno ⟨"method", .text, false⟩ (by decide))
  | some m =>
    have hname : m.name = name := by simpa using List.find?_some hm
    have hmem := List.mem_of_find?_eq_some hm
    simp only [schema, List.mem_cons, List.not_mem_nil, or_false] at hmem
    rcases hmem with rfl | rfl | rfl | rfl
    · exact (checkText_eq_ok v).trans ⟨fun h _ => h, fun h => h (.inl hname.symm)⟩
    · exact (checkText_eq_ok v).trans ⟨fun h _ => h, fun h => h (.inr hname.symm)⟩
    · exact iff_of_true (checkAny_eq_ok _ v) fun h => by simp [← hname] at h
    · exact iff_of_true (checkAny_eq_ok _ v) fun h => by simp [← hname] at h

theorem forM_checkMember {ms : List (String × Json)} (h : (ms.map Prod.fst).Nodup) :
    ms.forM checkMember = .ok () ↔
      (∀ v, ms.lookup "jsonrpc" = some v → TextOrNull v) ∧ ∀ v, ms.lookup "method" = some v → TextOrNull v := by
  rw [forM_eq_ok]
  constructor
  · intro hall
    have hread : ∀ {name v}, ms.lookup name = some v → name = "jsonrpc" ∨ name = "method" → TextOrNull v :=
      fun hl => (checkMember_eq_ok _ _).mp (hall _ ((Json.mem_iff_lookup h).mpr hl))
    exact ⟨fun v hl => hread hl (.inl rfl), fun v hl => hread hl (.inr rfl)⟩
  · rintro ⟨hversion, hmethod⟩ ⟨name, v⟩ hm
    rw [checkMember_eq_ok]
    rintro (rfl | rfl)
    · exact hversion v ((Json.mem_iff_lookup h).mp hm)
    · exact hmethod v ((Json.mem_iff_lookup h).mp hm)

def named : Json → List (String × Json)
  | .object ms => ms
  | .array items => (schema.map (·.name)).zip items
  | _ => []

theorem nodup_named_merged (w : Json) : ((named w.merged).map Prod.fst).Nodup := by
  cases w with
  | object ms => exact Json.nodup_lastWins _
  | array items =>
    match items with
    | [] => exact List.nodup_nil
    | [_] => exact (by decide : ["jsonrpc"].Nodup)
    | [_, _] => exact (by decide : ["jsonrpc", "method"].Nodup)
    | [_, _, _] => exact (by decide : ["jsonrpc", "method", "params"].Nodup)
    | _ :: _ :: _ :: _ :: _ => exact (by decide : ["jsonrpc", "method", "params", "id"].Nodup)
  | _ => exact List.nodup_nil

theorem lookup_named_merged (w : Json) :
    (named w.merged).lookup "jsonrpc" = (given? 0 "jsonrpc" w).map Json.merged ∧
    (named w.merged).lookup "method" = (given? 1 "method" w).map Json.merged ∧
    (named w.merged).lookup "params" = (given? 2 "params" w).map Json.merged := by
  cases w with
  | array items =>
    match items with
    | [] => exact ⟨rfl, rfl, rfl⟩
    | [_] => exact ⟨rfl, rfl, rfl⟩
    | [_, _] => exact ⟨rfl, rfl, rfl⟩
    | _ :: _ :: _ :: _ => exact ⟨rfl, rfl, rfl⟩
  | object ms =>
    exact ⟨Json.member?_merged (.object ms) _, Json.member?_merged (.object ms) _, Json.member?_merged (.object ms) _⟩
  | _ => exact ⟨rfl, rfl, rfl⟩

theorem members_merged (w : Json) :
    (Readable w ∧ members w.merged = .ok (named w.merged)) ∨ (¬ Readable w ∧ ∃ e, members w.merged = .error e) := by
  have hchecked : (named w.merged).forM checkMember = .ok () ↔
      (∀ v, given? 0 "jsonrpc" w = some v → TextOrNull v) ∧ ∀ v, given? 1 "method" w = some v → TextOrNull v := by
    obtain ⟨hv, hm, -⟩ := lookup_named_merged w
    rw [forM_checkMember (nodup_named_merged w), hv, hm]
    simp only [Option.map_eq_some_iff, forall_exists_index, and_imp, forall_apply_eq_imp_iff₂, textOrNull_merged]
  cases w with
  | object ms =>
    have hr : members (Json.object ms).merged = (do
        (named (Json.object ms).merged).forM checkMember
        return named (Json.object ms).merged) := rfl
    cases hc : (named (Json.object ms).merged).forM checkMember with
    | ok u =>
      obtain ⟨hversion, hmethod⟩ := hchecked.mp hc
      exact .inl ⟨⟨.inl ⟨ms, rfl⟩, hversion, hmethod⟩, by rw [hr, hc]; rfl⟩
    | error e =>
      refine .inr ⟨fun h => ?_, e, by rw [hr, hc]; rfl⟩
      exact nomatch hc.symm.trans (hchecked.mpr ⟨h.version, h.method⟩)
  | array items =>
    have hr : members (Json.array items).merged = (do
        (named (Json.array items).merged).forM checkMember
        if 4 < (Json.mergedItems items).length then .error (.tooLong (Json.mergedItems items).length)
        return named (Json.array items).merged) := rfl
    have hlength : (Json.mergedItems items).length = items.length := by
      rw [Json.mergedItems_eq, List.length_map]
    cases hc : (named (Json.array items).merged).forM checkMember with
    | error e =>
      refine .inr ⟨fun h => ?_, e, by rw [hr, hc]; rfl⟩
      exact nomatch hc.symm.trans (hchecked.mpr ⟨h.version, h.method⟩)
    | ok u =>
      obtain ⟨hversion, hmethod⟩ := hchecked.mp hc
      rw [hr, hc, hlength]
      rcases Nat.lt_or_ge 4 items.length with hl | hl
      · refine .inr ⟨fun h => ?_, .tooLong items.length, by rw [if_pos hl]; rfl⟩
        obtain ⟨ms, hms⟩ | ⟨items', heq, hl'⟩ := h.form
        · exact nomatch hms
        · cases heq
          exact absurd hl (Nat.not_lt.mpr hl')
      · exact .inl ⟨⟨.inr ⟨items, rfl, hl⟩, hversion, hmethod⟩, by rw [if_neg (Nat.not_lt.mpr hl)]; rfl⟩
  | _ =>
    refine .inr ⟨fun h => ?_, _, rfl⟩
    obtain ⟨ms, hms⟩ | ⟨items, hi, -⟩ := h.form
    · exact nomatch hms
    · exact nomatch hi

theorem present?_eq (ms : List (String × Json)) (name : String) :
    present? ms name = (ms.lookup name).filter (!·.isNull) := by
  unfold present?
  cases ms.lookup name with
  | none => rfl
  | some v => cases v <;> rfl

theorem text_merged (x : Option Json) :
    ((x.map Json.merged).filter (!·.isNull)).bind Json.string? = x.bind Json.string? := by
  cases x with
  | none => rfl
  | some v => cases v <;> rfl

theorem bind_string?_eq_some {x : Option Json} : x.bind Json.string? = some s ↔ x = some (.string s) := by
  cases x with
  | none => exact iff_of_false nofun nofun
  | some v => cases v <;> simp [Json.string?]

theorem other_version {x : Option Json} :
    (x.bind Json.string?).any (· != "2.0") = true ↔ ∃ s, x = some (.string s) ∧ s ≠ "2.0" := by
  simp only [← bind_string?_eq_some]
  cases x.bind Json.string? with
  | none => exact iff_of_false nofun nofun
  | some s => simp

end Envelope

/-- What becomes of a body that is JSON, in the order in which it is looked at. -/
inductive Read (w : Json) : Except EnvelopeError Envelope → Prop
  | unreadable : ¬ Readable w → Read w (.error (.shape e))
  | version : Readable w → given? 0 "jsonrpc" w = some (.string s) → s ≠ "2.0" → Read w (.error .version)
  | noMethod : Readable w → (∀ s, given? 0 "jsonrpc" w = some (.string s) → s = "2.0") →
      (∀ s, given? 1 "method" w ≠ some (.string s)) → Read w (.error .noMethod)
  | asks : Asks w method params → Read w (.ok ⟨method, params⟩)

theorem read_envelope (w : Json) : Read w (Envelope.ofJson w.merged) := by
  unfold Envelope.ofJson
  obtain ⟨hr, hms⟩ | ⟨hr, e, he⟩ := Envelope.members_merged w
  · obtain ⟨hv, hm, hp⟩ := Envelope.lookup_named_merged w
    simp only [hms, Envelope.present?_eq, hv, hm, hp, Envelope.text_merged, Except.mapError, bind, Except.bind]
    by_cases hversion : ((given? 0 "jsonrpc" w).bind Json.string?).any (· != "2.0") = true
    · obtain ⟨s, hs, hne⟩ := Envelope.other_version.mp hversion
      rw [if_pos hversion]
      exact .version hr hs hne
    · have hall : ∀ s, given? 0 "jsonrpc" w = some (.string s) → s = "2.0" := by
        intro s hs
        by_contra hne
        exact hversion (Envelope.other_version.mpr ⟨s, hs, hne⟩)
      rw [if_neg hversion]
      cases hmethod : (given? 1 "method" w).bind Json.string? with
      | some method => exact .asks ⟨hr, hall, Envelope.bind_string?_eq_some.mp hmethod, rfl⟩
      | none =>
        exact .noMethod hr hall fun s hs => nomatch hmethod.symm.trans (Envelope.bind_string?_eq_some.mpr hs)
  · rw [he]
    exact .unreadable hr

namespace Read

/-- A body that asks for a method is read as such. -/
theorem eq_ok (h : Read w r) (ha : Asks w method params) : r = .ok ⟨method, params⟩ := by
  cases h with
  | unreadable hr => exact absurd ha.readable hr
  | version hr hs hne => exact absurd (ha.version _ hs) hne
  | noMethod hr hall hnone => exact absurd ha.method (hnone method)
  | asks ha' =>
    cases ha.method.symm.trans ha'.method
    cases ha.params.trans ha'.params.symm
    rfl

/-- A body that asks for nothing is an invalid request. -/
theorem eq_error (h : Read w r) (ha : ∀ method params, ¬ Asks w method params) :
    ∃ e, r = .error e ∧ e.code = -32600 := by
  cases h with
  | unreadable hr => exact ⟨_, rfl, rfl⟩
  | version hr hs hne => exact ⟨_, rfl, rfl⟩
  | noMethod hr hall hnone => exact ⟨_, rfl, rfl⟩
  | asks ha' => exact absurd ha' (ha _ _)

end Read

end QueryGateway.Rpc
