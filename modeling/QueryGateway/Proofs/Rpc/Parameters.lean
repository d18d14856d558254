import QueryGateway.Proofs.Traversal
import QueryGateway.Rpc.Call

namespace QueryGateway.Rpc
set_option autoImplicit true

/-- What a member of a shape may be. -/
def Shape.Admits : Shape → Json → Prop
  | any, _ => True
  | text, v => ∃ s, v = .string s
  | list, v => ∃ items, v = .array items
  | texts, v => ∃ items, v = .array items ∧ ∀ item ∈ items, ∃ s, item = .string s
  | members, v => ∃ ms, v = .object ms

def Member.Admits (p : Member) (v : Json) : Prop :=
  p.required = false ∧ v = .null ∨ p.shape.Admits v

def IsArgument (v : Json) : Prop :=
  v ≠ .null ∧ (∀ items, v ≠ .array items) ∧ ∀ ms, v ≠ .object ms

/-- Parameters that a method takes. -/
structure Method.Takes (m : Method) (ms : List (String × Json)) : Prop where
  known : ∀ name v, (name, v) ∈ ms → ∃ p ∈ m.schema, p.name = name ∧ p.Admits v
  present : ∀ p ∈ m.schema, p.required = true → ∃ v, (p.name, v) ∈ ms
  arguments : m = .executeQuery → ∀ items, ms.lookup "args" = some (.array items) → ∀ v ∈ items, IsArgument v

theorem Shape.checkText_eq_ok : checkText v = .ok () ↔ ∃ s, v = .string s := by
  cases v with
  | string s => exact iff_of_true rfl ⟨s, rfl⟩
  | _ => exact iff_of_false nofun nofun

theorem Shape.check_eq_ok (s : Shape) (v : Json) : s.check v = .ok () ↔ s.Admits v := by
  cases s with
  | any => exact iff_of_true rfl trivial
  | text => exact checkText_eq_ok
  | list =>
    cases v with
    | array items => exact iff_of_true rfl ⟨items, rfl⟩
    | _ => exact iff_of_false nofun nofun
  | texts =>
    cases v with
    | array items =>
      change items.forM checkText = .ok () ↔ _
      rw [forM_eq_ok]
      constructor
      · intro h
        exact ⟨items, rfl, fun item hm => checkText_eq_ok.mp (h item hm)⟩
      · rintro ⟨items', heq, h⟩ item hm
        cases heq
        exact checkText_eq_ok.mpr (h item hm)
    | _ => exact iff_of_false nofun nofun
  | members =>
    cases v with
    | object ms => exact iff_of_true rfl ⟨ms, rfl⟩
    | _ => exact iff_of_false nofun nofun

theorem Member.check_eq_ok (p : Member) (v : Json) : p.check v = .ok () ↔ p.Admits v := by
  unfold Member.check Member.Admits
  cases hr : p.required with
  | true => simp [Shape.check_eq_ok]
  | false =>
    cases v with
    | null => exact iff_of_true rfl (.inl ⟨rfl, rfl⟩)
    | _ => simp [Json.isNull, Shape.check_eq_ok]

theorem Schema.checkKnown_eq_ok {s : Schema} (hs : (s.map (·.name)).Nodup) (name : String) (v : Json) :
    s.checkKnown (name, v) = .ok () ↔ ∃ p ∈ s, p.name = name ∧ p.Admits v := by
  unfold checkKnown
  cases hf : s.find? (·.name == name) with
  | none =>
    refine iff_of_false nofun ?_
    rintro ⟨p, hp, hn, -⟩
    exact List.find?_eq_none.mp hf p hp (beq_iff_eq.mpr hn)
  | some p =>
    have hp := List.mem_of_find?_eq_some hf
    have hn : p.name = name := by simpa using List.find?_some hf
    refine (p.check_eq_ok v).trans ⟨fun h => ⟨p, hp, hn, h⟩, ?_⟩
    rintro ⟨q, hq, hn', h⟩
    rwa [List.inj_on_of_nodup_map hs hp hq (hn.trans hn'.symm)]

theorem Schema.checkPresent_eq_ok (ms : List (String × Json)) (p : Member) :
    checkPresent ms p = .ok () ↔ (p.required = true → ∃ v, (p.name, v) ∈ ms) := by
  have hlookup : (ms.lookup p.name).isNone = true ↔ ¬ ∃ v, (p.name, v) ∈ ms := by
    rw [Option.isNone_iff_eq_none, List.lookup_eq_none_iff]
    constructor
    · rintro h ⟨v, hm⟩
      exact bne_iff_ne.mp (h _ hm) rfl
    · intro h member hm
      refine bne_iff_ne.mpr fun heq => h ⟨member.2, ?_⟩
      rwa [heq]
  unfold checkPresent
  split
  · next h =>
    rw [Bool.and_eq_true, hlookup] at h
    exact iff_of_false nofun fun hp => h.2 (hp h.1)
  · next h =>
    rw [Bool.and_eq_true, hlookup] at h
    exact iff_of_true rfl fun hr => not_not.mp fun hno => h ⟨hr, hno⟩

theorem Schema.check_eq_ok {s : Schema} (hs : (s.map (·.name)).Nodup) (ms : List (String × Json)) :
    s.check ms = .ok () ↔ (∀ name v, (name, v) ∈ ms → ∃ p ∈ s, p.name = name ∧ p.Admits v) ∧
      ∀ p ∈ s, p.required = true → ∃ v, (p.name, v) ∈ ms := by
  have hknown : ms.forM s.checkKnown = .ok () ↔
      ∀ name v, (name, v) ∈ ms → ∃ p ∈ s, p.name = name ∧ p.Admits v := by
    rw [forM_eq_ok, Prod.forall]
    exact forall_congr' fun name => forall_congr' fun v => imp_congr_right fun _ => checkKnown_eq_ok hs name v
  have hpresent : List.forM s (checkPresent ms) = .ok () ↔ ∀ p ∈ s, p.required = true → ∃ v, (p.name, v) ∈ ms := by
    rw [forM_eq_ok]
    exact forall_congr' fun p => imp_congr_right fun _ => checkPresent_eq_ok ms p
  rw [← hknown, ← hpresent, check]
  cases ms.forM s.checkKnown with
  | error e => exact iff_of_false nofun nofun
  | ok u => exact (and_iff_right rfl).symm

theorem Method.schema_nodup (m : Method) : (m.schema.map (·.name)).Nodup := by
  cases m <;> decide

namespace Call

theorem argument_ok_iff : (∃ s, argument v i = .ok s) ↔ IsArgument v := by
  cases v with
  | null => exact iff_of_false nofun fun h => h.1 rfl
  | array items => exact iff_of_false nofun fun h => h.2.1 items rfl
  | object ms => exact iff_of_false nofun fun h => h.2.2 ms rfl
  | _ => exact iff_of_true ⟨_, rfl⟩ ⟨nofun, nofun, nofun⟩

theorem arguments_ok_iff (values : List Json) : (∃ args, arguments values = .ok args) ↔ ∀ v ∈ values, IsArgument v := by
  constructor
  · rintro ⟨args, h⟩ v hv
    obtain ⟨i, hi⟩ := List.getElem?_of_mem hv
    obtain ⟨s, -, hs⟩ := exists_of_mem_left (mapM_ok_iff.mp h) (List.mk_mem_zipIdx_iff_getElem?.mpr hi)
    exact argument_ok_iff.mp ⟨s, hs⟩
  · intro h
    cases hr : arguments values with
    | ok args => exact ⟨args, rfl⟩
    | error e =>
      obtain ⟨⟨v, i⟩, hm, he⟩ := mapM_error hr
      obtain ⟨s, hs⟩ := argument_ok_iff.mpr (h v (List.fst_mem_of_mem_zipIdx hm))
      cases he.symm.trans hs

theorem mem_items_iff : v ∈ items ms name ↔ ∃ values, ms.lookup name = some (.array values) ∧ v ∈ values := by
  unfold items
  cases ms.lookup name with
  | none => exact iff_of_false List.not_mem_nil nofun
  | some w =>
    cases w with
    | array values => exact ⟨fun h => ⟨values, rfl, h⟩, fun ⟨_, heq, h⟩ => by cases heq; exact h⟩
    | _ => exact iff_of_false List.not_mem_nil nofun

/-- The parameters that a call can be made of are those that its method takes. -/
theorem ofParams_ok_iff (m : Method) (ms : List (String × Json)) : (∃ c, ofParams m ms = .ok c) ↔ m.Takes ms := by
  have hcheck := Schema.check_eq_ok m.schema_nodup ms
  unfold ofParams
  cases hc : m.schema.check ms with
  | error e =>
    rw [hc] at hcheck
    exact iff_of_false nofun fun h => nomatch hcheck.mpr ⟨h.known, h.present⟩
  | ok u =>
    obtain ⟨hknown, hpresent⟩ := hcheck.mp hc
    have htakes : m.Takes ms ↔ (m = .executeQuery → ∀ items, ms.lookup "args" = some (.array items) →
        ∀ v ∈ items, IsArgument v) := ⟨fun h => h.arguments, fun h => ⟨hknown, hpresent, h⟩⟩
    rw [htakes]
    change (∃ c, ofChecked ms m = .ok c) ↔ _
    cases m with
    | executeQuery =>
      have hcall : (∃ c, ofChecked ms .executeQuery = .ok c) ↔ ∃ args, arguments (items ms "args") = .ok args := by
        rw [ofChecked]
        cases arguments (items ms "args") with
        | error e => exact iff_of_false nofun nofun
        | ok args => exact iff_of_true ⟨_, rfl⟩ ⟨args, rfl⟩
      rw [hcall, arguments_ok_iff]
      constructor
      · intro h _ values hv v hm
        exact h v (mem_items_iff.mpr ⟨values, hv, hm⟩)
      · intro h v hv
        obtain ⟨values, hl, hm⟩ := mem_items_iff.mp hv
        exact h rfl values hl v hm
    | _ => exact iff_of_true ⟨_, rfl⟩ nofun

end Call

end QueryGateway.Rpc
