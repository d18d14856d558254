import QueryGateway.Execution
import QueryGateway.Proofs.Traversal

namespace QueryGateway
set_option autoImplicit true

open Store

theorem Text.containsList_iff : containsList part cs = true ↔ part <:+: cs := by
  induction cs with
  | nil => rw [containsList, List.isEmpty_iff, List.infix_nil]
  | cons c cs ih => rw [containsList, Bool.or_eq_true, ih, List.isPrefixOf_iff_prefix, List.infix_cons_iff]

theorem Text.contains_iff : contains s part = true ↔ part.toList <:+: s.toList :=
  containsList_iff

namespace Store

/-- How keys compare; those of texts, of numbers and of moments are lists of numbers. -/
def KeysCompare (x : List Int) (y : List Int) : Comparison → Prop
  | .eq => x = y
  | .ne => x ≠ y
  | .gt => y < x
  | .lt => x < y
  | .ge => ¬ x < y
  | .le => ¬ y < x
  | .like => False

/-- A value compares with another one in this way, neither being null. -/
def Value.Compares (op : Comparison) (a b : Value) : Prop :=
  ∃ x y, a.key? = some x ∧ b.key? = some y ∧ KeysCompare x y op

theorem compareKeys_iff : compareKeys op x y = true ↔ KeysCompare x y op := by
  cases op with
  | eq => exact beq_iff_eq
  | ne => exact bne_iff_ne
  | gt => exact decide_eq_true_iff
  | lt => exact decide_eq_true_iff
  | ge => simp only [compareKeys, KeysCompare, Bool.not_eq_true', decide_eq_false_iff_not]
  | le => simp only [compareKeys, KeysCompare, Bool.not_eq_true', decide_eq_false_iff_not]
  | like => exact iff_of_false Bool.false_ne_true id

theorem Value.compares_iff {a b : Value} : a.compares op b = true ↔ a.Compares op b := by
  unfold compares Compares
  cases ha : a.key? with
  | none => exact iff_of_false nofun nofun
  | some x =>
    cases hb : b.key? with
    | none => exact iff_of_false nofun nofun
    | some y =>
      rw [compareKeys_iff]
      constructor
      · intro h
        exact ⟨x, y, rfl, rfl, h⟩
      · rintro ⟨x', y', hx, hy, h⟩
        cases hx
        cases hy
        exact h

theorem Value.not_compares_null (op : Comparison) (b : Value) : ¬ Value.null.Compares op b := by
  rintro ⟨x, y, hx, -⟩
  cases hx

end Store

namespace Predicate

/-- The comparison holds of the row: the value occurs in the text of the column, or the column compares with what the
value is in its type. -/
def Holds (t : TableInfo) (p : Predicate) (r : Record) : Prop :=
  ∃ c, t.column p.column = .ok c ∧
    (p.op = .like → ∃ s, (t.cell c r).text? = some s ∧ p.value.toList <:+: s.toList) ∧
    (p.op ≠ .like → ∃ v, c.type.cast? p.value = some v ∧ (t.cell c r).Compares p.op v)

/-- The column is there and the value is one of its type. -/
def Fits (t : TableInfo) (p : Predicate) : Prop :=
  ∃ c, t.column p.column = .ok c ∧ (p.op ≠ .like → ∃ v, c.type.cast? p.value = some v)

/-- A filter that asks for the same as a predicate. -/
structure Asks (t : TableInfo) (p : Predicate) (f : Store.Filter Column) : Prop where
  column : t.column p.column = .ok f.column
  op : f.op = p.op
  value : f.value = some p.value

def accepts (t : TableInfo) (p : Predicate) (r : Record) : Bool :=
  match t.column p.column with
  | .error _ => false
  | .ok c =>
    if p.op = .like then (t.cell c r).text?.any (Text.contains · p.value)
    else (c.type.cast? p.value).any fun v => (t.cell c r).compares p.op v

theorem accepts_iff {t : TableInfo} {p : Predicate} : accepts t p r = true ↔ p.Holds t r := by
  unfold accepts Holds
  cases hc : t.column p.column with
  | error e =>
    apply iff_of_false nofun
    rintro ⟨c, heq, -⟩
    cases heq
  | ok c =>
    simp only [Except.ok.injEq, exists_eq_left']
    by_cases hop : p.op = .like
    · simp only [hop, if_true, Option.any_eq_true, Text.contains_iff, true_implies, ne_eq, not_true_eq_false,
        false_implies, and_true]
    · simp only [hop, if_false, Option.any_eq_true, Value.compares_iff, false_implies, true_and, ne_eq,
        not_false_eq_true, true_implies]

instance (t : TableInfo) (p : Predicate) (r : Record) : Decidable (p.Holds t r) :=
  decidable_of_iff (accepts t p r = true) accepts_iff

theorem decide_holds (t : TableInfo) (p : Predicate) (r : Record) : decide (p.Holds t r) = accepts t p r := by
  rw [Bool.eq_iff_iff, decide_eq_true_iff, accepts_iff]

theorem apply_like {f : Store.Filter Column} (ho : f.op = .like) (hv : f.value = some part) (rs : List Record) :
    f.apply t rs = .ok (rs.filter fun r => (t.cell f.column r).text?.any (Text.contains · part)) := by
  unfold Store.Filter.apply
  rw [ho, hv]

theorem apply_cast {f : Store.Filter Column} (ho : f.op ≠ .like) (hv : f.value = some s)
    (hc : f.column.type.cast? s = some v) (rs : List Record) :
    f.apply t rs = .ok (rs.filter fun r => (t.cell f.column r).compares f.op v) := by
  have hcast : f.column.type.cast (some s) = .ok v := by
    rw [ColumnType.cast, hc]
  have happly : f.apply t rs = if rs.isEmpty then .ok [] else
      (f.column.type.cast (some s)).map fun wanted => rs.filter fun r => (t.cell f.column r).compares f.op wanted := by
    unfold Store.Filter.apply
    rw [hv]
    cases h : f.op with
    | like => exact absurd h ho
    | _ => rfl
  rw [happly, hcast]
  cases rs <;> rfl

/-- The rows that pass a filter are those of which the predicate holds. -/
theorem Asks.apply {p : Predicate} {f : Store.Filter Column} (h : p.Asks t f) (hp : p.Fits t) (rs : List Record) :
    f.apply t rs = .ok (rs.filter fun r => decide (p.Holds t r)) := by
  obtain ⟨c, hc, hcast⟩ := hp
  obtain rfl : f.column = c := Except.ok.inj (h.column.symm.trans hc)
  have haccepts (r : Record) : decide (p.Holds t r) =
      if p.op = .like then (t.cell f.column r).text?.any (Text.contains · p.value)
      else (f.column.type.cast? p.value).any fun v => (t.cell f.column r).compares p.op v := by
    rw [decide_holds, accepts, hc]
  by_cases hop : p.op = .like
  · rw [apply_like (h.op.trans hop) h.value]
    simp only [haccepts, hop, if_true]
  · obtain ⟨v, hv⟩ := hcast hop
    have hne : f.op ≠ .like := h.op ▸ hop
    rw [apply_cast hne h.value hv]
    simp only [haccepts, hop, if_false, hv, Option.any_some, h.op]

theorem applyFilters_eq (h : List.Forall₂ (Asks t) ps fs) (hp : ∀ p ∈ ps, p.Fits t) (rs : List Record) :
    Select.applyFilters t fs rs = .ok (rs.filter fun r => decide (∀ p ∈ ps, p.Holds t r)) := by
  induction h generalizing rs with
  | nil =>
    have hall : ∀ r ∈ rs, decide (∀ p ∈ ([] : List Predicate), p.Holds t r) = true := by
      intro r _
      exact decide_eq_true (List.forall_mem_nil _)
    rw [Select.applyFilters, List.filter_eq_self.mpr hall]
  | @cons p f ps fs ha _ ih =>
    obtain ⟨hfit, hfits⟩ := List.forall_mem_cons.mp hp
    rw [Select.applyFilters, ha.apply hfit]
    change Select.applyFilters t fs _ = _
    rw [ih hfits, List.filter_filter]
    congr 2
    funext r
    rw [Bool.eq_iff_iff, Bool.and_eq_true, decide_eq_true_iff, decide_eq_true_iff, decide_eq_true_iff,
      List.forall_mem_cons, and_comm]

theorem resolve_filters (hp : ∀ p ∈ ps, p.Fits t) :
    ∃ fs, (ps.map fun p => (⟨p.column, p.op, some p.value⟩ : Store.Filter String)).mapM (Select.resolveFilter t) =
      .ok fs ∧
      List.Forall₂ (Asks t) ps fs := by
  induction ps with
  | nil => exact ⟨[], rfl, .nil⟩
  | cons p ps ih =>
    obtain ⟨⟨c, hc, -⟩, hfits⟩ := List.forall_mem_cons.mp hp
    obtain ⟨fs, hfs, hasks⟩ := ih hfits
    have hf : Select.resolveFilter t ⟨p.column, p.op, some p.value⟩ = .ok ⟨c, p.op, some p.value⟩ := by
      rw [Select.resolveFilter, hc]
      rfl
    refine ⟨⟨c, p.op, some p.value⟩ :: fs, ?_, .cons ⟨hc, rfl, rfl⟩ hasks⟩
    rw [List.map_cons, List.mapM_cons, hf, hfs]
    rfl

theorem asks_of_resolve
    (h : (ps.map fun p => (⟨p.column, p.op, some p.value⟩ : Store.Filter String)).mapM (Select.resolveFilter t) =
      .ok fs) :
    List.Forall₂ (Asks t) ps fs := by
  apply (List.forall₂_map_left_iff.mp (mapM_ok_iff.mp h)).imp
  intro p f hf
  obtain ⟨c, hc, hf⟩ := bind_ok hf
  cases Except.ok.inj hf
  exact ⟨hc, rfl, rfl⟩

/-- A text that is no value of the column is not looked at only where there are no rows. -/
theorem Asks.apply_unfit {p : Predicate} {f : Store.Filter Column} (h : p.Asks t f) (hp : ¬ p.Fits t)
    (hf : f.apply t rs = .ok rs') : rs = [] ∧ rs' = [] := by
  have hop : f.op ≠ .like := fun hop => hp ⟨f.column, h.column, fun hne => absurd (h.op.symm.trans hop) hne⟩
  have hcast : f.column.type.cast? p.value = none := by
    by_contra hsome
    exact hp ⟨f.column, h.column, fun _ => Option.ne_none_iff_exists'.mp hsome⟩
  have herror : f.column.type.cast (some p.value) = .error (.engine (f.column.type.castMessage p.value)) := by
    rw [ColumnType.cast, hcast]
  unfold Store.Filter.apply at hf
  rw [h.value] at hf
  split at hf
  · next heq => cases heq
  · next heq => cases heq
  · next heq => cases heq
  · next hlike _ => exact absurd hlike hop
  · split at hf
    · next hnil => exact ⟨List.isEmpty_iff.mp hnil, (Except.ok.inj hf).symm⟩
    · rw [herror] at hf
      exact nomatch hf

theorem Asks.passes {p : Predicate} {f : Store.Filter Column} (h : p.Asks t f) (hf : f.apply t rs = .ok rs') :
    rs' = rs.filter fun r => decide (p.Holds t r) := by
  by_cases hp : p.Fits t
  · exact Except.ok.inj (hf.symm.trans (h.apply hp rs))
  · obtain ⟨rfl, rfl⟩ := h.apply_unfit hp hf
    rfl

theorem applyFilters_passes (h : List.Forall₂ (Asks t) ps fs) (hf : Select.applyFilters t fs rs = .ok rs') :
    rs' = rs.filter fun r => decide (∀ p ∈ ps, p.Holds t r) := by
  induction h generalizing rs with
  | nil =>
    cases Except.ok.inj hf
    exact (List.filter_eq_self.mpr fun r _ => decide_eq_true (List.forall_mem_nil _)).symm
  | @cons p f ps fs ha _ ih =>
    obtain ⟨found, hfound, hf⟩ := bind_ok hf
    rw [ih hf, ha.passes hfound, List.filter_filter]
    congr 1
    funext r
    rw [Bool.eq_iff_iff, Bool.and_eq_true, decide_eq_true_iff, decide_eq_true_iff, decide_eq_true_iff,
      List.forall_mem_cons, and_comm]

end Predicate

/-- The rows that satisfy all predicates, in the order of the store. -/
def Store.Table.matching (t : Table) (ps : List Predicate) : List Record :=
  t.records.filter fun r => decide (∀ p ∈ ps, p.Holds t.info r)

theorem Store.Table.applyFilters_matching {t : Table} (h : List.Forall₂ (Predicate.Asks t.info) ps fs)
    (hp : ∀ p ∈ ps, p.Fits t.info) : Select.applyFilters t.info fs t.records = .ok (t.matching ps) :=
  Predicate.applyFilters_eq h hp t.records

theorem Store.Table.mem_matching {t : Table} : r ∈ t.matching ps ↔ r ∈ t.records ∧ ∀ p ∈ ps, p.Holds t.info r := by
  rw [matching, List.mem_filter, decide_eq_true_iff]

end QueryGateway
