import QueryGateway.Proofs.Store.Connections
import QueryGateway.Proofs.Execution.Matching
import QueryGateway.Proofs.Execution.Columns
import QueryGateway.Proofs.Execution.Order

namespace QueryGateway.Store
set_option autoImplicit true

theorem Engine.view_pin (e : Engine) (c : Nat) : (e.pin c).view c = e.view c := by
  cases he : e.connection c with
  | idle => rw [pin, he]
  | reading p => rw [pin, he]
  | begun =>
    have hc : c < e.connections.length := lt_of_inTransaction (c := c) (he ▸ rfl)
    have hpin : (e.pin c).connection c = .reading ⟨e.stamp, e.tables, []⟩ := by
      simp only [pin, he]
      exact connection_setConnection_self e _ hc
    rw [view, hpin, view, he]
    rfl

theorem Engine.findTable?_append {t : Table}
    (h : ∀ t' ∈ front, ¬ (t'.info.schema = t.info.schema ∧ t'.info.name = t.info.name)) (back : List Table) :
    findTable? (front ++ t :: back) t.info.schema t.info.name = some (front.length, t) := by
  rw [findTable?, List.zipIdx_append, List.find?_append, List.find?_eq_none.mpr, Option.none_or, List.zipIdx_cons,
    List.find?_cons_of_pos]
  · rw [Option.map_some, Nat.zero_add]
  · exact Bool.and_eq_true_iff.mpr ⟨beq_self_eq_true _, beq_self_eq_true _⟩
  · rintro ⟨t', i⟩ hmem hsame
    obtain ⟨hschema, hname⟩ := Bool.and_eq_true_iff.mp hsame
    exact h t' (List.fst_mem_of_mem_zipIdx hmem) ⟨beq_iff_eq.mp hschema, beq_iff_eq.mp hname⟩

namespace Database

/-- What the connection finds under the name: the table of that name in any letter case. -/
def Sees (d : Database) (c : Nat) (n : String) (t : Table) : Prop :=
  (d.engine.view c).find? (fun t => t.info.schema == d.schema && Text.sameLetters t.info.name n) = some t

theorem view_perform (d : Database) (c : Nat) {op : Operation} (hop : op.writes = false) :
    (d.perform c op).2.engine.view c = d.engine.view c := by
  cases op with
  | insert => cases hop
  | update => cases hop
  | probe => exact d.engine.view_pin c
  | describe => exact d.engine.view_pin c
  | select => exact d.engine.view_pin c
  | contains => exact d.engine.view_pin c
  | warn => rfl

theorem Sees.perform {d : Database} (h : d.Sees c n t) (op : Operation) (hop : op.writes = false) :
    (d.perform c op).2.Sees c n t := by
  rw [Sees, view_perform d c hop]
  exact h

theorem Sees.describe {d : Database} (h : d.Sees c n t) : (d.perform c (.describe n)).1 = .ok t.info := by
  change Engine.describe ((d.engine.pin c).view c) d.schema n = _
  rw [Engine.view_pin, Engine.describe, h]
  rfl

theorem Sees.findTable {d : Database} (h : d.Sees c n t) :
    ∃ i, Engine.findTable? (d.engine.view c) t.info.schema t.info.name = some (i, t) := by
  obtain ⟨hthis, front, back, heq, hfront⟩ := List.find?_eq_some_iff_append.mp h
  -- A table before it with exactly its name would have been found in its place.
  have hfirst : ∀ t' ∈ front, ¬ (t'.info.schema = t.info.schema ∧ t'.info.name = t.info.name) := by
    rintro t' ht' ⟨hschema, hname⟩
    have hnot := hfront t' ht'
    rw [hschema, hname, hthis] at hnot
    cases hnot
  rw [heq]
  exact ⟨front.length, Engine.findTable?_append hfirst back⟩

theorem Sees.select {d : Database} (h : d.Sees c n t) (s : Select Column) :
    (d.perform c (.select t.info s)).1 = s.run t.info t.records := by
  obtain ⟨i, hi⟩ := h.findTable
  change (d.engine.pin c).select c t.info s = _
  rw [Engine.select, Engine.view_pin, hi]

theorem work_perform {d : Database} {op : Operation} {answer : Except Fault op.Answer}
    (h : (d.perform c op).1 = answer) (next : Except Fault op.Answer → Work ε α) :
    d.work c (.perform op next) = (d.perform c op).2.work c (next answer) := by
  rw [work]
  rcases hp : d.perform c op with ⟨answer', d'⟩
  rw [hp] at h
  cases h
  rfl

theorem work_ask {d : Database} {op : Operation} {a : op.Answer} (h : (d.perform c op).1 = .ok a)
    (next : op.Answer → Work Fault α) : d.work c (Work.ask op >>= next) = (d.perform c op).2.work c (next a) :=
  work_perform h _

theorem Sees.work_describe {d : Database} (h : d.Sees c n t) :
    ∃ d' : Database, d'.Sees c n t ∧ ∀ {α : Type} (next : TableInfo → Work Fault α),
      d.work c (Work.describe n >>= next) = d'.work c (next t.info) :=
  ⟨_, h.perform (.describe n) rfl, fun next => work_ask h.describe next⟩

theorem Sees.work_select {d : Database} (h : d.Sees c n t) {s : Select String} (hs : s.resolve t.info = .ok s')
    (hrows : s'.run t.info t.records = .ok rows) :
    ∃ d' : Database, d'.Sees c n t ∧ ∀ {α : Type} (next : List Row → Work Fault α),
      d.work c (Work.select t.info s >>= next) = d'.work c (next rows) := by
  refine ⟨_, h.perform (.select t.info s') rfl, ?_⟩
  intro α next
  have hask := work_ask ((h.select s').trans hrows) next
  rw [← hask, Work.select, hs]
  rfl

theorem work_warned (d : Database) (c : Nat) (w : Warning) (p : Prop) [Decidable p] (a : α) :
    (d.work c (if p then Work.warn w >>= fun _ => pure a else pure a)).1 = .done a := by
  split <;> rfl

end Database

theorem Work.bind_pure (w : Work ε α) : w >>= pure = w := by
  change w.bind pure = w
  induction w with
  | finish outcome => cases outcome <;> rfl
  | perform op next ih =>
    rw [Work.bind]
    exact congrArg (Work.perform op) (funext ih)

namespace Select

theorem resolve_eq {t : TableInfo} {s : Select String} (hc : t.Shows s.columns cs)
    (hf : s.filters.mapM (resolveFilter t) = .ok fs) (ho : s.order.mapM (resolveOrder t) = .ok o) :
    ∃ columns, s.resolve t = .ok ⟨columns, fs, o, s.limit⟩ ∧ columns.getD t.columns = cs := by
  obtain ⟨columns, hcolumns, hcs⟩ := hc.resolve
  refine ⟨columns, ?_, hcs⟩
  rw [resolve, hcolumns, hf, ho]
  rfl

/-- The rows of an answer are the first of those that pass the filters, in order. -/
theorem run_eq {t : TableInfo} {s : Select Column} (hc : s.check t = .ok ())
    (hf : applyFilters t s.filters rs = .ok found) (ho : arrange t s.order found = .ok sorted) :
    s.run t rs = .ok ((Ranking.cut (s.limit.map (min · limitBound)) sorted).map (t.row (s.projection t))) := by
  by_cases hlimit : s.limit = some 0
  · rw [run, hc, hlimit]
    rfl
  · rw [run, hc, hf]
    change (if s.limit = some 0 then pure [] else (arrange t s.order found).bind _) = _
    rw [if_neg hlimit, ho]
    rfl

/-- The store finds the columns of an order, has nothing against it, and puts the rows into it. -/
def Arranges (t : TableInfo) (order : Option (RowOrder String)) (rs sorted : List Record) : Prop :=
  ∃ o, order.mapM (resolveOrder t) = .ok o ∧
    (∀ s : Select Column, s.order = o → s.projection t ≠ [] → s.check t = .ok ()) ∧ arrange t o rs = .ok sorted

theorem check_eq_ok {t : TableInfo} {s : Select Column} (hp : s.projection t ≠ [])
    (ho : ∀ function c vector, s.order = some (.distance function c vector) →
      (nativeMetric? function).isNone = false ∧ isVector c.type = true) : s.check t = .ok () := by
  rw [check, List.isEmpty_eq_false_iff.mpr hp, if_neg Bool.false_ne_true]
  cases h : s.order with
  | none => rfl
  | some o =>
    cases o with
    | column c direction => rfl
    | distance function c vector =>
      obtain ⟨hknown, hvector⟩ := ho function c vector h
      simp only [hknown, hvector, Bool.false_eq_true, if_false, if_true]

theorem arranges_none (t : TableInfo) (rs : List Record) : Arranges t none rs rs := by
  refine ⟨none, rfl, fun s hs hp => check_eq_ok hp ?_, rfl⟩
  rw [hs]
  nofun

theorem arranges_column {t : TableInfo} (hc : t.column n = .ok c) (direction : Direction) (rs : List Record) :
    Arranges t (some (.column n direction)) rs
      (rs.mergeSort fun a b => (t.cell c a).notAfter direction (t.cell c b)) := by
  refine ⟨some (.column c direction), ?_, fun s hs hp => check_eq_ok hp ?_, rfl⟩
  · rw [Option.mapM_some, resolveOrder, hc]
    rfl
  · rw [hs]
    nofun

/-- The store can measure the distance of each row: the column is one of vectors, the vector asked for is one of its
values, and no row lacks a number. -/
structure Measures (t : TableInfo) (c : Column) (vector : List Float) (rs : List Record) (wanted : Value) : Prop where
  column : isVector c.type = true
  cast : c.type.cast? (vectorText vector) = some wanted
  full : ∀ r ∈ rs, (t.cell c r).hasGap = false

theorem Measures.nearest {t : TableInfo} (h : Measures t c vector rs wanted) (function : String) (metric : Metric) :
    nearest t function metric c vector rs = .ok (rs.mergeSort fun a b =>
      (distance metric (t.cell c a) wanted).notAfter .ascending (distance metric (t.cell c b) wanted)) := by
  have hcast : c.type.cast (some (vectorText vector)) = .ok wanted := by
    rw [ColumnType.cast, h.cast]
  have hfull : (rs.any fun r => (t.cell c r).hasGap) = false := by
    rw [List.any_eq_false]
    intro r hr
    rw [h.full r hr]
    exact Bool.false_ne_true
  rw [Select.nearest, hcast, hfull]
  cases rs with
  | nil => rw [List.mergeSort_nil]; rfl
  | cons r rs => rfl

theorem Measures.arranges {t : TableInfo} (h : Measures t c vector rs wanted)
    (hk : nativeMetric? function = some metric) (hc : t.column n = .ok c) :
    Arranges t (some (.distance function n vector)) rs (rs.mergeSort fun a b =>
      (distance metric (t.cell c a) wanted).notAfter .ascending (distance metric (t.cell c b) wanted)) := by
  refine ⟨some (.distance function c vector), ?_, fun s hs hp => check_eq_ok hp ?_, ?_⟩
  · rw [Option.mapM_some, resolveOrder, hc]
    rfl
  · rw [hs]
    rintro _ _ _ ⟨⟩
    rw [hk]
    exact ⟨rfl, h.column⟩
  · rw [arrange, hk]
    exact h.nearest function metric

end Select

/-- What the store answers: the first of the rows that satisfy the predicates, in the order asked for. -/
theorem Database.Sees.work_rows {d : Database} (h : d.Sees c n t) {s : Select String}
    (hc : t.info.Shows s.columns cs) (hne : cs ≠ [])
    (hf : s.filters = ps.map fun p => ⟨p.column, p.op, some p.value⟩) (hp : ∀ p ∈ ps, p.Fits t.info)
    (ho : Select.Arranges t.info s.order (t.matching ps) sorted) :
    ∃ d' : Database, d'.Sees c n t ∧ ∀ {α : Type} (next : List Row → Work Fault α),
      d.work c (Work.select t.info s >>= next) =
        d'.work c (next ((Ranking.cut (s.limit.map (min · limitBound)) sorted).map (t.info.row cs))) := by
  obtain ⟨o, horder, hcheck, harrange⟩ := ho
  obtain ⟨fs, hfs, hasks⟩ := Predicate.resolve_filters hp
  rw [← hf] at hfs
  obtain ⟨columns, hs, rfl⟩ := Select.resolve_eq hc hfs horder
  have hfilters := Table.applyFilters_matching hasks hp
  have hrun := Select.run_eq (hcheck ⟨columns, fs, o, s.limit⟩ rfl hne) hfilters harrange
  exact h.work_select hs hrun

end QueryGateway.Store
