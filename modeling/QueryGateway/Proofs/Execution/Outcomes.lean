import QueryGateway.Proofs.Execution.Answers

namespace QueryGateway
set_option autoImplicit true

open Store

namespace Store

theorem Fault.kind_engine_ne (text : String) : (engine text).kind ≠ .notFound := by
  have hclasses : ∀ p ∈ classes, p.1 ≠ .notFound := by decide
  change kindOfText text ≠ _
  unfold kindOfText
  split
  · next kind names h => exact hclasses _ (List.mem_of_find?_eq_some h)
  · exact nofun

namespace Outcome

def ofExcept : Except ε α → Outcome ε α
  | .ok a => .done a
  | .error e => .failed e

/-- Failed because a table or a column is unknown. -/
def Unknown (o : Outcome Fault α) : Prop :=
  ∃ f, o = .failed f ∧ f.kind = .notFound

theorem unknown_map (f : α → β) (r : Except Fault α) : (ofExcept (r.map f)).Unknown ↔ (ofExcept r).Unknown := by
  cases r with
  | ok a => exact iff_of_false nofun nofun
  | error e =>
    constructor
    · rintro ⟨f, hf, hk⟩
      cases hf
      exact ⟨e, rfl, hk⟩
    · rintro ⟨f, hf, hk⟩
      cases hf
      exact ⟨e, rfl, hk⟩

end Outcome

def Table.answer (t : Table) (s : Select String) : Except Fault (List Row) :=
  s.resolve t.info >>= fun s => s.run t.info t.records

theorem Select.run_eq_error {t : TableInfo} {s : Select Column} (hc : s.check t = .ok ()) (hl : s.limit ≠ some 0)
    (h : applyFilters t s.filters rs >>= arrange t s.order = .error e) : s.run t rs = .error e := by
  rw [run, hc]
  refine (if_neg hl).trans ?_
  obtain hf | ⟨found, hf, ho⟩ := bind_error h
  · rw [hf]
    rfl
  · rw [hf]
    change (arrange t s.order found >>= _) = _
    rw [ho]
    rfl

theorem Select.run_eq_map {t : TableInfo} {s : Select Column} {sort : List Record → List Record}
    (hc : s.check t = .ok ()) (hl : s.limit = some 0 → ∃ found, applyFilters t s.filters rs = .ok found)
    (ho : ∀ found, applyFilters t s.filters rs = .ok found → arrange t s.order found = .ok (sort found)) :
    s.run t rs = (applyFilters t s.filters rs).map fun found =>
      (Ranking.cut (s.limit.map (min · limitBound)) (sort found)).map (t.row (s.projection t)) := by
  cases hf : applyFilters t s.filters rs with
  | ok found => exact run_eq hc hf (ho found hf)
  | error e =>
    have hlimit : s.limit ≠ some 0 := by
      intro hzero
      obtain ⟨found, hfound⟩ := hl hzero
      exact nomatch hf.symm.trans hfound
    apply run_eq_error hc hlimit
    rw [hf]
    rfl

theorem Table.answer_eq_map {t : Table} {s : Select String} {sort : List Record → List Record}
    (hc : t.info.Shows s.columns cs) (hne : cs ≠ []) (hf : s.filters.mapM (Select.resolveFilter t.info) = .ok fs)
    (ho : s.order.mapM (Select.resolveOrder t.info) = .ok o)
    (hcheck : ∀ function c vector, o = some (.distance function c vector) →
      (Select.nativeMetric? function).isNone = false ∧ Select.isVector c.type = true)
    (hl : s.limit = some 0 → ∃ found, Select.applyFilters t.info fs t.records = .ok found)
    (hsort : ∀ found, Select.applyFilters t.info fs t.records = .ok found →
      Select.arrange t.info o found = .ok (sort found)) :
    t.answer s = (Select.applyFilters t.info fs t.records).map fun found =>
      (Ranking.cut (s.limit.map (min · limitBound)) (sort found)).map (t.info.row cs) := by
  obtain ⟨columns, hs, rfl⟩ := Select.resolve_eq hc hf ho
  rw [answer, hs]
  exact Select.run_eq_map (s := ⟨columns, fs, o, s.limit⟩) (Select.check_eq_ok hne hcheck) hl hsort

namespace Database

theorem work_ask_error {d : Database} {op : Operation} (h : (d.perform c op).1 = .error f)
    (next : op.Answer → Work Fault α) : (d.work c (Work.ask op >>= next)).1 = .failed f :=
  congrArg Prod.fst (work_perform h _)

/-- Work that asks one question and then only reckons ends as the answer says. -/
theorem Sees.select_outcome {d : Database} (h : d.Sees c n t) (s : Select String) {next : List Row → Work Fault α}
    {f : List Row → α} (hnext : ∀ (d' : Database) rows, (d'.work c (next rows)).1 = .done (f rows)) :
    (d.work c (Work.select t.info s >>= next)).1 = .ofExcept ((t.answer s).map f) := by
  rw [Table.answer]
  cases hs : s.resolve t.info with
  | error e =>
    rw [Work.select, hs]
    rfl
  | ok s' =>
    change _ = Outcome.ofExcept ((s'.run t.info t.records).map f)
    rw [Work.select, hs]
    change (d.work c (Work.ask (.select t.info s') >>= next)).1 = _
    cases hrun : s'.run t.info t.records with
    | error e => exact work_ask_error ((h.select s').trans hrun) next
    | ok rows =>
      rw [work_ask ((h.select s').trans hrun) next]
      exact hnext _ rows

theorem describe_unseen {d : Database} (h : ∀ t, ¬ d.Sees c n t) :
    (d.perform c (.describe n)).1 = .error (.noTable n) := by
  change Engine.describe ((d.engine.pin c).view c) d.schema n = _
  rw [Engine.view_pin, Engine.describe]
  split
  · next t ht => exact absurd ht (h t)
  · rfl

end Database

end Store

namespace Execution

/-- The question that leaves everything to the store. -/
def pushing (r : Request) : Select String :=
  ⟨r.columns, filters r, r.ordering.bind storeOrder, r.limit⟩

theorem pushDown_outcome {d : Database} (hd : d.Sees c r.table t) :
    (d.work c (pushDown r)).1 = .ofExcept (t.answer (pushing r)) := by
  obtain ⟨d', hd', hdescribe⟩ := hd.work_describe
  have hsame : (t.answer (pushing r)).map id = t.answer (pushing r) := by
    cases t.answer (pushing r) <;> rfl
  rw [pushDown, hdescribe, ← Work.bind_pure (Work.select _ _), ← hsame]
  exact hd'.select_outcome (pushing r) fun _ _ => rfl

/-- The question that fetches the rows to be ranked. -/
def fetching (x : Execution) (r : Request) (c : Column) : Select String :=
  ⟨r.columns.map (fetched · c.name), filters r, none, some (min (x.maxVectorCandidates + 1) largestCount)⟩

/-- What is made of the rows that are fetched. -/
def ranking (x : Execution) (r : Request) (v : VectorOrdering) (c : Column) (rows : List Row) : List Row :=
  let nearest := Ranking.nearestFirst c.name v.metric v.vector (rows.take x.maxVectorCandidates)
  let answer := Ranking.cut r.limit nearest
  if isAuxiliary r.columns c.name then answer.map (withoutColumn c.name) else answer

theorem ranked_outcome {d : Database} (x : Execution) (hd : d.Sees c r.table t) (v : VectorOrdering) :
    (d.work c (x.ranked r v)).1 =
      .ofExcept (t.info.column v.column >>= fun c' => (t.answer (x.fetching r c')).map (x.ranking r v c')) := by
  obtain ⟨d', hd', hdescribe⟩ := hd.work_describe
  rw [ranked, hdescribe]
  cases hv : t.info.column v.column with
  | error f => rfl
  | ok c' => exact hd'.select_outcome (x.fetching r c') fun d' rows => Database.work_warned d' c _ _ _

theorem execute_unseen {d : Database} (h : ∀ t, ¬ d.Sees c r.table t) (x : Execution) :
    (d.work c (x.execute r)).1 = .failed (.noTable r.table) := by
  have hno := Database.describe_unseen h
  unfold execute
  cases r.vectorOrdering? with
  | none => exact Database.work_ask_error hno _
  | some v =>
    change (d.work c (if _ then _ else _)).1 = _
    split <;> exact Database.work_ask_error hno _

end Execution

namespace Store

theorem TableInfo.column_error {t : TableInfo} (h : t.column n = .error f) : f.kind = .notFound := by
  unfold column at h
  split at h
  · exact nomatch h
  · cases h
    rfl

namespace Select

/-- The columns that a question names are there. -/
structure Known (t : TableInfo) (s : Select String) : Prop where
  columns : ∀ ns ∈ s.columns, ∀ n ∈ ns, ∃ c, t.column n = .ok c
  filters : ∀ f ∈ s.filters, ∃ c, t.column f.column = .ok c
  order : ∀ o ∈ s.order, ∃ o', resolveOrder t o = .ok o'

theorem resolveFilter_error {t : TableInfo} (h : resolveFilter t f = .error e) : e.kind = .notFound := by
  obtain hc | ⟨c, -, h⟩ := bind_error h
  · exact TableInfo.column_error hc
  · exact nomatch h

theorem resolveOrder_error {t : TableInfo} (h : resolveOrder t o = .error e) : e.kind = .notFound := by
  cases o with
  | column n direction =>
    obtain hc | ⟨c, -, h⟩ := bind_error h
    · exact TableInfo.column_error hc
    · exact nomatch h
  | distance function n vector =>
    obtain hc | ⟨c, -, h⟩ := bind_error h
    · exact TableInfo.column_error hc
    · exact nomatch h

theorem resolve_error {t : TableInfo} {s : Select String} (h : s.resolve t = .error e) : e.kind = .notFound := by
  obtain hc | ⟨columns, -, h⟩ := bind_error h
  · obtain ⟨names, -, hnames⟩ := optionMapM_error hc
    obtain ⟨n, -, hn⟩ := mapM_error hnames
    exact TableInfo.column_error hn
  obtain hf | ⟨fs, -, h⟩ := bind_error h
  · obtain ⟨f, -, hf⟩ := mapM_error hf
    exact resolveFilter_error hf
  obtain ho | ⟨o, -, h⟩ := bind_error h
  · obtain ⟨o, -, ho⟩ := optionMapM_error ho
    exact resolveOrder_error ho
  · exact nomatch h

theorem exists_resolve_iff {t : TableInfo} {s : Select String} : (∃ s', s.resolve t = .ok s') ↔ s.Known t := by
  constructor
  · rintro ⟨s', h⟩
    obtain ⟨columns, hc, h⟩ := bind_ok h
    obtain ⟨fs, hf, h⟩ := bind_ok h
    obtain ⟨o, ho, -⟩ := bind_ok h
    refine ⟨?_, ?_, ?_⟩
    · intro names hnames n hn
      rw [hnames] at hc
      obtain ⟨cs, hcs, -⟩ := bind_ok hc
      obtain ⟨c, -, hcol⟩ := exists_of_mem_left (mapM_ok_iff.mp hcs) hn
      exact ⟨c, hcol⟩
    · intro f hmem
      obtain ⟨f', -, hf'⟩ := exists_of_mem_left (mapM_ok_iff.mp hf) hmem
      obtain ⟨c, hcol, -⟩ := bind_ok hf'
      exact ⟨c, hcol⟩
    · intro o' ho'
      rw [ho'] at ho
      obtain ⟨o'', ho'', -⟩ := bind_ok ho
      exact ⟨o'', ho''⟩
  · intro h
    obtain ⟨cs, hcs⟩ := TableInfo.exists_shows h.columns
    have hfilters : ∀ f ∈ s.filters, ∃ f', resolveFilter t f = .ok f' := by
      intro f hf
      obtain ⟨c, hc⟩ := h.filters f hf
      refine ⟨⟨c, f.op, f.value⟩, ?_⟩
      rw [resolveFilter, hc]
      rfl
    obtain ⟨fs, hfs⟩ := exists_forall₂ hfilters
    have horder : ∃ o, s.order.mapM (resolveOrder t) = .ok o := by
      cases ho : s.order with
      | none => exact ⟨none, rfl⟩
      | some o =>
        obtain ⟨o', ho'⟩ := h.order o ho
        refine ⟨some o', ?_⟩
        rw [Option.mapM_some, ho']
        rfl
    obtain ⟨o, ho⟩ := horder
    obtain ⟨columns, hs, -⟩ := resolve_eq hcs (mapM_ok_iff.mpr hfs) ho
    exact ⟨_, hs⟩

theorem check_error {t : TableInfo} {s : Select Column} (h : s.check t = .error e) : e.kind ≠ .notFound := by
  unfold check at h
  split at h
  · cases h
    exact Fault.kind_engine_ne _
  · split at h
    · split at h
      · cases h
        exact Fault.kind_engine_ne _
      · split at h
        · exact nomatch h
        · cases h
          exact Fault.kind_engine_ne _
    · exact nomatch h

theorem cast_error {type : ColumnType} (h : type.cast text = .error e) : e.kind ≠ .notFound := by
  unfold ColumnType.cast at h
  split at h
  · exact nomatch h
  · split at h
    · exact nomatch h
    · cases h
      exact Fault.kind_engine_ne _

theorem apply_error {t : TableInfo} {f : Store.Filter Column} (h : f.apply t rs = .error e) : e.kind ≠ .notFound := by
  unfold Filter.apply at h
  split at h
  · exact nomatch h
  · exact nomatch h
  · exact nomatch h
  · exact nomatch h
  · split at h
    · exact nomatch h
    · obtain hc | ⟨v, -, h⟩ := bind_error h
      · exact cast_error hc
      · exact nomatch h

theorem applyFilters_error {t : TableInfo} (h : applyFilters t fs rs = .error e) : e.kind ≠ .notFound := by
  induction fs generalizing rs with
  | nil => exact nomatch h
  | cons f fs ih =>
    obtain hf | ⟨found, -, h⟩ := bind_error h
    · exact apply_error hf
    · exact ih h

theorem arrange_error {t : TableInfo} (h : arrange t o rs = .error e) : e.kind ≠ .notFound := by
  unfold arrange at h
  split at h
  · exact nomatch h
  · exact nomatch h
  · split at h
    · unfold nearest at h
      split at h
      · exact nomatch h
      · obtain hc | ⟨wanted, -, h⟩ := bind_error h
        · exact cast_error hc
        · split at h
          · cases h
            exact Fault.kind_engine_ne _
          · exact nomatch h
    · exact nomatch h

theorem run_error {t : TableInfo} {s : Select Column} (h : s.run t rs = .error e) : e.kind ≠ .notFound := by
  obtain hc | ⟨_, -, h⟩ := bind_error h
  · exact check_error hc
  split at h
  · exact nomatch h
  obtain hf | ⟨found, -, h⟩ := bind_error h
  · exact applyFilters_error hf
  obtain ho | ⟨sorted, -, h⟩ := bind_error h
  · exact arrange_error ho
  · exact nomatch h

end Select

/-- A question fails because a column is unknown exactly if one of its columns is. -/
theorem Table.answer_unknown {t : Table} {s : Select String} :
    (Outcome.ofExcept (t.answer s)).Unknown ↔ ¬ s.Known t.info := by
  rw [← Select.exists_resolve_iff]
  unfold answer
  cases hs : s.resolve t.info with
  | error e =>
    have hnone : ¬ ∃ q, (.error e : Except Fault (Select Column)) = .ok q := fun ⟨_, h⟩ => nomatch h
    exact iff_of_true ⟨e, rfl, Select.resolve_error hs⟩ hnone
  | ok s' =>
    refine iff_of_false ?_ (not_not_intro ⟨s', rfl⟩)
    rintro ⟨f, hf, hk⟩
    change Outcome.ofExcept (s'.run t.info t.records) = _ at hf
    cases hrun : s'.run t.info t.records with
    | ok rows =>
      rw [hrun] at hf
      exact nomatch hf
    | error e =>
      rw [hrun] at hf
      cases hf
      exact Select.run_error hrun hk

end Store

end QueryGateway
