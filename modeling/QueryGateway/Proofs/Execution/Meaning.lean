import QueryGateway.Proofs.Execution.Answers
import QueryGateway.Proofs.Request.Translation
import QueryGateway.Proofs.Sql.Language

namespace QueryGateway
set_option autoImplicit true

open Store

/-- The store has every function that the table takes for one of the store. -/
def FunctionTable.Known (t : FunctionTable) : Prop :=
  ∀ f ∈ t.entries, ∀ function ∈ f.native, ∃ metric, Select.nativeMetric? function = some metric

theorem FunctionTable.builtIn_known : builtIn.Known := by
  simp only [Known, builtIn, List.forall_mem_cons]
  refine ⟨?_, ?_, List.forall_mem_nil _⟩
  · rintro _ ⟨⟩
    exact ⟨.cosine, by decide +kernel⟩
  · rintro _ ⟨⟩
    exact ⟨.cosine, by decide +kernel⟩

namespace Execution

/-- The store's own function that brings the rows into the order of a vector, if that is left to the store. -/
def pushed? (x : Execution) (v : VectorOrdering) : Option String :=
  if x.nativeVectorOrdering then v.native else none

/-- The rows from which the answer is chosen: those that satisfy the predicates; where they are ranked here, only as
many of them as may be ranked and as the store can count. -/
def candidates (x : Execution) (t : Table) (r : Request) : List Record :=
  match r.vectorOrdering?.map x.pushed? with
  | some none => (t.matching r.predicates).take (min x.maxVectorCandidates limitBound)
  | _ => t.matching r.predicates

/-- The distance of a row to the vector asked for; none if its column holds no vector that compares with that. -/
def distance? (t : TableInfo) (c : Column) (v : VectorOrdering) (r : Record) : Option Float :=
  (t.cell c r).toJson.vector?.bind (v.metric.distance · v.vector)

/-- A row may stand before another one in the order asked for: that of a column, where null is last, or nearest first,
where rows without a distance are last. -/
def MayPrecede (x : Execution) (t : TableInfo) : Option Ordering → Record → Record → Prop
  | none, _, _ => True
  | some (.column n direction), a, b => ∃ c, t.column n = .ok c ∧
    NoneLast direction.Le (t.cell c a).key? (t.cell c b).key?
  | some (.vector v), a, b => ∃ c, t.column v.column = .ok c ∧
    match x.pushed? v with
    | none => NoneLast FloatLe (distance? t c v a) (distance? t c v b)
    | some function => ∃ metric wanted, Select.nativeMetric? function = some metric ∧
      c.type.cast? (vectorText v.vector) = some wanted ∧
      NoneLast Direction.ascending.Le (Select.distance metric (t.cell c a) wanted).key?
        (Select.distance metric (t.cell c b) wanted).key?

/-- The request can be answered from the table: its columns are there, and its values are values of their types. -/
structure Answerable (x : Execution) (t : TableInfo) (r : Request) : Prop where
  columns : t.columns ≠ []
  shown : ∀ ns ∈ r.columns, ∀ n ∈ ns, ∃ c, t.column n = .ok c
  predicates : ∀ p ∈ r.predicates, p.Fits t
  column : ∀ n direction, r.ordering = some (.column n direction) → ∃ c, t.column n = .ok c
  vector : ∀ v, r.ordering = some (.vector v) → ∃ c, t.column v.column = .ok c ∧
    (x.pushed? v ≠ none → ∃ wanted, c.type.cast? (vectorText v.vector) = some wanted)

/-- Where the order is left to the store, it can measure the distances: the column is one of vectors, and no number is
missing in those of the rows that satisfy the predicates. -/
def Measurable (x : Execution) (t : Table) (r : Request) : Prop :=
  ∀ v c, r.ordering = some (.vector v) → x.pushed? v ≠ none → t.info.column v.column = .ok c →
    Select.isVector c.type = true ∧ ∀ a ∈ t.matching r.predicates, (t.info.cell c a).hasGap = false

/-- A request for some columns, with a limit that the store can count to and with no function that it lacks. -/
structure Sound (r : Request) : Prop where
  columns : r.columns ≠ some []
  limit : ∀ n ∈ r.limit, n ≤ limitBound
  native : ∀ v, r.ordering = some (.vector v) → ∀ function ∈ v.native,
    ∃ metric, Select.nativeMetric? function = some metric

theorem columns_of_ofText (h : Request.ofText s args table = .ok p) : p.request.columns ≠ some [] := by
  obtain ⟨q, hq, hyields⟩ := Request.exists_yields h
  intro hnil
  have hcolumns := hyields.columns
  have hsome := (Sql.Query.parse_eq_ok_iff.mp hq).1.columns
  cases hprojection : q.projection with
  | all =>
    rw [hprojection, hnil] at hcolumns
    cases hcolumns
  | columns ns =>
    rw [hprojection, hnil] at hcolumns
    cases hcolumns
    exact hsome hprojection

theorem limit_of_ofText (h : Request.ofText s args table = .ok p) : ∀ n ∈ p.request.limit, n ≤ limitBound := by
  obtain ⟨q, -, hyields⟩ := Request.exists_yields h
  intro n hn
  exact Nat.le_sub_one_of_lt (hyields.limit_lt hn)

theorem sound_of_ofText (h : Request.ofText s args table = .ok p) (hk : table.Known) : Sound p.request := by
  refine ⟨columns_of_ofText h, limit_of_ofText h, ?_⟩
  intro v ho function hfunction
  obtain ⟨q, -, hyields⟩ := Request.exists_yields h
  obtain ⟨f, hf, -, hnative, -⟩ := hyields.vector ho
  rw [hnative] at hfunction
  exact hk f hf function hfunction

theorem map_min_limitBound {limit : Option Nat} (h : ∀ n ∈ limit, n ≤ limitBound) :
    limit.map (min · limitBound) = limit := by
  cases limit with
  | none => rfl
  | some n => exact congrArg some (Nat.min_eq_left (h n rfl))

theorem pushDown_answer {d : Database} (hd : d.Sees c r.table t) (hc : t.info.Shows r.columns cs) (hne : cs ≠ [])
    (hp : ∀ p ∈ r.predicates, p.Fits t.info) (hl : ∀ n ∈ r.limit, n ≤ limitBound)
    (ho : Select.Arranges t.info (r.ordering.bind storeOrder) (t.matching r.predicates) sorted) :
    (d.work c (pushDown r)).1 = .done ((Ranking.cut r.limit sorted).map (t.info.row cs)) := by
  obtain ⟨d₁, hd₁, hdescribe⟩ := hd.work_describe
  obtain ⟨d₂, -, hselect⟩ := hd₁.work_rows
    (s := ⟨r.columns, filters r, r.ordering.bind storeOrder, r.limit⟩) hc hne rfl hp ho
  rw [pushDown, hdescribe, ← Work.bind_pure (Work.select _ _), hselect, map_min_limitBound hl]
  rfl

theorem take_fetched (cap : Nat) (l : List α) :
    (l.take (min (min (cap + 1) largestCount) limitBound)).take cap = l.take (min cap limitBound) := by
  -- Counting one row more than may be ranked stops at the largest count, which the store cannot count to.
  have h : limitBound ≤ largestCount := by decide
  rw [List.take_take]
  congr 1
  omega

theorem distance?_fetched {t : TableInfo} (h : t.Shows names cs) (hv : t.column n = .ok c) (v : VectorOrdering)
    (r : Record) :
    Ranking.distance? c.name v.metric v.vector (t.row (fetchedColumns names cs c) r) = distance? t c v r := by
  rw [Ranking.distance?, lookup_fetched h hv]
  rfl

/-- Ranking what is fetched and taking out what is not to be shown comes to ranking the rows that are shown. -/
theorem shown_nearest {t : TableInfo} (h : t.Shows names cs) (hv : t.column n = .ok c) (v : VectorOrdering)
    (limit : Option Nat) (rs : List Record) :
    (Ranking.cut limit (Ranking.nearestFirst c.name v.metric v.vector
      (rs.map (t.row (fetchedColumns names cs c))))).map
        (if isAuxiliary names c.name then withoutColumn c.name else id) =
    (Ranking.cut limit (rs.mergeSort fun a b =>
      Ranking.notAfter (distance? t c v a) (distance? t c v b))).map (t.row cs) := by
  rw [Ranking.nearestFirst_map fun r _ => distance?_fetched h hv v r, ← Ranking.map_cut, List.map_map]
  exact List.map_congr_left fun r _ => shown_row h c r

/-- Rows that are ranked here are answered nearest first. -/
theorem ranked_answer {d : Database} (x : Execution) (hd : d.Sees c r.table t) (hc : t.info.Shows r.columns cs)
    (hne : cs ≠ []) (hp : ∀ p ∈ r.predicates, p.Fits t.info) (hv : t.info.column v.column = .ok c') :
    (d.work c (x.ranked r v)).1 = .done ((Ranking.cut r.limit
      (((t.matching r.predicates).take (min x.maxVectorCandidates limitBound)).mergeSort fun a b =>
        Ranking.notAfter (distance? t.info c' v a) (distance? t.info c' v b))).map (t.info.row cs)) := by
  have hfetched := fetched_shows hc hv
  have hfetchedne := fetchedColumns_ne_nil hne r.columns c'
  obtain ⟨d₁, hd₁, hdescribe⟩ := hd.work_describe
  obtain ⟨d₂, hd₂, hselect⟩ := hd₁.work_rows (s := ⟨r.columns.map (fetched · c'.name), filters r, none,
    some (min (x.maxVectorCandidates + 1) largestCount)⟩) hfetched hfetchedne rfl hp (Select.arranges_none t.info _)
  rw [ranked, hdescribe, hv]
  change (d₁.work c (Work.select t.info _ >>= _)).1 = _
  rw [hselect]
  refine (Database.work_warned d₂ c _ _ _).trans (congrArg Outcome.done ?_)
  rw [← shown_nearest hc hv, ← take_fetched, List.map_take]
  cases isAuxiliary r.columns c'.name with
  | true => rfl
  | false => exact (List.map_id _).symm

theorem ordered_column {t : TableInfo} (x : Execution) (hc : t.column n = .ok c) (direction : Direction)
    (rs : List Record) : (rs.mergeSort fun a b => (t.cell c a).notAfter direction (t.cell c b)).Pairwise
      (x.MayPrecede t (some (.column n direction))) :=
  (Value.pairwise_mergeSort (t.cell c) direction rs).imp fun hab => ⟨c, hc, hab⟩

theorem ordered_ranked {t : TableInfo} {x : Execution} (hc : t.column v.column = .ok c) (hx : x.pushed? v = none)
    (rs : List Record) : (rs.mergeSort fun a b => Ranking.notAfter (distance? t c v a) (distance? t c v b)).Pairwise
      (x.MayPrecede t (some (.vector v))) := by
  apply (Ranking.pairwise_mergeSort (distance? t c v) rs).imp
  intro a b hab
  refine ⟨c, hc, ?_⟩
  rw [hx]
  exact hab

theorem ordered_measured {t : TableInfo} {x : Execution} (hc : t.column v.column = .ok c)
    (hx : x.pushed? v = some function) (hk : Select.nativeMetric? function = some metric)
    (hm : Select.Measures t c v.vector rs wanted) :
    (rs.mergeSort fun a b => (Select.distance metric (t.cell c a) wanted).notAfter .ascending
      (Select.distance metric (t.cell c b) wanted)).Pairwise (x.MayPrecede t (some (.vector v))) := by
  apply (Value.pairwise_mergeSort (fun r => Select.distance metric (t.cell c r) wanted) .ascending rs).imp
  intro a b hab
  refine ⟨c, hc, ?_⟩
  rw [hx]
  exact ⟨metric, wanted, hk, hm.cast, hab⟩

theorem native_of_pushed {x : Execution} (h : x.pushed? v = some function) :
    x.nativeVectorOrdering = true ∧ v.native = some function := by
  unfold pushed? at h
  split at h
  · next hx => exact ⟨hx, h⟩
  · cases h

/-- What is left to the store can be brought into order there. -/
theorem Answerable.arranges {x : Execution} (h : x.Answerable t.info r) (hm : x.Measurable t r) (hr : Sound r)
    (hx : ∀ v, r.ordering = some (.vector v) → ∃ function, x.pushed? v = some function) :
    ∃ sorted, Select.Arranges t.info (r.ordering.bind storeOrder) (t.matching r.predicates) sorted ∧
      sorted.Perm (t.matching r.predicates) ∧ sorted.Pairwise (x.MayPrecede t.info r.ordering) := by
  cases ho : r.ordering with
  | none =>
    have hany (rs : List Record) : rs.Pairwise (x.MayPrecede t.info none) :=
      List.Pairwise.imp (fun _ => trivial) (List.pairwise_of_forall fun _ _ => trivial)
    exact ⟨_, Select.arranges_none t.info _, .refl _, hany _⟩
  | some o =>
    cases o with
    | column n direction =>
      obtain ⟨c, hc⟩ := h.column n direction ho
      exact ⟨_, Select.arranges_column hc direction _, List.mergeSort_perm _ _, ordered_column x hc direction _⟩
    | vector v =>
      obtain ⟨c, hc, hcast⟩ := h.vector v ho
      obtain ⟨function, hfunction⟩ := hx v ho
      have hpushed : x.pushed? v ≠ none := hfunction ▸ Option.some_ne_none function
      obtain ⟨wanted, hwanted⟩ := hcast hpushed
      obtain ⟨hvector, hfull⟩ := hm v c ho hpushed hc
      have hmeasures : Select.Measures t.info c v.vector (t.matching r.predicates) wanted :=
        ⟨hvector, hwanted, hfull⟩
      have hnative := (native_of_pushed hfunction).2
      obtain ⟨metric, hk⟩ := hr.native v ho function hnative
      have horder : storeOrder (.vector v) = some (.distance function v.column v.vector) := by
        rw [storeOrder, hnative]
        rfl
      rw [Option.bind_some, horder]
      exact ⟨_, hmeasures.arranges hk hc, List.mergeSort_perm _ _, ordered_measured hc hfunction hk hmeasures⟩

theorem execute_pushed {x : Execution}
    (h : ∀ v, r.ordering = some (.vector v) → ∃ function, x.pushed? v = some function) :
    x.execute r = pushDown r ∧ x.candidates t r = t.matching r.predicates := by
  unfold execute candidates
  cases hv : r.vectorOrdering? with
  | none => exact ⟨rfl, rfl⟩
  | some v =>
    obtain ⟨function, hfunction⟩ := h v (Request.vectorOrdering?_eq_some_iff.mp hv)
    obtain ⟨hx, hnative⟩ := native_of_pushed hfunction
    simp only [hx, hnative, Option.map_some, hfunction, Option.isSome_some, Bool.and_self, if_true, and_self]

theorem execute_ranked {x : Execution} (ho : r.ordering = some (.vector v)) (h : x.pushed? v = none) :
    x.execute r = x.ranked r v ∧
      x.candidates t r = (t.matching r.predicates).take (min x.maxVectorCandidates limitBound) := by
  have hnot : (x.nativeVectorOrdering && v.native.isSome) = false := by
    unfold pushed? at h
    cases hx : x.nativeVectorOrdering with
    | false => rfl
    | true =>
      rw [hx, if_pos rfl] at h
      rw [h]
      rfl
  have hv := Request.vectorOrdering?_eq_some_iff.mpr ho
  constructor
  · simp only [execute, hv, hnot, Bool.false_eq_true, if_false]
  · simp only [candidates, hv, Option.map_some, h]

/-- The answer to a request that is asked for in a text: the best of the candidates in the order asked for, each shown
with the columns asked for and no others. -/
theorem execute_meaning {x : Execution} {d : Database} (hp : Request.ofText s args table = .ok p) (hk : table.Known)
    (hd : d.Sees c p.request.table t) (h : x.Answerable t.info p.request) (hm : x.Measurable t p.request) :
    ∃ cs chosen, t.info.Shows p.request.columns cs ∧
      Chosen (x.MayPrecede t.info p.request.ordering) p.request.limit (x.candidates t p.request) chosen ∧
      (d.work c (x.execute p.request)).1 = .done (chosen.map (t.info.row cs)) ∧
      ∀ r, (t.info.row cs r).map Prod.fst = cs.eraseDups.map Column.name := by
  have hsound := sound_of_ofText hp hk
  obtain ⟨cs, hcs⟩ := TableInfo.exists_shows h.shown
  have hne := hcs.ne_nil h.columns hsound.columns
  -- An order by a column, or none, is always left to the store.
  by_cases hx : ∀ v, p.request.ordering = some (.vector v) → ∃ function, x.pushed? v = some function
  · obtain ⟨sorted, harranges, hperm, hsorted⟩ := h.arranges hm hsound hx
    obtain ⟨hexecute, hcandidates⟩ := execute_pushed (t := t) hx
    refine ⟨cs, Ranking.cut p.request.limit sorted, hcs, ?_, ?_, TableInfo.row_keys t.info cs⟩
    · rw [hcandidates]
      exact .of_sorted hperm hsorted _
    · rw [hexecute]
      exact pushDown_answer hd hcs hne h.predicates hsound.limit harranges
  · simp only [not_forall, not_exists] at hx
    obtain ⟨v, ho, hnone⟩ := hx
    have hx := Option.eq_none_iff_forall_ne_some.mpr hnone
    obtain ⟨c', hc', -⟩ := h.vector v ho
    obtain ⟨hexecute, hcandidates⟩ := execute_ranked (t := t) ho hx
    have hranked := ranked_answer x hd hcs hne h.predicates hc'
    rw [← hexecute] at hranked
    refine ⟨cs, _, hcs, ?_, hranked, TableInfo.row_keys t.info cs⟩
    rw [hcandidates, ho]
    exact .of_sorted (List.mergeSort_perm _ _) (ordered_ranked hc' hx _) _

theorem resolves_nearest : Request.OfQuery.Resolves .builtIn (.distance "cosine_distance" "v" ["1", "0"] .ascending)
    (.vector ⟨"v", .cosine, [1, 0], some "array_cosine_distance"⟩) := by
  have hfinds : FunctionTable.builtIn.Finds "cosine_distance"
      ⟨"cosine_distance", .cosine, some "array_cosine_distance"⟩ :=
    FunctionTable.lookup?_eq_some_iff.mp (by decide +kernel)
  have hone : Request.OfQuery.IsElement "1" 1 := ⟨⟨false, ['1'], [], 0⟩, by decide +kernel⟩
  have hzero : Request.OfQuery.IsElement "0" 0 := ⟨⟨false, ['0'], [], 0⟩, by decide +kernel⟩
  exact .distance "v" hfinds (List.cons_ne_nil _ _) (.cons hone (.cons hzero .nil))

theorem elements_nearest : ∀ e ∈ ["1", "0"], e.toList ≠ [] ∧ ∀ c ∈ e.toList, Sql.isElementChar c = true := by
  have hall : ∀ e ∈ ["1", "0"], e.toList ≠ [] ∧ e.toList.all Sql.isElementChar = true := by decide +kernel
  intro e he
  exact ⟨(hall e he).1, List.all_eq_true.mp (hall e he).2⟩

/-- The nearest of the two rows of three that are large enough. -/
theorem execute_meaning_items :
    ∃ (t : Table) (p : Prepared) (cs : List Column) (chosen : List Record), t.records.length = 3 ∧
      Request.ofText "SELECT id FROM items WHERE size >= ? ORDER BY cosine_distance ( v , [ 1 , 0 ] ) LIMIT 1" ["2"]
        .builtIn = .ok p ∧
      (t.matching p.request.predicates).length = 2 ∧ chosen.length = 1 ∧
      ((Database.ofTables none "main" [t]).work 0 ((⟨.builtIn, true, 0⟩ : Execution).execute p.request)).1 =
        .done (chosen.map (t.info.row cs)) := by
  let info : TableInfo := ⟨"main", "items", [⟨"id", .integer .regular, false, false⟩,
    ⟨"size", .integer .regular, false, false⟩, ⟨"v", .vector 2, false, false⟩]⟩
  let t : Table := ⟨info,
    [⟨0, [.integer .regular 1, .integer .regular 1, .array [.single 1, .single 0]], 1⟩,
      ⟨1, [.integer .regular 2, .integer .regular 2, .array [.single 0, .single 1]], 2⟩,
      ⟨2, [.integer .regular 3, .integer .regular 3, .array [.single 1, .single 1]], 3⟩]⟩
  let q : Sql.Query := ⟨.columns ["id"], "items", [⟨"size", .ge, .placeholder⟩],
    some (.distance "cosine_distance" "v" ["1", "0"] .ascending), some ⟨some "1"⟩⟩
  let r : Request := ⟨"items", some ["id"], [⟨"size", .ge, "2"⟩],
    some (.vector ⟨"v", .cosine, [1, 0], some "array_cosine_distance"⟩), some 1⟩
  have hq : q.IsProper Sql.refusedWords := by
    refine ⟨by decide +kernel, nofun, by simp [q], ?_, ?_⟩
    · rintro _ ⟨⟩
      exact elements_nearest
    · rintro _ ⟨⟩ _ ⟨⟩
      exact ⟨by decide, List.all_eq_true.mp (by decide +kernel)⟩
  have htext : q.text =
      "SELECT id FROM items WHERE size >= ? ORDER BY cosine_distance ( v , [ 1 , 0 ] ) LIMIT 1" := by decide +kernel
  have hrequest : q.toRequest ["2"] .builtIn = .ok ⟨r, []⟩ := by
    rw [Sql.Query.toRequest_eq rfl, Option.mapM_some, Request.OfQuery.ordering_of_resolves resolves_nearest]
    rfl
  have htranslated := (Request.ofText_of_parse hq.parse_text ["2"] .builtIn).trans hrequest
  have hanswerable : (⟨.builtIn, true, 0⟩ : Execution).Answerable info r := by
    refine ⟨nofun, ?_, ?_, nofun, ?_⟩
    · rintro _ ⟨⟩ n hn
      rw [List.mem_singleton.mp hn]
      exact ⟨_, rfl⟩
    · intro p hp
      rw [List.mem_singleton.mp hp]
      exact ⟨_, rfl, fun _ => Option.isSome_iff_exists.mp (by decide +kernel)⟩
    · rintro v ⟨⟩
      exact ⟨_, rfl, fun _ => Option.isSome_iff_exists.mp (by decide +kernel)⟩
  have hmeasurable : (⟨.builtIn, true, 0⟩ : Execution).Measurable t r := by
    rintro v c ⟨⟩ - hc
    cases hc
    have hfull : ∀ a ∈ t.records, (info.cell ⟨"v", .vector 2, false, false⟩ a).hasGap = false := by decide +kernel
    exact ⟨rfl, fun a ha => hfull a (Table.mem_matching.mp ha).1⟩
  have hsees : (Database.ofTables none "main" [t]).Sees 0 "items" t := List.find?_cons_of_pos (by decide +kernel)
  obtain ⟨cs, chosen, -, hchosen, hdone, -⟩ :=
    execute_meaning htranslated FunctionTable.builtIn_known hsees hanswerable hmeasurable
  have htwo : (t.matching r.predicates).length = 2 := by decide +kernel
  refine ⟨t, ⟨r, []⟩, cs, chosen, rfl, htext ▸ htranslated, htwo, ?_, hdone⟩
  have hcandidates : (⟨.builtIn, true, 0⟩ : Execution).candidates t r = t.matching r.predicates := rfl
  have hcount := hchosen.count
  rw [hcandidates, htwo] at hcount
  exact hcount

def nearestRequest : Request :=
  ⟨"t", some ["id"], [], some (.vector ⟨"v", .cosine, [1, 0], some "array_cosine_distance"⟩), none⟩

theorem ofText_nearest : Request.ofText "SELECT id FROM t ORDER BY cosine_distance ( v , [ 1 , 0 ] )" [] .builtIn =
    .ok ⟨nearestRequest, []⟩ := by
  let q : Sql.Query := ⟨.columns ["id"], "t", [], some (.distance "cosine_distance" "v" ["1", "0"] .ascending), none⟩
  have hq : q.IsProper Sql.refusedWords := by
    refine ⟨by decide +kernel, nofun, nofun, ?_, nofun⟩
    rintro _ ⟨⟩
    exact elements_nearest
  have htext : q.text = "SELECT id FROM t ORDER BY cosine_distance ( v , [ 1 , 0 ] )" := by decide +kernel
  have hrequest : q.toRequest [] .builtIn = .ok ⟨nearestRequest, []⟩ := by
    rw [Sql.Query.toRequest_eq rfl, Option.mapM_some, Request.OfQuery.ordering_of_resolves resolves_nearest]
    rfl
  rw [← htext]
  exact (Request.ofText_of_parse hq.parse_text [] .builtIn).trans hrequest

/-- A vector can be read as a text, but texts have no distances: the store refuses what could be ranked here. -/
theorem execute_text_column :
    ∃ (t : Table) (p : Prepared),
      t.info.columns = [⟨"id", .integer .regular, false, false⟩, ⟨"v", .text, false, false⟩] ∧
      Request.ofText "SELECT id FROM t ORDER BY cosine_distance ( v , [ 1 , 0 ] )" [] .builtIn = .ok p ∧
      (Database.ofTables none "main" [t]).Sees 0 p.request.table t ∧
      (⟨.builtIn, true, 1000⟩ : Execution).Answerable t.info p.request ∧
      ((Database.ofTables none "main" [t]).work 0 ((⟨.builtIn, true, 1000⟩ : Execution).execute p.request)).1 =
        .failed
          (.engine "Binder Error: No function matches the given name and argument types 'array_cosine_distance'") := by
  let t : Table := ⟨⟨"main", "t", [⟨"id", .integer .regular, false, false⟩, ⟨"v", .text, false, false⟩]⟩,
    [⟨0, [.integer .regular 1, .text "x"], 1⟩]⟩
  have hsees : (Database.ofTables none "main" [t]).Sees 0 "t" t := List.find?_cons_of_pos (by decide +kernel)
  have hrefused : ((Database.ofTables none "main" [t]).work 0
      ((⟨.builtIn, true, 1000⟩ : Execution).execute nearestRequest)).1 =
      .failed
        (.engine "Binder Error: No function matches the given name and argument types 'array_cosine_distance'") := by
    dsimp only [t, nearestRequest]
    rfl
  refine ⟨t, ⟨nearestRequest, []⟩, rfl, ofText_nearest, hsees, ⟨nofun, ?_, nofun, nofun, ?_⟩, hrefused⟩
  · rintro _ ⟨⟩ n hn
    rw [List.mem_singleton.mp hn]
    exact ⟨_, rfl⟩
  · rintro v ⟨⟩
    exact ⟨_, rfl, fun _ => ⟨_, rfl⟩⟩

end Execution

end QueryGateway
