import QueryGateway.Proofs.Execution.Distances
import QueryGateway.Proofs.Execution.Meaning
import QueryGateway.Proofs.Execution.Outcomes

namespace QueryGateway
set_option autoImplicit true

open Store

namespace Store

theorem Select.distance_eq (metric : Metric) (a b : Value) : distance metric a b =
    (a.numbers?.bind fun x => b.numbers?.map (metric.totalDistance x)).elim .null .double := by
  unfold distance
  cases a.numbers? with
  | none => rfl
  | some x => cases b.numbers? <;> rfl

end Store

theorem mergeSort_congr {before before' : α → α → Bool} {l : List α}
    (h : ∀ a ∈ l, ∀ b ∈ l, before a b = before' a b) : l.mergeSort before = l.mergeSort before' := by
  have hsame := List.map_mergeSort (f := id) h
  rw [List.map_id, List.map_id] at hsame
  exact hsame

namespace Execution

/-- The store tells of each row the distance that is computed here, and null where there is none. For that it has the
function, the column is one of vectors, the vector asked for is one of its values, and no row lacks a number. -/
structure Measured (t : TableInfo) (c : Column) (v : VectorOrdering) (function : String) (rs : List Record) : Prop where
  column : Select.isVector c.type = true
  distances : ∃ metric, Select.nativeMetric? function = some metric ∧ (rs ≠ [] →
    ∃ wanted, c.type.cast? (vectorText v.vector) = some wanted ∧ ∀ r ∈ rs, (t.cell c r).hasGap = false ∧
      Select.distance metric (t.cell c r) wanted = (distance? t c v r).elim .null .double)

theorem notAfter_distances (t : TableInfo) (c : Column) (v : VectorOrdering) (a b : Record) :
    ((distance? t c v a).elim .null Value.double).notAfter .ascending ((distance? t c v b).elim .null .double) =
      Ranking.notAfter (distance? t c v a) (distance? t c v b) := by
  have hkey (r : Record) : ((distance? t c v r).elim .null Value.double).key? =
      (distance? t c v r).map fun x => [floatRank x] := by
    cases h : distance? t c v r with
    | none => rfl
    | some x =>
      obtain ⟨y, -, hx⟩ := Option.bind_eq_some_iff.mp h
      exact congrArg some (congrArg (fun n => [n]) (v.metric.floatKey_distance hx))
  rw [Value.notAfter, hkey, hkey]
  cases distance? t c v a with
  | none => cases distance? t c v b <;> rfl
  | some x =>
    cases distance? t c v b with
    | none => rfl
    | some y =>
      change (!decide ([floatRank y] < [floatRank x])) = decide (floatRank x ≤ floatRank y)
      rw [← decide_not]
      simp only [List.cons_lt_cons_iff, List.not_lt_nil, and_false, or_false, Int.not_lt]

theorem Measured.nearest {t : TableInfo} (h : Measured t c v function rs) :
    Select.arrange t (some (.distance function c v.vector)) rs = .ok (rs.mergeSort fun a b =>
      Ranking.notAfter (distance? t c v a) (distance? t c v b)) := by
  obtain ⟨metric, hmetric, hrows⟩ := h.distances
  rw [Select.arrange, hmetric]
  by_cases hnil : rs = []
  · rw [hnil, List.mergeSort_nil]
    rfl
  · obtain ⟨wanted, hcast, hall⟩ := hrows hnil
    have hmeasures : Select.Measures t c v.vector rs wanted := ⟨h.column, hcast, fun r hr => (hall r hr).1⟩
    refine (hmeasures.nearest function metric).trans (congrArg Except.ok (mergeSort_congr fun a ha b hb => ?_))
    rw [(hall a ha).2, (hall b hb).2]
    exact notAfter_distances t c v a b

theorem mem_fetched (h : n ∈ fetched ns key) : n ∈ ns ∨ n = key := by
  unfold fetched at h
  split at h
  · exact .inl h
  · exact (List.mem_append.mp h).imp_right List.mem_singleton.mp

theorem mem_fetched_of_mem (h : n ∈ ns) (key : String) : n ∈ fetched ns key := by
  unfold fetched
  split
  · exact h
  · exact List.mem_append_left _ h

theorem order_pushing (ho : r.ordering = some (.vector v)) (hn : v.native = some function) :
    (pushing r).order = some (.distance function v.column v.vector) := by
  rw [pushing, ho, Option.bind_some, storeOrder, hn]
  rfl

theorem order_resolved {t : TableInfo} (ho : r.ordering = some (.vector v)) (hn : v.native = some function)
    (hv : t.column v.column = .ok c) :
    (pushing r).order.mapM (Select.resolveOrder t) = .ok (some (.distance function c v.vector)) := by
  rw [order_pushing ho hn, Option.mapM_some, Select.resolveOrder, hv]
  rfl

/-- Both ways have the same columns to find: the one that decides the order is fetched, or the order asks for it. -/
theorem known_pushing_iff {t : TableInfo} {r : Request} (x : Execution) (ho : r.ordering = some (.vector v))
    (hn : v.native = some function) :
    (pushing r).Known t ↔ ∃ c, t.column v.column = .ok c ∧ (x.fetching r c).Known t := by
  constructor
  · intro h
    obtain ⟨o, hresolved⟩ := h.order _ (order_pushing ho hn)
    obtain ⟨c, hc, -⟩ := bind_ok hresolved
    refine ⟨c, hc, ?_, h.filters, nofun⟩
    intro ns hns n hmem
    obtain ⟨names, hnames, rfl⟩ := Option.map_eq_some_iff.mp hns
    rcases mem_fetched hmem with hmem | rfl
    · exact h.columns names hnames n hmem
    · exact ⟨c, TableInfo.column_self hc⟩
  · rintro ⟨c, hc, h⟩
    refine ⟨?_, h.filters, ?_⟩
    · intro ns hns n hmem
      exact h.columns _ (Option.map_eq_some_iff.mpr ⟨ns, hns, rfl⟩) n (mem_fetched_of_mem hmem c.name)
    · intro o ho'
      obtain rfl := Option.some.inj ((order_pushing ho hn).symm.trans ho')
      refine ⟨.distance function c v.vector, ?_⟩
      rw [Select.resolveOrder, hc]
      rfl

theorem ranking_fetched {t : TableInfo} {rs : List Record} (x : Execution) (hc : t.Shows r.columns cs)
    (hv : t.column v.column = .ok c) (hfew : rs.length ≤ min x.maxVectorCandidates limitBound) :
    x.ranking r v c ((rs.take (min (min (x.maxVectorCandidates + 1) largestCount) limitBound)).map
      (t.row (fetchedColumns r.columns cs c))) =
      (Ranking.cut r.limit (rs.mergeSort fun a b => Ranking.notAfter (distance? t c v a) (distance? t c v b))).map
        (t.row cs) := by
  rw [← shown_nearest hc hv, ranking, ← List.map_take, take_fetched, List.take_of_length_le hfew]
  cases isAuxiliary r.columns c.name with
  | true => rfl
  | false => exact (List.map_id _).symm

/-- The rows that satisfy the predicates can all be ranked, and the store can tell their distances. With a limit of zero
the store does not look at the values that the predicates compare with, so these have to be right. -/
structure Comparable (x : Execution) (t : Table) (r : Request) (v : VectorOrdering) (function : String) : Prop where
  few : (t.matching r.predicates).length ≤ min x.maxVectorCandidates limitBound
  looked : r.limit = some 0 → ∀ p ∈ r.predicates, p.Fits t.info
  measured : ∀ c, t.info.column v.column = .ok c → Measured t.info c v function (t.matching r.predicates)

/-- What is found in the catalog for a request: the columns that it shows, and the filters for its predicates. -/
structure Found (t : TableInfo) (r : Request) (cs : List Column) (fs : List (Store.Filter Column)) : Prop where
  shown : t.Shows r.columns cs
  nonempty : cs ≠ []
  resolved : (filters r).mapM (Select.resolveFilter t) = .ok fs

theorem exists_found {t : TableInfo} (h : (pushing r).Known t) (hv : t.column n = .ok c) (hne : r.columns ≠ some []) :
    ∃ cs fs, Found t r cs fs := by
  obtain ⟨cs, hcs⟩ := TableInfo.exists_shows h.columns
  have hcolumns : t.columns ≠ [] := by
    intro hnil
    rw [TableInfo.column, hnil] at hv
    exact nomatch hv
  obtain ⟨s, hs⟩ := Select.exists_resolve_iff.mpr h
  obtain ⟨_, _, hs⟩ := bind_ok hs
  obtain ⟨fs, hfs, -⟩ := bind_ok hs
  exact ⟨cs, fs, hcs, hcs.ne_nil hcolumns hne, hfs⟩

namespace Found

variable {t : Table}

theorem asks (h : Found t.info r cs fs) : List.Forall₂ (Predicate.Asks t.info) r.predicates fs :=
  Predicate.asks_of_resolve h.resolved

theorem answer_fetching (h : Found t.info r cs fs) (x : Execution) (hv : t.info.column n = .ok c) :
    t.answer (x.fetching r c) = (Select.applyFilters t.info fs t.records).map fun found =>
      (found.take (min (min (x.maxVectorCandidates + 1) largestCount) limitBound)).map
        (t.info.row (fetchedColumns r.columns cs c)) := by
  have hsome : min (x.maxVectorCandidates + 1) largestCount ≠ 0 := by
    have hpos : 0 < largestCount := by decide
    omega
  have hkeep : ∀ found, Select.applyFilters t.info fs t.records = .ok found →
      Select.arrange t.info none found = .ok (id found) := fun _ _ => rfl
  exact Table.answer_eq_map (fetched_shows h.shown hv) (fetchedColumns_ne_nil h.nonempty r.columns c) h.resolved rfl
    nofun (fun hzero => absurd (Option.some.inj hzero) hsome) hkeep

theorem answer_pushing (h : Found t.info r cs fs) {x : Execution} (hx : x.Comparable t r v function)
    (ho : r.ordering = some (.vector v)) (hn : v.native = some function) (hl : ∀ n ∈ r.limit, n ≤ limitBound)
    (hv : t.info.column v.column = .ok c) :
    t.answer (pushing r) = (Select.applyFilters t.info fs t.records).map fun found =>
      (Ranking.cut r.limit (found.mergeSort fun a b =>
        Ranking.notAfter (distance? t.info c v a) (distance? t.info c v b))).map (t.info.row cs) := by
  have hmeasured := hx.measured c hv
  rw [← map_min_limitBound hl]
  refine Table.answer_eq_map h.shown h.nonempty h.resolved (order_resolved ho hn hv) ?_ ?_ ?_
  · rintro _ _ _ ⟨⟩
    obtain ⟨metric, hmetric, -⟩ := hmeasured.distances
    rw [hmetric]
    exact ⟨rfl, hmeasured.column⟩
  · intro hzero
    exact ⟨_, Table.applyFilters_matching h.asks (hx.looked hzero)⟩
  · intro found hf
    rw [Predicate.applyFilters_passes h.asks hf]
    exact hmeasured.nearest

/-- The rows that are fetched and then ranked are those that the store answers. -/
theorem answers_agree (h : Found t.info r cs fs) {x : Execution} (hx : x.Comparable t r v function)
    (ho : r.ordering = some (.vector v)) (hn : v.native = some function) (hl : ∀ n ∈ r.limit, n ≤ limitBound)
    (hv : t.info.column v.column = .ok c) :
    (t.answer (x.fetching r c)).map (x.ranking r v c) = t.answer (pushing r) := by
  rw [h.answer_pushing hx ho hn hl hv, h.answer_fetching x hv]
  cases hf : Select.applyFilters t.info fs t.records with
  | error e => rfl
  | ok found =>
    obtain rfl := Predicate.applyFilters_passes h.asks hf
    exact congrArg Except.ok (ranking_fetched x h.shown hv hx.few)

theorem exists_answer (h : Found t.info r cs fs) (x : Execution) (hv : t.info.column n = .ok c)
    (hp : ∀ p ∈ r.predicates, p.Fits t.info) : ∃ rows, t.answer (x.fetching r c) = .ok rows := by
  rw [h.answer_fetching x hv, Table.applyFilters_matching h.asks hp]
  exact ⟨_, rfl⟩

theorem answer_unconvertible (h : Found t.info r cs fs) (ho : r.ordering = some (.vector v))
    (hn : v.native = some function) (hv : t.info.column v.column = .ok c) (hp : ∀ p ∈ r.predicates, p.Fits t.info)
    (hm : Select.nativeMetric? function = some metric) (hc : Select.isVector c.type = true)
    (hcast : c.type.cast? (vectorText v.vector) = none) (hrows : t.matching r.predicates ≠ [])
    (hl : r.limit ≠ some 0) :
    t.answer (pushing r) = .error (.engine (c.type.castMessage (vectorText v.vector))) := by
  obtain ⟨columns, hs, rfl⟩ := Select.resolve_eq h.shown h.resolved (order_resolved ho hn hv)
  have hcheck : Select.check t.info ⟨columns, fs, some (.distance function c v.vector), r.limit⟩ = .ok () := by
    refine Select.check_eq_ok h.nonempty ?_
    rintro _ _ _ ⟨⟩
    rw [hm]
    exact ⟨rfl, hc⟩
  rw [Table.answer, hs]
  refine Select.run_eq_error hcheck hl ?_
  rw [Table.applyFilters_matching h.asks hp]
  change Select.arrange t.info (some (.distance function c v.vector)) (t.matching r.predicates) = _
  rw [Select.arrange, hm]
  change Select.nearest t.info function metric c v.vector (t.matching r.predicates) = _
  rw [Select.nearest, if_neg (mt List.isEmpty_iff.mp hrows), ColumnType.cast, hcast]
  rfl

end Found

/-- How a request ends on a connection, the order by a vector left to the store or not. -/
def ending (x : Execution) (d : Database) (c : Nat) (native : Bool) (r : Request) : Outcome Fault (List Row) :=
  (d.work c ({ x with nativeVectorOrdering := native }.execute r)).1

variable {d : Database} {x : Execution}

theorem ending_native (hd : d.Sees c r.table t) (ho : r.ordering = some (.vector v)) (hn : v.native = some function) :
    x.ending d c true r = .ofExcept (t.answer (pushing r)) := by
  have hpushed : ∀ w, r.ordering = some (.vector w) →
      ∃ function, { x with nativeVectorOrdering := true }.pushed? w = some function := by
    intro w hw
    cases ho.symm.trans hw
    exact ⟨function, hn⟩
  rw [ending, (execute_pushed (t := t) hpushed).1]
  exact pushDown_outcome hd

theorem ending_ranked (hd : d.Sees c r.table t) (ho : r.ordering = some (.vector v)) :
    x.ending d c false r =
      .ofExcept (t.info.column v.column >>= fun c' => (t.answer (x.fetching r c')).map (x.ranking r v c')) := by
  rw [ending, (execute_ranked (x := { x with nativeVectorOrdering := false }) (t := t) ho rfl).1]
  exact ranked_outcome _ hd v

theorem ending_unknown_iff (ho : r.ordering = some (.vector v)) (hn : v.native = some function) :
    (x.ending d c false r).Unknown ↔ (x.ending d c true r).Unknown := by
  by_cases hd : ∃ t, d.Sees c r.table t
  · obtain ⟨t, hd⟩ := hd
    rw [ending_native hd ho hn, ending_ranked hd ho, Table.answer_unknown, known_pushing_iff x ho hn]
    cases hv : t.info.column v.column with
    | error f => exact iff_of_true ⟨f, rfl, TableInfo.column_error hv⟩ nofun
    | ok c' =>
      refine ((Outcome.unknown_map _ _).trans Table.answer_unknown).trans (not_congr ?_)
      simp only [Except.ok.injEq, exists_eq_left']
  · have hno := not_exists.mp hd
    exact iff_of_true ⟨_, execute_unseen hno _, rfl⟩ ⟨_, execute_unseen hno _, rfl⟩

/-- Whether the rows are ranked here or their order is left to the store, a request for an order by a vector ends in the
same way: it fails because the table or a column is unknown, or, where the store can tell the distances, with the same
rows in the same order. -/
theorem execute_agree (hp : Request.ofText s args table = .ok p) (ho : p.request.ordering = some (.vector v))
    (hn : v.native = some function) :
    ((x.ending d c false p.request).Unknown ↔ (x.ending d c true p.request).Unknown) ∧
      ∀ t, d.Sees c p.request.table t → x.Comparable t p.request v function →
        ¬ (x.ending d c true p.request).Unknown →
        x.ending d c false p.request = x.ending d c true p.request ∧
          ((∀ q ∈ p.request.predicates, q.Fits t.info) → ∃ rows, x.ending d c true p.request = .done rows) := by
  refine ⟨ending_unknown_iff ho hn, fun t hd h hknown => ?_⟩
  rw [ending_native hd ho hn, Table.answer_unknown, not_not] at hknown
  obtain ⟨c', hv, -⟩ := (known_pushing_iff x ho hn).mp hknown
  obtain ⟨cs, fs, hfound⟩ := exists_found hknown hv (columns_of_ofText hp)
  have hagree := hfound.answers_agree h ho hn (limit_of_ofText hp) hv
  rw [ending_native hd ho hn, ending_ranked hd ho, hv, ← hagree]
  refine ⟨rfl, fun hfits => ?_⟩
  obtain ⟨rows, hrows⟩ := hfound.exists_answer x hv hfits
  rw [hrows]
  exact ⟨_, rfl⟩

/-- The rows in the opposite order of the table, where the first of them has no vector. -/
theorem execute_agree_items :
    ∃ (t : Table) (p : Prepared),
      Request.ofText "SELECT id FROM t ORDER BY cosine_distance ( v , [ 1 , 0 ] )" [] .builtIn = .ok p ∧
      (∀ native, (⟨.builtIn, true, 3⟩ : Execution).ending (Database.ofTables none "main" [t]) 0 native p.request =
        .done [[("id", .int 3)], [("id", .int 2)], [("id", .int 1)]]) := by
  let c : Column := ⟨"v", .vector 2, false, false⟩
  let v : VectorOrdering := ⟨"v", .cosine, [1, 0], some "array_cosine_distance"⟩
  let a : Record := ⟨0, [.integer .regular 1, .null], 1⟩
  let b : Record := ⟨1, [.integer .regular 2, .array [.single 0, .single 1]], 2⟩
  let e : Record := ⟨2, [.integer .regular 3, .array [.single 1, .single 0]], 3⟩
  let t : Table := ⟨⟨"main", "t", [⟨"id", .integer .regular, false, false⟩, c]⟩, [a, b, e]⟩
  have hsees : (Database.ofTables none "main" [t]).Sees 0 "t" t := List.find?_cons_of_pos (by decide +kernel)
  have hcolumn : t.info.column v.column = .ok c := TableInfo.column_eq_ok_iff.mpr (by decide +kernel)
  have hall : t.matching nearestRequest.predicates = [a, b, e] := List.filter_eq_self.mpr fun _ _ => rfl
  have hmetric : Select.nativeMetric? "array_cosine_distance" = some .cosine := by decide +kernel
  have hwanted : (c.type.cast? (vectorText v.vector)).bind Value.numbers? = some [1, 0] := by decide +kernel
  have htold : ∀ r ∈ [a, b, e], (t.info.cell c r).hasGap = false ∧
      (t.info.cell c r).numbers?.map (Metric.cosine.totalDistance · [1, 0]) = distance? t.info c v r := by
    decide +kernel
  have hmeasured : Measured t.info c v "array_cosine_distance" [a, b, e] := by
    obtain ⟨wanted, hcast, hnumbers⟩ := Option.bind_eq_some_iff.mp hwanted
    refine ⟨rfl, .cosine, hmetric, fun _ => ⟨wanted, hcast, fun r hr => ⟨(htold r hr).1, ?_⟩⟩⟩
    rw [Select.distance_eq, hnumbers, ← (htold r hr).2]
    cases (t.info.cell c r).numbers? <;> rfl
  have hcomparable : (⟨.builtIn, true, 3⟩ : Execution).Comparable t nearestRequest v "array_cosine_distance" := by
    refine ⟨?_, nofun, ?_⟩
    · rw [hall]
      decide
    · intro c' hc'
      obtain rfl : c = c' := Except.ok.inj (hcolumn.symm.trans hc')
      rw [hall]
      exact hmeasured
  have hnearest : ([a, b, e].mergeSort fun r s =>
      Ranking.notAfter (distance? t.info c v r) (distance? t.info c v s)) = [e, b, a] := by
    have hab : Ranking.notAfter (distance? t.info c v a) (distance? t.info c v b) = false := by decide +kernel
    have hbe : Ranking.notAfter (distance? t.info c v b) (distance? t.info c v e) = false := by decide +kernel
    have hpair : ([a, b].mergeSort fun r s =>
        Ranking.notAfter (distance? t.info c v r) (distance? t.info c v s)) = [b, a] := by
      rw [List.mergeSort.eq_def]
      simp [hab]
    rw [List.mergeSort.eq_def]
    simp [hpair, hbe]
  have hranked : (⟨.builtIn, true, 3⟩ : Execution).ending (Database.ofTables none "main" [t]) 0 false nearestRequest =
      .done [[("id", .int 3)], [("id", .int 2)], [("id", .int 1)]] := by
    have hid : List.Forall₂ (fun n c => t.info.column n = .ok c) ["id"] [⟨"id", .integer .regular, false, false⟩] :=
      .cons (TableInfo.column_eq_ok_iff.mpr (by decide +kernel)) .nil
    have hanswer := ranked_answer ⟨.builtIn, false, 3⟩ (r := nearestRequest) hsees hid (List.cons_ne_nil _ _)
      (List.forall_mem_nil _) hcolumn
    rw [hall] at hanswer
    change _ = Outcome.done (([a, b, e].mergeSort fun r s =>
      Ranking.notAfter (distance? t.info c v r) (distance? t.info c v s)).map _) at hanswer
    rw [hnearest] at hanswer
    exact hanswer
  obtain ⟨hunknown, hagree⟩ :=
    execute_agree (d := Database.ofTables none "main" [t]) (x := ⟨.builtIn, true, 3⟩) (c := 0) ofText_nearest rfl rfl
  have hknown : ¬ ((⟨.builtIn, true, 3⟩ : Execution).ending (Database.ofTables none "main" [t]) 0 true
      nearestRequest).Unknown := by
    rw [← hunknown, hranked]
    nofun
  obtain ⟨hsame, -⟩ := hagree t hsees hcomparable hknown
  exact ⟨t, ⟨nearestRequest, []⟩, ofText_nearest, Bool.forall_bool.mpr ⟨hranked, hsame ▸ hranked⟩⟩

theorem execute_unconvertible (hp : Request.ofText s args table = .ok p) (ho : p.request.ordering = some (.vector v))
    (hn : v.native = some function) (hd : d.Sees c p.request.table t) (hknown : (pushing p.request).Known t.info)
    (hv : t.info.column v.column = .ok c') (hfits : ∀ q ∈ p.request.predicates, q.Fits t.info)
    (hm : Select.nativeMetric? function = some metric) (hc : Select.isVector c'.type = true)
    (hcast : c'.type.cast? (vectorText v.vector) = none) (hrows : t.matching p.request.predicates ≠ [])
    (hl : p.request.limit ≠ some 0) :
    (∃ rows, x.ending d c false p.request = .done rows) ∧
      x.ending d c true p.request = .failed (.engine (c'.type.castMessage (vectorText v.vector))) := by
  obtain ⟨cs, fs, hfound⟩ := exists_found hknown hv (columns_of_ofText hp)
  constructor
  · obtain ⟨rows, hanswer⟩ := hfound.exists_answer x hv hfits
    rw [ending_ranked hd ho, hv]
    refine ⟨x.ranking p.request v c' rows, ?_⟩
    change Outcome.ofExcept ((t.answer (x.fetching p.request c')).map _) = _
    rw [hanswer]
    rfl
  · rw [ending_native hd ho hn, hfound.answer_unconvertible ho hn hv hfits hm hc hcast hrows hl]
    rfl

/-- Nothing is unknown and there is room for all rows, but two numbers are no value of a column of three. -/
theorem execute_disagree :
    ∃ (t : Table) (p : Prepared) (rows : List Row),
      t.info.columns = [⟨"id", .integer .regular, false, false⟩, ⟨"v", .vector 3, false, false⟩] ∧
      Request.ofText "SELECT id FROM t ORDER BY cosine_distance ( v , [ 1 , 0 ] )" [] .builtIn = .ok p ∧
      (∃ v, p.request.ordering = some (.vector v) ∧ v.native = some "array_cosine_distance") ∧
      (Database.ofTables none "main" [t]).Sees 0 p.request.table t ∧
      (t.matching p.request.predicates).length = 1 ∧
      (⟨.builtIn, true, 1000⟩ : Execution).ending (Database.ofTables none "main" [t]) 0 false p.request = .done rows ∧
      (⟨.builtIn, true, 1000⟩ : Execution).ending (Database.ofTables none "main" [t]) 0 true p.request =
        .failed (.engine
          "Conversion Error: Type VARCHAR with value '[1, 0]' can't be cast to the destination type FLOAT[3]") := by
  let t : Table := ⟨⟨"main", "t", [⟨"id", .integer .regular, false, false⟩, ⟨"v", .vector 3, false, false⟩]⟩,
    [⟨0, [.integer .regular 1, .array [.single 1, .single 0, .single 0]], 1⟩]⟩
  have hsees : (Database.ofTables none "main" [t]).Sees 0 "t" t := List.find?_cons_of_pos (by decide +kernel)
  have hknown : (pushing nearestRequest).Known t.info := by
    refine ⟨?_, List.forall_mem_nil _, ?_⟩
    · rintro _ ⟨⟩ n hn
      rw [List.mem_singleton.mp hn]
      exact ⟨_, rfl⟩
    · rintro _ ⟨⟩
      exact ⟨_, rfl⟩
  have hcast : (ColumnType.vector 3).cast? (vectorText [1, 0]) = none :=
    Option.isNone_iff_eq_none.mp (by decide +kernel)
  have hmessage : (ColumnType.vector 3).castMessage (vectorText [1, 0]) =
      "Conversion Error: Type VARCHAR with value '[1, 0]' can't be cast to the destination type FLOAT[3]" := by
    decide +kernel
  have hone : (t.matching nearestRequest.predicates).length = 1 := by decide +kernel
  have hmetric : Select.nativeMetric? "array_cosine_distance" = some .cosine := by decide +kernel
  obtain ⟨⟨rows, hrows⟩, hrefused⟩ := execute_unconvertible (x := ⟨.builtIn, true, 1000⟩) ofText_nearest rfl rfl hsees
    hknown rfl (List.forall_mem_nil _) hmetric rfl hcast (List.ne_nil_of_length_pos (hone ▸ Nat.one_pos)) nofun
  rw [hmessage] at hrefused
  exact ⟨t, ⟨nearestRequest, []⟩, rows, rfl, ofText_nearest, ⟨_, rfl, rfl⟩, hsees, hone, hrows, hrefused⟩

end Execution

end QueryGateway
