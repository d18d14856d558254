import QueryGateway.Proofs.Json.Text
import QueryGateway.Request.OfQuery
import QueryGateway.Request.Reader
import QueryGateway.Request.Basic

namespace QueryGateway
set_option autoImplicit true

namespace Request.Reader

def present (given : List (String × Option Json)) : List (String × Json) :=
  given.flatMap fun f => f.2.toList.map (f.1, ·)

theorem mem_present : m ∈ present given ↔ (m.1, some m.2) ∈ given := by
  unfold present
  simp only [List.mem_flatMap, List.mem_map, Option.mem_toList]
  constructor
  · rintro ⟨⟨name, v⟩, hf, w, hw, rfl⟩
    cases hw
    exact hf
  · intro hf
    exact ⟨(m.1, some m.2), hf, m.2, rfl, rfl⟩

theorem present_sublist (given : List (String × Option Json)) :
    ((present given).map Prod.fst).Sublist (given.map Prod.fst) := by
  induction given with
  | nil => exact .refl _
  | cons f given ih =>
    obtain ⟨name, v⟩ := f
    cases v with
    | none => exact ih.cons _
    | some v => exact ih.cons_cons _

theorem lookup_absent (hn : name ∉ given.map Prod.fst) : (present given).lookup name = none := by
  apply List.lookup_eq_none_iff.mpr
  intro m hm
  apply bne_iff_ne.mpr
  rintro rfl
  exact hn ((present_sublist given).subset (List.mem_map_of_mem hm))

theorem lookup_present {given : List (String × Option Json)} (hn : (given.map Prod.fst).Nodup) (hf : f ∈ given) :
    (present given).lookup f.1 = f.2 := by
  induction given with
  | nil => cases hf
  | cons g given ih =>
    obtain ⟨name, v⟩ := g
    obtain ⟨hname, hrest⟩ := List.nodup_cons.mp hn
    rcases List.mem_cons.mp hf with rfl | hmem
    · cases v with
      | none => exact (lookup_absent hname : (present given).lookup name = none)
      | some v => exact List.lookup_cons_self
    · have hne : (f.1 == name) = false := by
        apply beq_false_of_ne
        intro heq
        have hin : f.1 ∈ given.map Prod.fst := List.mem_map_of_mem hmem
        exact hname (heq ▸ hin)
      cases v with
      | none => exact ih hrest hmem
      | some v =>
        change ((name, v) :: present given).lookup f.1 = f.2
        rw [List.lookup_cons, hne]
        exact ih hrest hmem

theorem fields?_present (given : List (String × Option Json)) (hn : (given.map Prod.fst).Nodup) :
    fields? (given.map Prod.fst) (.object (present given)) = some (given.map Prod.snd) := by
  have honce : ((given.map Prod.fst).any fun n => 1 < (present given).countP (·.1 == n)) = false := by
    apply List.any_eq_false.mpr
    intro n _
    have hcount := List.nodup_iff_count_le_one.mp ((present_sublist given).nodup hn) n
    rw [List.count_eq_countP, List.countP_map] at hcount
    exact fun h => Nat.not_lt.mpr hcount (of_decide_eq_true h)
  simp only [fields?, honce, Bool.false_eq_true, if_false, List.map_map]
  congr 1
  apply List.map_congr_left
  intro f hf
  exact lookup_present hn hf

theorem mapM_map {read : β → Option α} {f : α → β} {as : List α} (h : ∀ a ∈ as, read (f a) = some a) :
    (as.map f).mapM read = some as := by
  induction as with
  | nil => rfl
  | cons a as ih =>
    rw [List.map_cons, List.mapM_cons, h a List.mem_cons_self, ih fun a hm => h a (List.mem_cons_of_mem _ hm)]
    rfl

theorem list?_map {read : Json → Option α} {f : α → Json} {as : List α} (h : ∀ a ∈ as, read (f a) = some a) :
    list? read (.array (as.map f)) = some as :=
  mapM_map h

theorem predicate?_toJson (p : Predicate) : predicate? p.toJson = some p := by
  have hfields : fields? ["column", "op", "value"] p.toJson =
      some [some (.string p.column), some (.string p.op.name), some (.string p.value)] := by
    have hnodup : ["column", "op", "value"].Nodup := by decide
    exact fields?_present [("column", some (.string p.column)), ("op", some (.string p.op.name)),
      ("value", some (.string p.value))] hnodup
  simp only [predicate?, hfields, Option.bind_eq_bind, Option.bind_some, choice?, Comparison.ofName?_name,
    Json.string?]
  rfl

theorem tagged?_present (kind : String) (given : List (String × Option Json)) (ht : "type" ∉ given.map Prod.fst) :
    tagged? (.object (("type", .string kind) :: present given)) = some (kind, .object (present given)) := by
  have hnot : ∀ m ∈ present given, (m.1 == "type") = false := by
    intro m hm
    apply beq_false_of_ne
    rintro heq
    rw [← heq] at ht
    exact ht ((present_sublist given).subset (List.mem_map_of_mem hm))
  have hkind : (("type", Json.string kind) :: present given).filter (·.1 == "type") = [("type", .string kind)] := by
    rw [List.filter_cons_of_pos rfl, List.filter_eq_nil_iff.mpr]
    intro m hm
    rw [hnot m hm]
    exact Bool.false_ne_true
  have hrest : (("type", Json.string kind) :: present given).filter (·.1 != "type") = present given := by
    change (present given).filter (·.1 != "type") = present given
    apply List.filter_eq_self.mpr
    intro m hm
    rw [bne, hnot m hm]
    rfl
  simp only [tagged?, hkind, hrest]

theorem vector?_map (xs : List Float) : (Json.array (xs.map .float)).vector? = some xs :=
  mapM_map fun _ _ => rfl

theorem columnOrdering?_present (name : String) (direction : Direction) :
    columnOrdering?
        (.object (present [("column", some (.string name)), ("direction", some (.string direction.name))])) =
      some (.column name direction) := by
  have hnodup : ["column", "direction"].Nodup := by decide
  have hfields : fields? ["column", "direction"] _ = _ := fields?_present
    [("column", some (.string name)), ("direction", some (.string direction.name))] hnodup
  simp only [columnOrdering?, hfields, List.map_cons, List.map_nil, Option.bind_eq_bind, Option.bind_some, orElse,
    choice?, Direction.ofName?_name, Json.string?]
  rfl

theorem vectorOrdering?_present (v : VectorOrdering) :
    vectorOrdering? (.object (present [("column", some (.string v.column)), ("metric", some (.string v.metric.name)),
      ("vector", some (.array (v.vector.map .float))), ("native_function", v.native.map .string)])) =
      some (.vector v) := by
  have hnodup : ["column", "metric", "vector", "native_function"].Nodup := by decide
  have hfields : fields? ["column", "metric", "vector", "native_function"] _ = _ := fields?_present
    [("column", some (.string v.column)), ("metric", some (.string v.metric.name)),
      ("vector", some (.array (v.vector.map .float))), ("native_function", v.native.map .string)] hnodup
  have hnative : optional Json.string? (v.native.map .string) = some v.native := by
    cases v.native <;> rfl
  simp only [vectorOrdering?, hfields, List.map_cons, List.map_nil, Option.bind_eq_bind, Option.bind_some, choice?,
    Metric.ofName?_name, Json.string?, vector?_map, hnative]
  rfl

theorem ordering?_toJson (o : Ordering) : ordering? o.toJson = some o := by
  cases o with
  | column name direction =>
    have hjson : (Ordering.column name direction).toJson = .object (("type", .string "Column") ::
        present [("column", some (.string name)), ("direction", some (.string direction.name))]) := rfl
    have htag := tagged?_present "Column"
      [("column", some (.string name)), ("direction", some (.string direction.name))] (by simp)
    rw [hjson, ordering?, htag]
    exact columnOrdering?_present name direction
  | vector v =>
    have hjson : (Ordering.vector v).toJson = .object (("type", .string "Vector") ::
        present [("column", some (.string v.column)), ("metric", some (.string v.metric.name)),
          ("vector", some (.array (v.vector.map .float))), ("native_function", v.native.map .string)]) := by
      obtain ⟨column, metric, vector, native⟩ := v
      cases native <;> rfl
    have htag := tagged?_present "Vector" [("column", some (.string v.column)),
      ("metric", some (.string v.metric.name)), ("vector", some (.array (v.vector.map .float))),
      ("native_function", v.native.map .string)] (by simp)
    rw [hjson, ordering?, htag]
    exact vectorOrdering?_present v

def parts (r : Request) : List (String × Option Json) :=
  [("table", some (.string r.table)), ("columns", r.columns.map fun names => .array (names.map .string)),
    ("predicates", if r.predicates.isEmpty then none else some (.array (r.predicates.map Predicate.toJson))),
    ("ordering", r.ordering.map Ordering.toJson), ("limit", r.limit.map fun n : Nat => .int n)]

theorem toJson_eq (r : Request) : r.toJson = .object (present (parts r)) := by
  obtain ⟨table, columns, predicates, ordering, limit⟩ := r
  cases columns <;> cases predicates <;> cases ordering <;> cases limit <;> rfl

theorem optional_map {read : Json → Option α} {f : α → Json} (hf : ∀ a, read (f a) = some a)
    (hn : ∀ a, f a ≠ .null) (o : Option α) : optional read (o.map f) = some o := by
  cases o with
  | none => rfl
  | some a =>
    change optional read (some (f a)) = some (some a)
    unfold optional
    split
    · next heq => cases heq
    · next heq => exact absurd (Option.some.inj heq) (hn a)
    · next heq =>
      rw [← Option.some.inj heq, hf a]
      rfl

theorem limit?_int (n : Nat) : limit? (.int n) = some n := by
  rw [limit?, if_pos (Int.natCast_nonneg n), Int.toNat_natCast]

theorem request?_toJson (r : Request) : request? r.toJson = some r := by
  have hnodup : ["table", "columns", "predicates", "ordering", "limit"].Nodup := by decide
  have hfields : fields? ["table", "columns", "predicates", "ordering", "limit"] r.toJson =
      some ((parts r).map Prod.snd) := by
    rw [toJson_eq]
    exact fields?_present (parts r) hnodup
  have hnames (names : List String) : list? Json.string? (.array (names.map .string)) = some names :=
    list?_map fun _ _ => rfl
  have hcolumns : optional (list? Json.string?) (r.columns.map fun names => .array (names.map .string)) =
      some r.columns :=
    optional_map hnames nofun r.columns
  have hpredicates : orElse [] (list? predicate?)
      (if r.predicates.isEmpty then none else some (.array (r.predicates.map Predicate.toJson))) =
        some r.predicates := by
    by_cases hempty : r.predicates.isEmpty = true
    · rw [if_pos hempty, List.isEmpty_iff.mp hempty]
      rfl
    · rw [if_neg hempty]
      exact list?_map fun p _ => predicate?_toJson p
  have hordering : optional ordering? (r.ordering.map Ordering.toJson) = some r.ordering :=
    optional_map ordering?_toJson (fun o => by cases o <;> nofun) r.ordering
  have hlimit : optional limit? (r.limit.map fun n : Nat => .int n) = some r.limit :=
    optional_map limit?_int nofun r.limit
  simp only [request?, hfields, parts, List.map_cons, List.map_nil, Option.bind_eq_bind, Option.bind_some,
    Json.string?, hcolumns, hpredicates, hordering, hlimit]
  rfl

end Request.Reader

end QueryGateway
