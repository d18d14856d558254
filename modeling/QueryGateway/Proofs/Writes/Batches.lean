import QueryGateway.Proofs.Store.Guards

namespace QueryGateway.Batch
set_option autoImplicit true

/-- Lists of `n` values each. -/
def Rectangular (n : Nat) (object : List (String × Json)) : Prop :=
  ∀ m ∈ object, ∃ values, m.2 = .array values ∧ values.length = n

/-- What is wrong with the first member that does not go with those before it. -/
inductive Flawed : List (String × Json) → BatchError → Prop where
  | noColumns : Flawed [] .noColumns
  | notAList (hbefore : Rectangular n before) (hv : ∀ values, v ≠ .array values) (after : List (String × Json)) :
      Flawed (before ++ (name, v) :: after) (.notAList name)
  | ragged (hbefore : Rectangular n (first :: before)) (hvalues : values.length ≠ n) (after : List (String × Json)) :
      Flawed (first :: before ++ (name, .array values) :: after) (.ragged name n values.length)

/-- The object that a batch is made from. -/
def source (b : Batch) : List (String × Json) :=
  b.columns.map fun c => (c.1, .array c.2)

theorem rectangular_cons : Rectangular n (m :: object) ↔
    (∃ values, m.2 = .array values ∧ values.length = n) ∧ Rectangular n object :=
  List.forall_mem_cons

theorem exists_of_rectangular (h : Rectangular n (m :: object)) :
    ∃ name values, m = (name, .array values) ∧ values.length = n ∧ Rectangular n object := by
  obtain ⟨⟨values, hm, hlength⟩, hrest⟩ := rectangular_cons.mp h
  exact ⟨m.1, values, Prod.ext rfl hm, hlength, hrest⟩

theorem rectangular_or_first (n : Nat) (object : List (String × Json)) : Rectangular n object ∨
    ∃ before name v after, object = before ++ (name, v) :: after ∧ Rectangular n before ∧
      ∀ values, v = .array values → values.length ≠ n := by
  induction object with
  | nil => exact .inl (List.forall_mem_nil _)
  | cons m object ih =>
    by_cases hm : ∃ values, m.2 = .array values ∧ values.length = n
    · obtain hrest | ⟨before, name, v, after, rfl, hbefore, hv⟩ := ih
      · exact .inl (rectangular_cons.mpr ⟨hm, hrest⟩)
      · exact .inr ⟨m :: before, name, v, after, rfl, rectangular_cons.mpr ⟨hm, hbefore⟩, hv⟩
    · refine .inr ⟨[], m.1, m.2, object, rfl, List.forall_mem_nil _, ?_⟩
      exact fun values hv hlength => hm ⟨values, hv, hlength⟩

theorem columnsOf_rectangular (h : Rectangular n object) :
    ∃ cs, columnsOf n object = .ok cs ∧ (cs.1.map fun c => (c.1, Json.array c.2)) = object := by
  induction object with
  | nil => exact ⟨_, rfl, rfl⟩
  | cons m object ih =>
    obtain ⟨name, values, rfl, hlength, hrest⟩ := exists_of_rectangular h
    obtain ⟨cs, hcs, hsource⟩ := ih hrest
    refine ⟨⟨(name, values) :: cs.1, ?_⟩, ?_, congrArg (_ :: ·) hsource⟩
    · exact List.forall_mem_cons.mpr ⟨hlength, cs.2⟩
    · rw [columnsOf, dif_pos hlength, hcs]
      rfl

theorem columnsOf_append_error (hbefore : Rectangular n before) (h : columnsOf n rest = .error e) :
    columnsOf n (before ++ rest) = .error e := by
  induction before with
  | nil => exact h
  | cons m before ih =>
    obtain ⟨name, values, rfl, hlength, hmore⟩ := exists_of_rectangular hbefore
    rw [List.cons_append, columnsOf, dif_pos hlength, ih hmore]
    rfl

theorem columnsOf_notAList (hv : ∀ values, v ≠ .array values) (n : Nat) (after : List (String × Json)) :
    columnsOf n ((name, v) :: after) = .error (.notAList name) := by
  cases v with
  | array values => exact absurd rfl (hv values)
  | _ => rfl

theorem ofMembers_array (name : String) (values : List Json) (h : columnsOf values.length object = .error e) :
    ofMembers ((name, .array values) :: object) = .error e := by
  rw [ofMembers, h]
  rfl

theorem ofMembers_rectangular (hne : object ≠ []) (h : Rectangular n object) :
    ∃ b, ofMembers object = .ok b ∧ b.source = object ∧ b.rowCount = n := by
  cases object with
  | nil => exact absurd rfl hne
  | cons m object =>
    obtain ⟨name, values, rfl, rfl, hrest⟩ := exists_of_rectangular h
    obtain ⟨cs, hcs, hsource⟩ := columnsOf_rectangular hrest
    refine ⟨⟨(name, values) :: cs.1, values.length, ?_⟩, ?_, congrArg (_ :: ·) hsource, rfl⟩
    · exact List.forall_mem_cons.mpr ⟨rfl, cs.2⟩
    · rw [ofMembers, hcs]
      rfl

theorem Flawed.ofMembers (h : Flawed object e) : ofMembers object = .error e := by
  cases h with
  | noColumns => rfl
  | @notAList n before v name hbefore hv after =>
    cases before with
    | nil =>
      cases v with
      | array values => exact absurd rfl (hv values)
      | _ => rfl
    | cons m before =>
      obtain ⟨first, values, rfl, rfl, hmore⟩ := exists_of_rectangular hbefore
      exact ofMembers_array first values (columnsOf_append_error hmore (columnsOf_notAList hv _ after))
  | @ragged n m before values name hbefore hvalues after =>
    obtain ⟨first, values', rfl, rfl, hmore⟩ := exists_of_rectangular hbefore
    refine ofMembers_array first values' (columnsOf_append_error hmore ?_)
    rw [columnsOf, dif_neg hvalues]

/-- Every object is a batch or has a flaw. -/
theorem rectangular_or_flawed (object : List (String × Json)) :
    (object ≠ [] ∧ ∃ n, Rectangular n object) ∨ ∃ e, Flawed object e := by
  cases object with
  | nil => exact .inr ⟨_, .noColumns⟩
  | cons m object =>
    obtain ⟨name, v⟩ := m
    by_cases hv : ∃ values, v = .array values
    · obtain ⟨values, rfl⟩ := hv
      have hfirst : ∃ values', Json.array values = .array values' ∧ values'.length = values.length := ⟨values, rfl, rfl⟩
      obtain hrest | ⟨before, name', v', after, rfl, hbefore, hv'⟩ := rectangular_or_first values.length object
      · exact .inl ⟨List.cons_ne_nil _ _, values.length, rectangular_cons.mpr ⟨hfirst, hrest⟩⟩
      · have hall : Rectangular values.length ((name, .array values) :: before) :=
          rectangular_cons.mpr ⟨hfirst, hbefore⟩
        right
        by_cases hlist : ∃ values', v' = .array values'
        · obtain ⟨values', rfl⟩ := hlist
          exact ⟨_, .ragged hall (hv' values' rfl) after⟩
        · exact ⟨_, .notAList hall (not_exists.mp hlist) after⟩
    · exact .inr ⟨_, .notAList (n := 0) (List.forall_mem_nil _) (not_exists.mp hv) object⟩

theorem ofMembers_error_iff : ofMembers object = .error e ↔ Flawed object e := by
  constructor
  · intro h
    obtain ⟨hne, n, hn⟩ | ⟨e', he'⟩ := rectangular_or_flawed object
    · obtain ⟨b, hb, -⟩ := ofMembers_rectangular hne hn
      exact nomatch hb.symm.trans h
    · cases he'.ofMembers.symm.trans h
      exact he'
  · exact Flawed.ofMembers

theorem ofMembers_ok (h : ofMembers object = .ok b) :
    object ≠ [] ∧ Rectangular b.rowCount object ∧ b.source = object := by
  obtain ⟨hne, n, hn⟩ | ⟨e, he⟩ := rectangular_or_flawed object
  · obtain ⟨b', hb', hsource, rfl⟩ := ofMembers_rectangular hne hn
    cases Except.ok.inj (hb'.symm.trans h)
    exact ⟨hne, hn, hsource⟩
  · exact nomatch he.ofMembers.symm.trans h

variable {b : Batch}

/-- The columns, taken off the rows one after another. -/
def collect : List String → List (List (String × Json)) → List (String × Json)
  | [], _ => []
  | name :: names, rows =>
    (name, .array (rows.filterMap fun row => row.head?.map (·.2))) :: collect names (rows.map List.tail)

/-- The batch is the table that the object describes. -/
structure Tabulates (b : Batch) (object : List (String × Json)) : Prop where
  rectangular : Rectangular b.rowCount object
  names : b.columnNames = object.map Prod.fst
  /-- Every row has each column once, in the order of the object, with the value in its place. -/
  row : ∀ i < b.rowCount,
    List.Forall₂ (fun m e => e.1 = m.1 ∧ ∃ values, m.2 = .array values ∧ values[i]? = some e.2) object (b.row i)
  value : ∀ c i, b.value? c i = if i < b.rowCount then (b.row i).lookup c else none
  present : ∀ c i, (b.value? c i).isSome = true ↔ c ∈ b.columnNames ∧ i < b.rowCount
  hasColumn : ∀ c, b.hasColumn c = true ↔ c ∈ b.columnNames
  keys : ∀ ks, b.requireKeys ks = .ok () ↔ ∀ k ∈ ks, k ∈ b.columnNames
  missing : ∀ ks e, b.requireKeys ks = .error e ↔ ∃ before k after, ks = before ++ k :: after ∧
    (∀ k' ∈ before, k' ∈ b.columnNames) ∧ k ∉ b.columnNames ∧ e = .missingKey k
  collected : collect b.columnNames b.rows = object

theorem hasColumn_iff : b.hasColumn c = true ↔ c ∈ b.columnNames := by
  rw [Batch.hasColumn, columnNames, List.any_eq_true, List.mem_map]
  simp only [beq_iff_eq]

theorem requireKeys_ok_iff : b.requireKeys ks = .ok () ↔ ∀ k ∈ ks, k ∈ b.columnNames := by
  unfold requireKeys
  split
  · next k hk =>
    refine iff_of_false nofun fun h => ?_
    have hnot := List.find?_some hk
    rw [hasColumn_iff.mpr (h k (List.mem_of_find?_eq_some hk))] at hnot
    exact nomatch hnot
  · next hnone =>
    refine iff_of_true rfl fun k hk => hasColumn_iff.mp ?_
    simpa using List.find?_eq_none.mp hnone k hk

theorem requireKeys_error_iff : b.requireKeys ks = .error e ↔ ∃ before k after, ks = before ++ k :: after ∧
    (∀ k' ∈ before, k' ∈ b.columnNames) ∧ k ∉ b.columnNames ∧ e = .missingKey k := by
  have hfind : ∀ k, ks.find? (!b.hasColumn ·) = some k ↔ k ∉ b.columnNames ∧
      ∃ before after, ks = before ++ k :: after ∧ ∀ k' ∈ before, k' ∈ b.columnNames := by
    intro k
    simp only [List.find?_eq_some_iff_append, Bool.not_eq_true', Bool.not_not, ← hasColumn_iff, Bool.not_eq_true]
  unfold requireKeys
  constructor
  · intro h
    split at h
    · next k hk =>
      obtain ⟨hnot, before, after, heq, hbefore⟩ := (hfind k).mp hk
      exact ⟨before, k, after, heq, hbefore, hnot, (Except.error.inj h).symm⟩
    · exact nomatch h
  · rintro ⟨before, k, after, heq, hbefore, hnot, rfl⟩
    rw [(hfind k).mpr ⟨hnot, before, after, heq, hbefore⟩]

def rowOf (cs : List (String × List Json)) (i : Nat) : List (String × Json) :=
  cs.filterMap fun (name, values) => values[i]?.map (name, ·)

theorem exists_rowOf_cons (name : String) (cs : List (String × List Json)) (h : i < values.length) :
    ∃ v, values[i]? = some v ∧ rowOf ((name, values) :: cs) i = (name, v) :: rowOf cs i :=
  ⟨values[i], List.getElem?_eq_getElem h, Store.Binding.row_cons values cs name h⟩

theorem forall₂_rowOf {cs : List (String × List Json)} (h : ∀ c ∈ cs, i < c.2.length) :
    List.Forall₂ (fun c e => e.1 = c.1 ∧ c.2[i]? = some e.2) cs (rowOf cs i) := by
  induction cs with
  | nil => exact .nil
  | cons c cs ih =>
    obtain ⟨hc, hcs⟩ := List.forall_mem_cons.mp h
    obtain ⟨v, hv, hcons⟩ := exists_rowOf_cons c.1 cs hc
    rw [hcons]
    exact .cons ⟨rfl, hv⟩ (ih hcs)

theorem lookup_rowOf {cs : List (String × List Json)} (h : ∀ c ∈ cs, i < c.2.length) (key : String) :
    (rowOf cs i).lookup key = (cs.lookup key).bind (·[i]?) := by
  induction cs with
  | nil => rfl
  | cons c cs ih =>
    obtain ⟨hc, hcs⟩ := List.forall_mem_cons.mp h
    obtain ⟨name, values⟩ := c
    obtain ⟨v, hv, hcons⟩ := exists_rowOf_cons name cs hc
    rw [hcons, List.lookup_cons, List.lookup_cons, ih hcs]
    cases key == name with
    | true => exact hv.symm
    | false => rfl

theorem filterMap_range_getElem? (values : List α) : (List.range values.length).filterMap (values[·]?) = values := by
  induction values with
  | nil => rfl
  | cons v values ih =>
    rw [List.length_cons, List.range_succ_eq_map, List.filterMap_cons, List.filterMap_map]
    exact congrArg (v :: ·) ih

theorem collect_rowsOf {cs : List (String × List Json)} (h : ∀ c ∈ cs, c.2.length = n) :
    collect (cs.map (·.1)) ((List.range n).map (rowOf cs)) = cs.map fun c => (c.1, .array c.2) := by
  induction cs with
  | nil => rfl
  | cons c cs ih =>
    obtain ⟨hc, hcs⟩ := List.forall_mem_cons.mp h
    obtain ⟨name, values⟩ := c
    have hrow : ∀ i ∈ List.range n, ∃ v, values[i]? = some v ∧
        rowOf ((name, values) :: cs) i = (name, v) :: rowOf cs i :=
      fun i hi => exists_rowOf_cons name cs (hc.symm ▸ List.mem_range.mp hi)
    have hvalues : ((List.range n).map (rowOf ((name, values) :: cs))).filterMap
        (fun row => row.head?.map (·.2)) = values := by
      rw [List.filterMap_map]
      refine Eq.trans (List.filterMap_congr fun i hi => ?_) (hc ▸ filterMap_range_getElem? values)
      obtain ⟨v, hv, hcons⟩ := hrow i hi
      rw [hv, Function.comp_apply, hcons]
      rfl
    have htails : ((List.range n).map (rowOf ((name, values) :: cs))).map List.tail =
        (List.range n).map (rowOf cs) := by
      rw [List.map_map]
      refine List.map_congr_left fun i hi => ?_
      obtain ⟨v, -, hcons⟩ := hrow i hi
      rw [Function.comp_apply, hcons, List.tail_cons]
    rw [List.map_cons, collect, hvalues, htails, ih hcs, List.map_cons]

theorem length_of_lookup (h : b.columns.lookup c = some values) : values.length = b.rowCount := by
  obtain ⟨front, back, heq, -⟩ := List.lookup_eq_some_iff.mp h
  exact b.length_eq (c, values) (heq ▸ List.mem_append_right _ List.mem_cons_self)

theorem lookup_eq_none_iff : b.columns.lookup c = none ↔ c ∉ b.columnNames := by
  rw [List.lookup_eq_none_iff, columnNames, List.mem_map]
  constructor
  · rintro h ⟨g, hg, rfl⟩
    exact absurd (h g hg) (by simp)
  · intro h g hg
    simpa using fun heq => h ⟨g, hg, heq.symm⟩

theorem value?_eq (b : Batch) (c : String) (i : Nat) :
    b.value? c i = if i < b.rowCount then (b.row i).lookup c else none := by
  change (b.columns.lookup c).bind (·[i]?) = _
  split
  · next hi => exact (lookup_rowOf (fun g hg => (b.length_eq g hg).symm ▸ hi) c).symm
  · next hi =>
    refine Option.bind_eq_none_iff.mpr fun values hvalues => List.getElem?_eq_none ?_
    exact length_of_lookup hvalues ▸ Nat.le_of_not_lt hi

theorem isSome_value? (b : Batch) (c : String) (i : Nat) :
    (b.value? c i).isSome = true ↔ c ∈ b.columnNames ∧ i < b.rowCount := by
  change ((b.columns.lookup c).bind (·[i]?)).isSome = true ↔ _
  cases h : b.columns.lookup c with
  | none => exact iff_of_false nofun fun hc => lookup_eq_none_iff.mp h hc.1
  | some values =>
    have hc : c ∈ b.columnNames := by
      by_contra hnot
      exact nomatch h.symm.trans (lookup_eq_none_iff.mpr hnot)
    rw [Option.bind_some, isSome_getElem?, length_of_lookup h]
    exact (and_iff_right hc).symm

theorem tabulates_source (b : Batch) : b.Tabulates b.source where
  rectangular := by
    intro m hm
    obtain ⟨c, hc, rfl⟩ := List.mem_map.mp hm
    exact ⟨c.2, rfl, b.length_eq c hc⟩
  names := by
    rw [source, List.map_map]
    rfl
  row := by
    intro i hi
    rw [source, List.forall₂_map_left_iff]
    have hrow := forall₂_rowOf fun c hc => (b.length_eq c hc).symm ▸ hi
    exact hrow.imp fun c e h => ⟨h.1, c.2, rfl, h.2⟩
  value := b.value?_eq
  present := b.isSome_value?
  hasColumn _ := hasColumn_iff
  keys _ := requireKeys_ok_iff
  missing _ _ := requireKeys_error_iff
  collected := collect_rowsOf b.length_eq

theorem ofMembers_tabulates (h : ofMembers object = .ok b) : b.Tabulates object := by
  obtain ⟨-, -, rfl⟩ := ofMembers_ok h
  exact b.tabulates_source

theorem ofMembers_ok_iff : (∃ b, ofMembers object = .ok b) ↔ object ≠ [] ∧ ∃ n, Rectangular n object := by
  constructor
  · rintro ⟨b, h⟩
    obtain ⟨hne, hrectangular, -⟩ := ofMembers_ok h
    exact ⟨hne, b.rowCount, hrectangular⟩
  · rintro ⟨hne, n, h⟩
    obtain ⟨b, hb, -⟩ := ofMembers_rectangular hne h
    exact ⟨b, hb⟩

end QueryGateway.Batch
