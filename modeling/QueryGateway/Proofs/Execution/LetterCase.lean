import QueryGateway.Proofs.Execution.Agreement
import QueryGateway.Proofs.Store.Demands

namespace QueryGateway
set_option autoImplicit true

open Store

namespace Text

theorem toLower_of_le {c : Char} (h : 0x80 ≤ c.toNat) : c.toLower = c := by
  unfold Char.toLower
  refine dif_neg ?_
  rintro ⟨-, hz⟩
  have hlast : c.toNat ≤ 'Z'.toNat := hz
  exact absurd (h.trans hlast) (by decide)

theorem lowerLetter_toLower (c : Char) : lowerLetter c.toLower = lowerLetter c := by
  by_cases h : c.toNat < 0x80
  · have hletters : ∀ n < 0x80, lowerLetter (Char.ofNat n).toLower = lowerLetter (Char.ofNat n) := by decide +kernel
    rw [← Char.ofNat_toNat c]
    exact hletters _ h
  · rw [toLower_of_le (Nat.le_of_not_lt h)]

theorem sameLetters_congr (h : sameName s s' = true) (n : String) : sameLetters n s = sameLetters n s' := by
  have hletters (s : String) : (s.toList.map Char.toLower).map lowerLetter = s.toList.map lowerLetter := by
    rw [List.map_map]
    exact List.map_congr_left fun c _ => lowerLetter_toLower c
  rw [sameLetters, sameLetters, ← hletters s, ← hletters s', String.ofList_inj.mp (sameName_iff.mp h)]

end Text

theorem forall₂_congr_left {R : α → β → Prop} {P : α → α → Prop} (h : ∀ a a', P a a' → ∀ b, R a b ↔ R a' b)
    (hl : List.Forall₂ P l l') (bs : List β) : List.Forall₂ R l bs ↔ List.Forall₂ R l' bs := by
  induction hl generalizing bs with
  | nil => rfl
  | cons ha _ ih =>
    cases bs with
    | nil => exact iff_of_false nofun nofun
    | cons b bs => rw [List.forall₂_cons, List.forall₂_cons, h _ _ ha b, ih bs]

theorem optionRel_congr_left {R : α → β → Prop} {P : α → α → Prop} (h : ∀ a a', P a a' → ∀ b, R a b ↔ R a' b)
    {o o' : Option α} (ho : Option.Rel P o o') (r : Option β) : Option.Rel R o r ↔ Option.Rel R o' r := by
  cases ho with
  | none => rfl
  | some ha =>
    cases r with
    | none => exact iff_of_false nofun nofun
    | some b => rw [Option.rel_some_some, Option.rel_some_some, h _ _ ha b]

theorem bind_congr_left {r r' : Except ε α} (h : ∀ a, r = .ok a ↔ r' = .ok a) (f : α → Except ε β) :
    r >>= f = .ok b ↔ r' >>= f = .ok b := by
  cases r with
  | ok a => rw [(h a).mp rfl]
  | error e =>
    cases r' with
    | ok a => exact nomatch (h a).mpr rfl
    | error e' => exact iff_of_false nofun nofun

structure Predicate.Respelled (p p' : Predicate) : Prop where
  column : SameName p.column p'.column
  op : p.op = p'.op
  value : p.value = p'.value

inductive Ordering.Respelled : Ordering → Ordering → Prop where
  | column (h : SameName n n') (direction : Direction) : Respelled (.column n direction) (.column n' direction)
  | vector (v : VectorOrdering) (h : SameName v.column n) : Respelled (.vector v) (.vector { v with column := n })

/-- Requests that differ only in the case of ASCII letters in the names of their table and columns. -/
structure Request.Respelled (r r' : Request) : Prop where
  table : SameName r.table r'.table
  columns : Option.Rel (List.Forall₂ SameName) r.columns r'.columns
  predicates : List.Forall₂ Predicate.Respelled r.predicates r'.predicates
  ordering : Option.Rel Ordering.Respelled r.ordering r'.ordering
  limit : r.limit = r'.limit

namespace Store

structure Filter.Respelled (f f' : Filter String) : Prop where
  column : SameName f.column f'.column
  op : f.op = f'.op
  value : f.value = f'.value

inductive RowOrder.Respelled : RowOrder String → RowOrder String → Prop where
  | column (h : SameName n n') (direction : Direction) : Respelled (.column n direction) (.column n' direction)
  | distance (function : String) (h : SameName n n') (vector : List Float) :
      Respelled (.distance function n vector) (.distance function n' vector)

structure Select.Respelled (s s' : Select String) : Prop where
  columns : Option.Rel (List.Forall₂ SameName) s.columns s'.columns
  filters : List.Forall₂ Filter.Respelled s.filters s'.filters
  order : Option.Rel RowOrder.Respelled s.order s'.order
  limit : s.limit = s'.limit

variable {t : TableInfo}

theorem Filter.Respelled.resolve {f f' : Filter String} (h : f.Respelled f') (g : Filter Column) :
    Select.resolveFilter t f = .ok g ↔ Select.resolveFilter t f' = .ok g := by
  obtain ⟨n, op, value⟩ := f
  obtain ⟨n', op', value'⟩ := f'
  obtain ⟨hcolumn, rfl, rfl⟩ := h
  exact bind_congr_left (fun _ => TableInfo.column_congr hcolumn) _

theorem RowOrder.Respelled.resolve {o o' : RowOrder String} (h : o.Respelled o') (q : RowOrder Column) :
    Select.resolveOrder t o = .ok q ↔ Select.resolveOrder t o' = .ok q := by
  cases h with
  | column h direction => exact bind_congr_left (fun _ => TableInfo.column_congr h) _
  | distance function h vector => exact bind_congr_left (fun _ => TableInfo.column_congr h) _

theorem Select.Respelled.resolve {s s' : Select String} (h : s.Respelled s') (q : Select Column) :
    s.resolve t = .ok q ↔ s'.resolve t = .ok q := by
  have hnames : ∀ ns ns', List.Forall₂ SameName ns ns' → ∀ cs,
      List.Forall₂ (fun n c => t.column n = .ok c) ns cs ↔ List.Forall₂ (fun n c => t.column n = .ok c) ns' cs :=
    fun _ _ => forall₂_congr_left fun _ _ hn _ => TableInfo.column_congr hn
  have hfilters := forall₂_congr_left (fun _ _ hf => hf.resolve (t := t)) h.filters q.filters
  have horder := optionRel_congr_left (fun _ _ ho => ho.resolve (t := t)) h.order q.order
  rw [resolve_eq_ok_iff, resolve_eq_ok_iff, optionRel_congr_left hnames h.columns, hfilters, horder, h.limit]

/-- One answer, or none because of a name that is unknown in either spelling. -/
inductive SameAnswer : Except Fault α → Except Fault α → Prop where
  | same (r : Except Fault α) : SameAnswer r r
  | unknown (h : f.kind = .notFound) (h' : f'.kind = .notFound) : SameAnswer (.error f) (.error f')

namespace SameAnswer

variable {r r' : Except Fault α}

theorem of_ok_iff (h : ∀ a, r = .ok a ↔ r' = .ok a) (hr : ∀ f, r = .error f → f.kind = .notFound)
    (hr' : ∀ f, r' = .error f → f.kind = .notFound) : SameAnswer r r' := by
  cases r with
  | ok a =>
    rw [(h a).mp rfl]
    exact .same _
  | error f =>
    cases r' with
    | ok a => exact nomatch (h a).mpr rfl
    | error f' => exact .unknown (hr f rfl) (hr' f' rfl)

theorem bind (h : SameAnswer r r') {f f' : α → Except Fault β} (hf : ∀ a, SameAnswer (f a) (f' a)) :
    SameAnswer (r >>= f) (r' >>= f') := by
  cases h with
  | unknown h h' => exact .unknown h h'
  | same =>
    cases r with
    | ok a => exact hf a
    | error e => exact .same _

theorem ends (h : SameAnswer r r') :
    (∃ a, r = .ok a ∧ r' = .ok a) ∨ ∃ f f', r = .error f ∧ r' = .error f' ∧ f.kind = f'.kind := by
  cases h with
  | unknown h h' => exact .inr ⟨_, _, rfl, rfl, h.trans h'.symm⟩
  | same =>
    cases r with
    | ok a => exact .inl ⟨a, rfl, rfl⟩
    | error f => exact .inr ⟨f, f, rfl, rfl, rfl⟩

theorem map (h : SameAnswer r r') (f : α → β) : SameAnswer (r.map f) (r'.map f) := by
  cases h with
  | unknown h h' => exact .unknown h h'
  | same => exact .same _

end SameAnswer

theorem Table.answer_respelled (t : Table) {s s' : Select String} (h : s.Respelled s') :
    SameAnswer (t.answer s) (t.answer s') := by
  have hresolve : SameAnswer (s.resolve t.info) (s'.resolve t.info) :=
    .of_ok_iff h.resolve (fun _ => Select.resolve_error) fun _ => Select.resolve_error
  exact hresolve.bind fun q => .same _

theorem TableInfo.column_respelled (t : TableInfo) (h : SameName n n') : SameAnswer (t.column n) (t.column n') :=
  .of_ok_iff (fun _ => column_congr h) (fun _ => column_error) fun _ => column_error

end Store

namespace Execution

theorem any_sameName_respelled (h : List.Forall₂ SameName ns ns') (key : String) :
    ns.any (Text.sameName · key) = ns'.any (Text.sameName · key) := by
  induction h with
  | nil => rfl
  | cons hn _ ih => rw [List.any_cons, List.any_cons, ih, Text.sameName, Text.sameName, Text.sameName_iff.mp hn]

theorem fetched_respelled (h : Option.Rel (List.Forall₂ SameName) names names') (key : String) :
    Option.Rel (List.Forall₂ SameName) (names.map (fetched · key)) (names'.map (fetched · key)) := by
  cases h with
  | none => exact .none
  | some h =>
    refine .some ?_
    change List.Forall₂ SameName (fetched _ key) (fetched _ key)
    rw [fetched, fetched, any_sameName_respelled h key]
    split
    · exact h
    · exact List.rel_append h (.cons (Text.sameName_refl key) .nil)

theorem isAuxiliary_respelled (h : Option.Rel (List.Forall₂ SameName) names names') (key : String) :
    isAuxiliary names key = isAuxiliary names' key := by
  cases h with
  | none => rfl
  | some h => rw [isAuxiliary, isAuxiliary, Option.any_some, Option.any_some, any_sameName_respelled h key]

theorem storeOrder_respelled (h : Option.Rel Ordering.Respelled o o') :
    Option.Rel RowOrder.Respelled (o.bind storeOrder) (o'.bind storeOrder) := by
  cases h with
  | none => exact .none
  | some h =>
    cases h with
    | column h direction => exact .some (.column h direction)
    | vector v h =>
      rw [Option.bind_some, Option.bind_some, storeOrder, storeOrder]
      cases v.native with
      | none => exact .none
      | some f => exact .some (.distance f h v.vector)

variable {r r' : Request}

theorem filters_respelled (h : r.Respelled r') : List.Forall₂ Filter.Respelled (filters r) (filters r') := by
  rw [filters, filters, List.forall₂_map_left_iff, List.forall₂_map_right_iff]
  exact h.predicates.imp fun _ _ hp => ⟨hp.column, hp.op, congrArg some hp.value⟩

theorem pushing_respelled (h : r.Respelled r') : (pushing r).Respelled (pushing r') :=
  ⟨h.columns, filters_respelled h, storeOrder_respelled h.ordering, h.limit⟩

theorem fetching_respelled (h : r.Respelled r') (x : Execution) (c : Column) :
    (x.fetching r c).Respelled (x.fetching r' c) :=
  ⟨fetched_respelled h.columns c.name, filters_respelled h, .none, rfl⟩

theorem ranking_respelled (h : r.Respelled r') (x : Execution) (v : VectorOrdering) (n : String) (c : Column) :
    x.ranking r v c = x.ranking r' { v with column := n } c := by
  funext rows
  rw [ranking, ranking, isAuxiliary_respelled h.columns, h.limit]

theorem vectorOrdering_respelled (h : r.Respelled r') :
    Option.Rel (fun v v' => ∃ n, SameName v.column n ∧ v' = { v with column := n })
      r.vectorOrdering? r'.vectorOrdering? := by
  -- The cases of the relation need orderings that are variables, not fields of the requests.
  have ho := h.ordering
  unfold Request.vectorOrdering?
  generalize r.ordering = o at ho
  generalize r'.ordering = o' at ho
  cases ho with
  | none => exact .none
  | some ho =>
    cases ho with
    | column => exact .none
    | vector v hn => exact .some ⟨_, hn, rfl⟩

/-- What a request is answered from a table, by whichever way it takes. -/
def told (x : Execution) (t : Table) (r : Request) : Except Fault (List Row) :=
  match r.vectorOrdering? with
  | none => t.answer (pushing r)
  | some v =>
    if x.nativeVectorOrdering && v.native.isSome then t.answer (pushing r)
    else t.info.column v.column >>= fun c => (t.answer (x.fetching r c)).map (x.ranking r v c)

theorem execute_seen {d : Database} (x : Execution) (hd : d.Sees c r.table t) :
    (d.work c (x.execute r)).1 = .ofExcept (x.told t r) := by
  unfold execute told
  cases r.vectorOrdering? with
  | none => exact pushDown_outcome hd
  | some v =>
    change (d.work c (if _ then _ else _)).1 = .ofExcept (if _ then _ else _)
    split
    · exact pushDown_outcome hd
    · exact ranked_outcome x hd v

theorem told_respelled (x : Execution) (t : Table) (h : r.Respelled r') : SameAnswer (x.told t r) (x.told t r') := by
  have hpushing := t.answer_respelled (pushing_respelled h)
  have hvector := vectorOrdering_respelled h
  unfold told
  generalize r.vectorOrdering? = v at hvector
  generalize r'.vectorOrdering? = v' at hvector
  cases hvector with
  | none => exact hpushing
  | @some v v' hv =>
    obtain ⟨n, hn, rfl⟩ := hv
    change SameAnswer (if _ then _ else _) (if _ then _ else _)
    split
    · exact hpushing
    · refine (t.info.column_respelled hn).bind fun c => ?_
      rw [ranking_respelled h x v n c]
      exact (t.answer_respelled (fetching_respelled h x c)).map _

end Execution

namespace Store

def TableInfo.Displays (t : TableInfo) (names : Option (List String)) (rows : List Row) : Prop :=
  ∃ cs, t.Shows names cs ∧ ∃ found : List Record, rows = found.map (t.row cs)

theorem Select.run_rows {t : TableInfo} {s : Select Column} (h : s.run t rs = .ok rows) :
    ∃ found : List Record, rows = found.map (t.row (s.projection t)) := by
  obtain ⟨_, -, h⟩ := bind_ok h
  split at h
  · cases h
    exact ⟨[], rfl⟩
  · obtain ⟨found, -, h⟩ := bind_ok h
    obtain ⟨sorted, -, h⟩ := bind_ok h
    cases Except.ok.inj h
    exact ⟨_, rfl⟩

theorem Table.answer_rows {t : Table} {s : Select String} (h : t.answer s = .ok rows) (hc : t.info.Shows s.columns cs) :
    ∃ found : List Record, rows = found.map (t.info.row cs) := by
  obtain ⟨q, hq, hrun⟩ := bind_ok h
  obtain ⟨columns, hcolumns, rfl⟩ := hc.resolve
  obtain ⟨columns', hcolumns', hq⟩ := bind_ok hq
  obtain ⟨filters, -, hq⟩ := bind_ok hq
  obtain ⟨order, -, hq⟩ := bind_ok hq
  cases Except.ok.inj hq
  cases Except.ok.inj (hcolumns.symm.trans hcolumns')
  exact Select.run_rows hrun

theorem Table.known_of_answer {t : Table} {s : Select String} (h : t.answer s = .ok rows) : s.Known t.info := by
  obtain ⟨q, hq, -⟩ := bind_ok h
  exact Select.exists_resolve_iff.mp ⟨q, hq⟩

end Store

namespace Execution

theorem displays_pushing {t : Table} (h : t.answer (pushing r) = .ok rows) : t.info.Displays r.columns rows := by
  obtain ⟨cs, hcs⟩ := TableInfo.exists_shows (Table.known_of_answer h).columns
  exact ⟨cs, hcs, Table.answer_rows h hcs⟩

/-- What is left of the rows that were fetched is what the request asks for: a column that only decides the order is
taken out of them again. -/
theorem displays_ranking {t : Table} {x : Execution} (hv : t.info.column n = .ok c)
    (h : t.answer (x.fetching r c) = .ok rows) (v : VectorOrdering) :
    t.info.Displays r.columns (x.ranking r v c rows) := by
  have hknown := (Table.known_of_answer h).columns
  have hnames : ∀ ns ∈ r.columns, ∀ n ∈ ns, ∃ c, t.info.column n = .ok c := by
    intro ns hns n hn
    exact hknown _ (Option.map_eq_some_iff.mpr ⟨ns, hns, rfl⟩) n (mem_fetched_of_mem hn c.name)
  obtain ⟨cs, hcs⟩ := TableInfo.exists_shows hnames
  obtain ⟨found, rfl⟩ := Table.answer_rows h (fetched_shows hcs hv)
  have hshown := shown_nearest hcs hv v r.limit (found.take x.maxVectorCandidates)
  refine ⟨cs, hcs, _, Eq.trans ?_ hshown⟩
  rw [ranking, ← List.map_take]
  cases isAuxiliary r.columns c.name with
  | true => rfl
  | false => exact (List.map_id _).symm

theorem displays_told {x : Execution} {t : Table} (h : x.told t r = .ok rows) : t.info.Displays r.columns rows := by
  unfold told at h
  split at h
  · exact displays_pushing h
  · split at h
    · exact displays_pushing h
    · obtain ⟨c, hc, h⟩ := bind_ok h
      cases hanswer : t.answer (x.fetching r c) with
      | error f =>
        rw [hanswer] at h
        exact nomatch h
      | ok found =>
        rw [hanswer] at h
        cases Except.ok.inj h
        exact displays_ranking hc hanswer _

variable {d : Database} {r r' : Request}

theorem sees_respelled (h : SameName n n') : d.Sees c n t ↔ d.Sees c n' t := by
  simp only [Database.Sees, Text.sameLetters_congr h]

/-- The case of the ASCII letters in the names of a request makes no difference: either both spellings are answered with
the same rows, under the names that the catalog has for the columns that are shown, or both fail for one kind of
reason. -/
theorem execute_respelled (x : Execution) (d : Database) (c : Nat) (h : r.Respelled r') :
    (∃ t cs rows, d.Sees c r.table t ∧ t.info.Shows r.columns cs ∧
      (d.work c (x.execute r)).1 = .done rows ∧ (d.work c (x.execute r')).1 = .done rows ∧
      ∀ row ∈ rows, row.map Prod.fst = cs.eraseDups.map Column.name) ∨
    ∃ f f', (d.work c (x.execute r)).1 = .failed f ∧ (d.work c (x.execute r')).1 = .failed f' ∧ f.kind = f'.kind := by
  by_cases hd : ∃ t, d.Sees c r.table t
  · obtain ⟨t, hd⟩ := hd
    have hd' := (sees_respelled h.table).mp hd
    have hsame := told_respelled x t h
    rw [execute_seen x hd, execute_seen x hd']
    obtain ⟨rows, hr, hr'⟩ | ⟨f, f', hr, hr', hkind⟩ := hsame.ends
    · obtain ⟨cs, hcs, found, rfl⟩ := displays_told hr
      refine .inl ⟨t, cs, _, hd, hcs, congrArg Outcome.ofExcept hr, congrArg Outcome.ofExcept hr', ?_⟩
      intro row hrow
      obtain ⟨record, -, rfl⟩ := List.mem_map.mp hrow
      exact t.info.row_keys cs record
    · exact .inr ⟨f, f', congrArg Outcome.ofExcept hr, congrArg Outcome.ofExcept hr', hkind⟩
  · have hno := not_exists.mp hd
    have hno' : ∀ t, ¬ d.Sees c r'.table t := fun t ht => hno t ((sees_respelled h.table).mpr ht)
    exact .inr ⟨_, _, execute_unseen hno x, execute_unseen hno' x, rfl⟩

/-- All names in capitals. The column that decides the order is still recognized as one that is asked for, and the keys
are the names of the catalog. -/
theorem execute_respelled_capitals :
    ∃ (t : Table) (v : VectorOrdering) (rows : List Row),
      let r : Request := ⟨"t", some ["v", "id"], [⟨"id", .eq, "1"⟩], some (.vector v), none⟩
      let r' : Request := ⟨"T", some ["V", "ID"], [⟨"ID", .eq, "1"⟩], some (.vector { v with column := "V" }), none⟩
      let x : Execution := ⟨.builtIn, false, 3⟩
      r.Respelled r' ∧ rows.map (·.map Prod.fst) = [["v", "id"]] ∧
        ((Database.ofTables none "main" [t]).work 0 (x.execute r)).1 = .done rows ∧
        ((Database.ofTables none "main" [t]).work 0 (x.execute r')).1 = .done rows := by
  let i : Column := ⟨"id", .integer .regular, false, false⟩
  let c : Column := ⟨"v", .vector 2, false, false⟩
  let a : Record := ⟨0, [.integer .regular 1, .array [.single 1, .single 0]], 1⟩
  let t : Table := ⟨⟨"main", "t", [i, c]⟩, [a]⟩
  let v : VectorOrdering := ⟨"v", .cosine, [1, 0], none⟩
  let r : Request := ⟨"t", some ["v", "id"], [⟨"id", .eq, "1"⟩], some (.vector v), none⟩
  have hnames : SameName "t" "T" ∧ SameName "v" "V" ∧ SameName "id" "ID" := by
    unfold SameName
    decide +kernel
  obtain ⟨htable, hv, hid⟩ := hnames
  have hrespelled : r.Respelled
      ⟨"T", some ["V", "ID"], [⟨"ID", .eq, "1"⟩], some (.vector { v with column := "V" }), none⟩ :=
    ⟨htable, .some (.cons hv (.cons hid .nil)), .cons ⟨hid, rfl, rfl⟩ .nil, .some (.vector v hv), rfl⟩
  have hsees : (Database.ofTables none "main" [t]).Sees 0 "t" t := List.find?_cons_of_pos (by decide +kernel)
  have hcolumn : t.info.column "id" = .ok i := TableInfo.column_eq_ok_iff.mpr (by decide +kernel)
  have hvector : t.info.column "v" = .ok c := TableInfo.column_eq_ok_iff.mpr (by decide +kernel)
  have hfits : ∀ p ∈ r.predicates, p.Fits t.info := by
    intro p hp
    obtain rfl := List.mem_singleton.mp hp
    exact ⟨i, hcolumn, fun _ => Option.isSome_iff_exists.mp (by decide +kernel)⟩
  have hall : t.matching r.predicates = [a] := List.filter_cons_of_pos (by decide +kernel)
  have hroom : min 3 limitBound = 3 := by decide
  have hdone : ((Database.ofTables none "main" [t]).work 0 ((⟨.builtIn, false, 3⟩ : Execution).execute r)).1 =
      .done [t.info.row [c, i] a] := by
    have hanswer := ranked_answer ⟨.builtIn, false, 3⟩ (r := r) (v := v) hsees (.cons hvector (.cons hcolumn .nil))
      (List.cons_ne_nil _ _) hfits hvector
    rw [hall, hroom, List.take_of_length_le (by decide), List.mergeSort_singleton] at hanswer
    exact hanswer
  obtain ⟨_, _, rows, -, -, hr, hr', -⟩ | ⟨f, _, hf, -⟩ :=
    execute_respelled ⟨.builtIn, false, 3⟩ (Database.ofTables none "main" [t]) 0 hrespelled
  · refine ⟨t, v, rows, hrespelled, ?_, hr, hr'⟩
    cases hdone.symm.trans hr
    rfl
  · exact nomatch hdone.symm.trans hf

end Execution

end QueryGateway
