import QueryGateway.Proofs.Store.Demands

namespace QueryGateway.Store
set_option autoImplicit true

open Lexeme Statement

/-- The words that are the same in every statement that has them. -/
def fixedWords : List String :=
  ["SELECT ", "SELECT 1 FROM ", "INSERT INTO ", "UPDATE ", " FROM ", " SET ", " WHERE ", " (", ") VALUES (", ")", ".",
    ", ", " AND ", "TRUE", " = ", " <> ", " > ", " < ", " >= ", " <= ", " IS NULL", " IS NOT NULL",
    " IS NOT DISTINCT FROM ", "contains(CAST(", " AS VARCHAR), ", " ORDER BY ", " ASC", " DESC", ") ASC NULLS LAST",
    " LIMIT 1"]

/-- What a piece may be if these functions are called. -/
inductive Piece.Spoken (functions : List String) : Piece → Prop where
  | fixed (h : w ∈ fixedWords) : Spoken functions (.word w)
  | limit (n : Nat) : Spoken functions (.word (" LIMIT " ++ toString n))
  | call (h : f ∈ functions) : Spoken functions (.word (" ORDER BY " ++ f ++ "("))
  | name (n : String) : Spoken functions (.name n)
  | value (type : ColumnType) (v : Option String) : Spoken functions (.value type v)
  | plain (v : Option String) : Spoken functions (.plain v)

namespace Statement

def Spoken (functions : List String) (s : Statement) : Prop :=
  ∀ p ∈ s, p.Spoken functions

variable {functions : List String} {s s' : Statement}

theorem Spoken.nil : Spoken functions [] :=
  nofun

theorem Spoken.append (h : s.Spoken functions) (h' : s'.Spoken functions) : Spoken functions (s ++ s') :=
  List.forall_mem_append.mpr ⟨h, h'⟩

theorem Spoken.cons {p : Piece} (hp : p.Spoken functions) (h : s.Spoken functions) : Spoken functions (p :: s) :=
  List.forall_mem_cons.mpr ⟨hp, h⟩

theorem Spoken.separated {f : α → Statement} {separator : String} (hs : separator ∈ fixedWords) {xs : List α}
    (h : ∀ x ∈ xs, (f x).Spoken functions) : Spoken functions (separated separator (xs.map f)) := by
  induction xs with
  | nil => exact .nil
  | cons x xs ih =>
    obtain ⟨hx, hxs⟩ := List.forall_mem_cons.mp h
    cases xs with
    | nil => exact hx
    | cons y xs => exact hx.append (.cons (.fixed hs) (ih hxs))

theorem spoken_tableName (t : TableInfo) : (tableName t).Spoken functions :=
  .cons (.name _) (.cons (.fixed (by decide)) (.cons (.name _) .nil))

theorem spoken_columnNames (cs : List Column) : (columnNames cs).Spoken functions :=
  .separated (by decide) fun c _ => .cons (.name c.name) .nil

theorem spoken_conditions (bs : List Binding) : (conditions bs).Spoken functions := by
  unfold conditions
  split
  · exact .cons (.fixed (by decide)) .nil
  · exact .separated (by decide) fun b _ => .cons (.name _) (.cons (.fixed (by decide)) (.cons (.value _ _) .nil))

end Statement

theorem Filter.spoken (f : Filter Column) : f.statement.Spoken functions := by
  obtain ⟨c, op, v⟩ := f
  have hcompared : ∀ {w}, w ∈ fixedWords → Spoken functions [.name c.name, .word w, .value c.type v] :=
    fun hw => .cons (.name _) (.cons (.fixed hw) (.cons (.value _ _) .nil))
  have hnull : ∀ {w}, w ∈ fixedWords → Spoken functions [.name c.name, .word w] :=
    fun hw => .cons (.name _) (.cons (.fixed hw) .nil)
  cases op with
  | eq =>
    cases v with
    | none => exact hnull (by decide)
    | some v => exact hcompared (by decide)
  | ne =>
    cases v with
    | none => exact hnull (by decide)
    | some v => exact hcompared (by decide)
  | like =>
    exact .cons (.fixed (by decide)) (.cons (.name _) (.cons (.fixed (by decide)) (.cons (.plain _)
      (.cons (.fixed (by decide)) .nil))))
  | gt => exact hcompared (w := " > ") (by decide)
  | lt => exact hcompared (w := " < ") (by decide)
  | ge => exact hcompared (w := " >= ") (by decide)
  | le => exact hcompared (w := " <= ") (by decide)

def RowOrder.functions {κ : Type} : RowOrder κ → List String
  | column .. => []
  | distance function .. => [function]

theorem RowOrder.spoken (o : RowOrder Column) : o.statement.Spoken o.functions := by
  cases o with
  | column c direction =>
    refine .cons (.fixed (by decide)) (.cons (.name _) (.cons (.fixed ?_) .nil))
    cases direction <;> decide
  | distance function c vector =>
    exact .cons (.call List.mem_cons_self) (.cons (.name _) (.cons (.fixed (by decide)) (.cons (.value _ _)
      (.cons (.fixed (by decide)) .nil))))

def Select.functions {κ : Type} (s : Select κ) : List String :=
  s.order.elim [] RowOrder.functions

theorem Select.spoken (t : TableInfo) (s : Select Column) : (s.statement t).Spoken s.functions := by
  have hwhere : (whereClause s.filters).Spoken s.functions := by
    unfold whereClause
    split
    · exact .nil
    · exact .cons (.fixed (by decide)) (.separated (by decide) fun f _ => f.spoken)
  have horder : Statement.Spoken s.functions (s.order.elim [] RowOrder.statement) := by
    rw [functions]
    cases s.order with
    | none => exact .nil
    | some o => exact o.spoken
  have hlimit : (limitClause s.limit).Spoken s.functions := by
    cases s.limit with
    | none => exact .nil
    | some n => exact .cons (.limit _) .nil
  have hfrom : Statement.Spoken s.functions
      (.word "SELECT " :: columnNames (s.projection t) ++ .word " FROM " :: tableName t) :=
    (Statement.Spoken.cons (.fixed (by decide)) (spoken_columnNames _)).append
      (.cons (.fixed (by decide)) (spoken_tableName t))
  exact ((hfrom.append hwhere).append horder).append hlimit

namespace Operation

def functions : Operation → List String
  | select _ s => s.functions
  | _ => []

theorem spoken {op : Operation} (hs : op.statement? = some s) : s.Spoken op.functions := by
  cases op with
  | select t q =>
    cases hs
    exact q.spoken t
  | contains t wanted =>
    cases hs
    exact ((Spoken.cons (.fixed (by decide)) (spoken_tableName t)).append
      (.cons (.fixed (by decide)) (spoken_conditions wanted))).append (.cons (.fixed (by decide)) .nil)
  | insert t bs =>
    cases hs
    exact (((Spoken.cons (.fixed (by decide)) (spoken_tableName t)).append
      (.cons (.fixed (by decide)) (spoken_columnNames _))).append (.cons (.fixed (by decide))
        (.separated (by decide) fun b _ => .cons (.value _ _) .nil))).append (.cons (.fixed (by decide)) .nil)
  | update t assignments wanted =>
    cases hs
    exact ((Spoken.cons (.fixed (by decide)) (spoken_tableName t)).append (.cons (.fixed (by decide))
      (.separated (by decide) fun b _ => .cons (.name _) (.cons (.fixed (by decide)) (.cons (.value _ _) .nil))))).append
        (.cons (.fixed (by decide)) (spoken_conditions wanted))
  | probe => exact nomatch hs
  | describe => exact nomatch hs
  | warn => exact nomatch hs

end Operation

def RowOrder.key {κ : Type} : RowOrder κ → κ
  | column c _ => c
  | distance _ c _ => c

def Operation.columns : Operation → List Column
  | select t s => s.projection t ++ s.filters.map (·.column) ++ s.order.elim [] fun o => [o.key]
  | contains _ wanted => wanted.map (·.column)
  | insert _ bs => bs.map (·.column)
  | update _ assignments wanted => assignments.map (·.column) ++ wanted.map (·.column)
  | _ => []

namespace TableInfo

variable {t : TableInfo}

theorem mem_of_column (h : t.column n = .ok c) : c ∈ t.columns :=
  List.mem_of_find?_eq_some (column_eq_ok_iff.mp h)

theorem mem_of_bind (h : t.bind pairs = .ok bs) : ∀ c ∈ bs.map (·.column), c ∈ t.columns := by
  refine List.forall_mem_map.mpr fun b hb => ?_
  obtain ⟨pair, -, hc, -⟩ := exists_of_mem_left (bind_eq_ok_iff.mp h).flip hb
  exact mem_of_column hc

end TableInfo

namespace Select

variable {t : TableInfo}

theorem mem_of_resolveFilter {f : Filter String} (h : resolveFilter t f = .ok g) : g.column ∈ t.columns := by
  obtain ⟨c, hc, hg⟩ := bind_ok h
  cases Except.ok.inj hg
  exact TableInfo.mem_of_column hc

theorem resolveOrder_cases {o : RowOrder String} (h : resolveOrder t o = .ok p) :
    p.key ∈ t.columns ∧ p.functions = o.functions ∧ (o.IsWorded → p.IsWorded) := by
  cases o with
  | column n direction =>
    obtain ⟨c, hc, hp⟩ := bind_ok h
    cases Except.ok.inj hp
    exact ⟨TableInfo.mem_of_column hc, rfl, id⟩
  | distance function n vector =>
    obtain ⟨c, hc, hp⟩ := bind_ok h
    cases Except.ok.inj hp
    exact ⟨TableInfo.mem_of_column hc, rfl, id⟩

theorem mem_of_resolve {s : Select String} (h : s.resolve t = .ok q) :
    ∀ c ∈ (Operation.select t q).columns, c ∈ t.columns := by
  obtain ⟨hcolumns, hfilters, horder, -⟩ := resolve_eq_ok_iff.mp h
  refine List.forall_mem_append.mpr ⟨List.forall_mem_append.mpr ⟨?_, List.forall_mem_map.mpr fun g hg => ?_⟩, ?_⟩
  · rw [projection]
    generalize q.columns = found at hcolumns
    generalize s.columns = asked at hcolumns
    cases hcolumns with
    | none => exact fun c hc => hc
    | some hcs =>
      intro c hc
      obtain ⟨n, -, hn⟩ := exists_of_mem_left hcs.flip hc
      exact TableInfo.mem_of_column hn
  · obtain ⟨f, -, hf⟩ := exists_of_mem_left hfilters.flip hg
    exact mem_of_resolveFilter hf
  · generalize q.order = found at horder
    generalize s.order = asked at horder
    cases horder with
    | none => exact nofun
    | some ho => exact List.forall_mem_singleton.mpr (resolveOrder_cases ho).1

theorem functions_of_resolve {s : Select String} (h : s.resolve t = .ok q) : q.functions = s.functions := by
  obtain ⟨-, -, horder, -⟩ := resolve_eq_ok_iff.mp h
  rw [functions, functions]
  generalize q.order = found at horder
  generalize s.order = asked at horder
  cases horder with
  | none => rfl
  | some ho => exact (resolveOrder_cases ho).2.1

theorem worded_of_resolve {s : Select String} (h : s.resolve t = .ok q) (hw : ∀ o ∈ s.order, o.IsWorded) :
    ∀ o ∈ q.order, o.IsWorded := by
  obtain ⟨-, -, horder, -⟩ := resolve_eq_ok_iff.mp h
  generalize q.order = found at horder ⊢
  generalize s.order = asked at horder hw
  cases horder with
  | none => exact nofun
  | some ho =>
    rintro _ ⟨⟩
    exact (resolveOrder_cases ho).2.2 (hw _ rfl)

end Select

theorem Demand.resolve_cases {t : TableInfo} {d : Demand} (h : d.resolve t = .ok op) :
    (∃ s, op.statement? = some s) ∧ (∀ c ∈ op.columns, c ∈ t.columns) ∧ (d.IsWorded → op.IsWorded) := by
  cases d with
  | select s =>
    obtain ⟨q, hq, hop⟩ := bind_ok h
    cases Except.ok.inj hop
    exact ⟨⟨_, rfl⟩, Select.mem_of_resolve hq, Select.worded_of_resolve hq⟩
  | contains wanted =>
    obtain ⟨bs, hbs, hop⟩ := bind_ok h
    cases Except.ok.inj hop
    exact ⟨⟨_, rfl⟩, TableInfo.mem_of_bind hbs, id⟩
  | insert given =>
    obtain ⟨bs, hbs, hop⟩ := bind_ok h
    cases Except.ok.inj hop
    exact ⟨⟨_, rfl⟩, TableInfo.mem_of_bind hbs, id⟩
  | update assignments wanted =>
    obtain ⟨bs, hbs, h⟩ := bind_ok h
    obtain ⟨ws, hws, hop⟩ := bind_ok h
    cases Except.ok.inj hop
    exact ⟨⟨_, rfl⟩, List.forall_mem_append.mpr ⟨TableInfo.mem_of_bind hbs, TableInfo.mem_of_bind hws⟩, id⟩

namespace Work

variable {P : Operation → Prop}

theorem Confined.lift_bind {r : Except ε α} {f : α → Work ε β} (h : ∀ a, r = .ok a → (f a).Confined P) :
    ((liftM r : Work ε α) >>= f).Confined P := by
  cases r with
  | ok a => exact h a rfl
  | error e => exact .failed e

/-- Every operation is what one of the demands comes to. -/
abbrev Only (t : TableInfo) (demands : Demand → Prop) (w : Work ε α) : Prop :=
  w.Confined fun op => ∃ d, demands d ∧ d.resolve t = .ok op

variable (t : TableInfo)

theorem select_only (s : Select String) : (select t s).Only t (· = .select s) := by
  refine .lift_bind fun q hq => .ask ⟨_, rfl, ?_⟩
  rw [Demand.resolve, hq]
  rfl

theorem contains_only (wanted : List (String × Option String)) : (contains t wanted).Only t (· = .contains wanted) := by
  refine .lift_bind fun bs hbs => .ask ⟨_, rfl, ?_⟩
  rw [Demand.resolve, hbs]
  rfl

theorem update_only (assignments wanted : List (String × Option String)) :
    (update t assignments wanted).Only t (· = .update assignments wanted) := by
  refine .lift_bind fun bs hbs => .lift_bind fun ws hws => .lift_bind fun _ _ => .lift_bind fun _ _ => .ask ⟨_, rfl, ?_⟩
  rw [Demand.resolve, hbs, hws]
  rfl

end Work

def rowTexts (b : Batch) (i : Nat) : List (String × Option String) :=
  b.columns.map fun column => (column.1, column.2[i]?.bind Json.scalarText?)

namespace Work

theorem insertRows_only (t : TableInfo) {b : Batch} (h : ∀ i ∈ indices, i < b.rowCount) :
    (insertRows t b indices).Only t fun d => ∃ i ∈ indices, d = .insert (rowTexts b i) := by
  refine .lift_bind fun cs hcs => .lift_bind fun _ _ => .bind (.forM fun i hi => ?_) fun _ => .ret _
  have hlt : ∀ g ∈ b.columns, i < g.2.length := fun g hg => (b.length_eq g hg).symm ▸ h i hi
  have hrow := Binding.forall₂_ofRow hlt (mapM_ok_iff.mp hcs)
  have hbind : t.bind (rowTexts b i) = .ok (List.zipWith Binding.mk cs ((b.row i).map (·.2.scalarText?))) := by
    rw [TableInfo.bind_eq_ok_iff, rowTexts, List.forall₂_map_left_iff]
    exact hrow
  rw [insertRow_of_lt (h i hi)]
  refine .ask ⟨_, ⟨i, hi, rfl⟩, ?_⟩
  rw [Demand.resolve, hbind]
  rfl

end Work

end QueryGateway.Store

namespace QueryGateway.Execution
set_option autoImplicit true

open Store

/-- Every function that an operation calls is one of these. -/
abbrev Calls (P : String → Prop) (w : Work ε α) : Prop :=
  w.Confined fun op => ∀ f ∈ op.functions, P f

variable {P : String → Prop}

theorem describe_calls (table : String) : Calls P (Work.describe table) :=
  .ask nofun

theorem select_calls (t : TableInfo) {s : Select String} (h : ∀ f ∈ s.functions, P f) : Calls P (Work.select t s) :=
  .lift_bind fun _ hq => .ask fun f hf => h f (Select.functions_of_resolve hq ▸ hf)

theorem execute_calls (x : Execution) {r : Request}
    (h : ∀ v, r.ordering = some (.vector v) → ∀ f ∈ v.native, P f) : Calls P (x.execute r) := by
  have hpush : Calls P (pushDown r) := by
    refine .bind (describe_calls _) fun t => select_calls t fun f hf => ?_
    rw [Select.functions] at hf
    cases ho : r.ordering with
    | none =>
      rw [ho] at hf
      exact nomatch hf
    | some o =>
      rw [ho] at hf
      cases o with
      | column name direction => exact nomatch hf
      | vector v =>
        cases hn : v.native with
        | none =>
          simp only [Option.bind_some, storeOrder, hn] at hf
          exact nomatch hf
        | some function =>
          simp only [Option.bind_some, storeOrder, hn] at hf
          rw [List.mem_singleton.mp hf]
          exact h v ho function hn
  unfold execute
  split
  · split
    · exact hpush
    · refine .bind (describe_calls _) fun t => .lift_bind fun c _ => .bind (select_calls t nofun) fun rows => ?_
      exact .ite (.bind (.ask nofun) fun _ => .ret _) (.ret _)
  · exact hpush

theorem native_of_ofText {table : FunctionTable} (h : Request.ofText text args table = .ok p)
    (ho : p.request.ordering = some (.vector v)) : ∃ name g, table.Finds name g ∧ v.native = g.native := by
  obtain ⟨q, -, hyields⟩ := Request.exists_yields h
  have hrel := hyields.ordering
  rw [ho] at hrel
  generalize q.order = item at hrel
  cases hrel with
  | some hresolves =>
    cases hresolves with
    | distance column hf hne hxs => exact ⟨_, _, hf, rfl⟩

/-- A query calls no function but native ones that the table of functions has for a name. -/
theorem executeText_calls (x : Execution) (text : String) (args : List String) :
    Calls (fun f => ∃ name g, x.functions.Finds name g ∧ g.native = some f) (x.executeText text args) := by
  refine .lift_bind fun p hp => .bind ((Work.Confined.forM fun _ _ => .ask nofun).mapError _) fun _ =>
    (x.execute_calls fun v ho f hf => ?_).mapError _
  cases hq : Request.ofText text args x.functions with
  | error e =>
    rw [hq] at hp
    exact nomatch hp
  | ok p' =>
    rw [hq] at hp
    cases Except.ok.inj hp
    obtain ⟨name, g, hfinds, hnative⟩ := native_of_ofText hq ho
    exact ⟨name, g, hfinds, hnative.symm.trans hf⟩

end QueryGateway.Execution

namespace QueryGateway.Store
set_option autoImplicit true

open Lexeme Statement

/-- A text with as many markers as there are values, each marker where the column of its value is, and with these names
in quotes, read as they are. -/
structure LinesUp (spell : ColumnType → Wording) (text : String) (values : List (Option String)) (slots : List Slot)
    (names : List String) : Prop where
  values : values = slots.map Slot.value
  reads : ∃ lexemes, lex text = some lexemes ∧ lexemes.count .marker = slots.length ∧
    (∀ i, ∀ slot ∈ slots[i]?, ∃ before after, lexemes = before ++ (slot.lexemes spell ++ after) ∧
      before.count .marker = i) ∧
    lexemes.filterMap name? = names

theorem Statement.Fits.linesUp {s : Statement} {names : List String} (h : s.Fits spell slots names) :
    LinesUp spell (s.spelled spell) s.values slots names :=
  ⟨h.values, s.lexemes spell, h.legible.lex_spelled spell, h.markers, h.placed, h.names⟩

/-- Whatever the names of tables and columns are, and whatever types are called: the text of every statement reads as it
was made, its markers line up with its values, its names are those of the catalog, and it depends neither on the values
nor on the letter case in which columns are asked for. The work of the gateway runs no other statements; the functions
that a query calls are native ones of the table of functions. -/
theorem statements_line_up (spell : ColumnType → Wording) :
    (∀ (t : TableInfo) (d : Demand) (op : Operation), d.resolve t = .ok op →
      (∀ c ∈ op.columns, c ∈ t.columns) ∧
      ∃ s, op.statement? = some s ∧ s.Spoken op.functions ∧
        (d.IsWorded → LinesUp spell (s.spelled spell) s.values op.slots (op.names spell))) ∧
    (∀ (t : TableInfo) (d d' : Demand) (op : Operation), d.Alike d' → d.resolve t = .ok op →
      ∃ op', d'.resolve t = .ok op' ∧
        op.statement?.map (Statement.spelled spell) = op'.statement?.map (Statement.spelled spell)) ∧
    (∀ s : Statement, s.spelled ColumnType.wording = s.text) ∧
    (∀ t : TableInfo,
      (∀ s, (Work.select t s).Only t (· = .select s)) ∧
      (∀ wanted, (Work.contains t wanted).Only t (· = .contains wanted)) ∧
      (∀ (b : Batch) indices, (∀ i ∈ indices, i < b.rowCount) →
        (Work.insertRows t b indices).Only t fun d => ∃ i ∈ indices, d = .insert (rowTexts b i)) ∧
      (∀ assignments wanted, (Work.update t assignments wanted).Only t (· = .update assignments wanted))) ∧
    (∀ (x : Execution) (text : String) (args : List String),
      Execution.Calls (fun f => ∃ name g, x.functions.Finds name g ∧ g.native = some f) (x.executeText text args)) := by
  refine ⟨fun t d op h => ?_, fun t d d' op halike h => ?_, Statement.spelled_wording, fun t => ?_,
    Execution.executeText_calls⟩
  · obtain ⟨⟨s, hs⟩, hcolumns, hworded⟩ := Demand.resolve_cases h
    exact ⟨hcolumns, s, hs, Operation.spoken hs, fun hd => (Operation.fits (hworded hd) hs).linesUp⟩
  · obtain ⟨op', hop', htexts⟩ := halike.resolve h
    refine ⟨op', hop', ?_⟩
    generalize op.statement? = found at htexts
    generalize op'.statement? = found' at htexts
    cases htexts with
    | none => rfl
    | some htext => exact congrArg some (htext.spelled spell)
  · exact ⟨Work.select_only t, Work.contains_only t, fun b indices hi => Work.insertRows_only t hi, Work.update_only t⟩

/-- A column by the name of which a text and the names around it would end, if quotes were not written twice. -/
example : lex (text [.name "a\"?", .word " = ", .value .date (some "?")]) =
    some (.name "a\"?" :: (plains " = " ++ (ColumnType.wording .date).cast)) := by
  decide +kernel

end QueryGateway.Store
