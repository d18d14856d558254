import QueryGateway.Proofs.Request.Translation
import QueryGateway.Proofs.Store.Rows
import QueryGateway.Proofs.Store.Guards
import QueryGateway.Proofs.Store.Slots
import QueryGateway.Proofs.Store.Units

namespace QueryGateway.Store
set_option autoImplicit true

open Lexeme

/-- A question or a change whose columns are named by the caller. -/
inductive Demand where
  | select (s : Select String)
  | contains (wanted : List (String × Option String))
  /-- One row. -/
  | insert (given : List (String × Option String))
  | update (assignments wanted : List (String × Option String))

namespace Demand

def resolve (t : TableInfo) : Demand → Except Fault Operation
  | select s => return .select t (← s.resolve t)
  | contains wanted => return .contains t (← t.bind wanted)
  | insert given => return .insert t (← t.bind given)
  | update assignments wanted => return .update t (← t.bind assignments) (← t.bind wanted)

def IsWorded : Demand → Prop
  | select s => ∀ o ∈ s.order, o.IsWorded
  | _ => True

end Demand

def SameName (n n' : String) : Prop :=
  Text.sameName n n' = true

/-- Comparisons with other values, or with none on both sides. -/
structure Filter.Alike (f f' : Filter String) : Prop where
  column : SameName f.column f'.column
  op : f.op = f'.op
  value : f.value.isSome = f'.value.isSome

inductive RowOrder.Alike : RowOrder String → RowOrder String → Prop where
  | column (h : SameName n n') (direction : Direction) : Alike (.column n direction) (.column n' direction)
  | distance (function : String) (h : SameName n n') (vector vector' : List Float) :
      Alike (.distance function n vector) (.distance function n' vector')

structure Select.Alike (s s' : Select String) : Prop where
  columns : Option.Rel (List.Forall₂ SameName) s.columns s'.columns
  filters : List.Forall₂ Filter.Alike s.filters s'.filters
  order : Option.Rel RowOrder.Alike s.order s'.order
  limit : s.limit = s'.limit

def SameNames (pairs pairs' : List (String × Option String)) : Prop :=
  List.Forall₂ (fun pair pair' => SameName pair.1 pair'.1) pairs pairs'

/-- Demands that differ in nothing but their values and the letter case of their columns. -/
inductive Demand.Alike : Demand → Demand → Prop where
  | select (h : s.Alike s') : Alike (.select s) (.select s')
  | contains (h : SameNames wanted wanted') : Alike (.contains wanted) (.contains wanted')
  | insert (h : SameNames given given') : Alike (.insert given) (.insert given')
  | update (ha : SameNames assignments assignments') (hw : SameNames wanted wanted') :
      Alike (.update assignments wanted) (.update assignments' wanted')

namespace Statement

/-- Statements of one text, whatever types are called. -/
def SameText (s s' : Statement) : Prop :=
  ∀ spell, s.map (Piece.spelled spell) = s'.map (Piece.spelled spell)

variable {s s' u u' : Statement}

theorem SameText.refl (s : Statement) : SameText s s :=
  fun _ => rfl

theorem SameText.append (h : SameText s s') (hu : SameText u u') : SameText (s ++ u) (s' ++ u') := by
  intro spell
  rw [List.map_append, List.map_append, h spell, hu spell]

theorem SameText.cons (p : Piece) (h : SameText s s') : SameText (p :: s) (p :: s') :=
  fun spell => congrArg (p.spelled spell :: ·) (h spell)

theorem SameText.separated (separator : String) {parts parts' : List Statement}
    (h : List.Forall₂ SameText parts parts') : SameText (separated separator parts) (separated separator parts') := by
  induction h with
  | nil => exact .refl _
  | cons hpart hparts ih =>
    cases hparts with
    | nil => exact hpart
    | cons _ _ => exact hpart.append (ih.cons (.word separator))

theorem SameText.spelled (h : SameText s s') (spell : ColumnType → Wording) : s.spelled spell = s'.spelled spell :=
  congrArg String.join (h spell)

end Statement

open Statement

variable {t : TableInfo}

theorem Select.resolve_eq_ok_iff {s : Select String} : s.resolve t = .ok q ↔
    Option.Rel (List.Forall₂ fun n c => t.column n = .ok c) s.columns q.columns ∧
    List.Forall₂ (fun f g => resolveFilter t f = .ok g) s.filters q.filters ∧
    Option.Rel (fun o p => resolveOrder t o = .ok p) s.order q.order ∧ q.limit = s.limit := by
  have hcolumns : ∀ {cs}, s.columns.mapM (fun ns => ns.mapM t.column) = .ok cs ↔
      Option.Rel (List.Forall₂ fun n c => t.column n = .ok c) s.columns cs := by
    intro cs
    simp only [optionMapM_ok_iff, mapM_ok_iff]
  rw [← hcolumns, ← mapM_ok_iff, ← optionMapM_ok_iff]
  constructor
  · intro h
    obtain ⟨columns, hc, h⟩ := bind_ok h
    obtain ⟨filters, hf, h⟩ := bind_ok h
    obtain ⟨order, ho, h⟩ := bind_ok h
    cases Except.ok.inj h
    exact ⟨hc, hf, ho, rfl⟩
  · rintro ⟨hc, hf, ho, hl⟩
    rw [resolve, hc, hf, ho, ← hl]
    rfl

namespace Filter

theorem sameText {f f' : Filter Column} (hc : f.column = f'.column) (ho : f.op = f'.op)
    (hv : f.value.isSome = f'.value.isSome) : SameText f.statement f'.statement := by
  obtain ⟨c, op, v⟩ := f
  obtain ⟨c', op', v'⟩ := f'
  cases hc
  cases ho
  cases v with
  | none =>
    cases v' with
    | none => exact .refl _
    | some v' => exact nomatch hv
  | some v =>
    cases v' with
    | none => exact nomatch hv
    | some v' => cases op <;> exact fun _ => rfl

theorem Alike.resolve {f f' : Filter String} (h : f.Alike f') (hr : Select.resolveFilter t f = .ok g) :
    ∃ g', Select.resolveFilter t f' = .ok g' ∧ SameText g.statement g'.statement := by
  obtain ⟨c, hc, hg⟩ := bind_ok hr
  cases Except.ok.inj hg
  refine ⟨⟨c, f'.op, f'.value⟩, ?_, sameText rfl h.op h.value⟩
  rw [Select.resolveFilter, (TableInfo.column_congr h.column).mp hc]
  rfl

end Filter

theorem RowOrder.Alike.resolve {o o' : RowOrder String} (h : o.Alike o') (hr : Select.resolveOrder t o = .ok q) :
    ∃ q', Select.resolveOrder t o' = .ok q' ∧ SameText q.statement q'.statement := by
  cases h with
  | column h direction =>
    obtain ⟨c, hc, hq⟩ := bind_ok hr
    cases Except.ok.inj hq
    refine ⟨.column c direction, ?_, .refl _⟩
    rw [Select.resolveOrder, (TableInfo.column_congr h).mp hc]
    rfl
  | distance function h vector vector' =>
    obtain ⟨c, hc, hq⟩ := bind_ok hr
    cases Except.ok.inj hq
    refine ⟨.distance function c vector', ?_, fun _ => rfl⟩
    rw [Select.resolveOrder, (TableInfo.column_congr h).mp hc]
    rfl

namespace Select

theorem whereClause_sameText {fs fs' : List (Filter Column)}
    (h : List.Forall₂ (fun f f' => SameText f.statement f'.statement) fs fs') :
    SameText (whereClause fs) (whereClause fs') := by
  cases h with
  | nil => exact .refl _
  | @cons f f' fs fs' hf hfs =>
    have hparts : List.Forall₂ SameText ((f :: fs).map Filter.statement) ((f' :: fs').map Filter.statement) :=
      List.forall₂_map_left_iff.mpr (List.forall₂_map_right_iff.mpr (.cons hf hfs))
    exact (SameText.separated " AND " hparts).cons (.word " WHERE ")

theorem Alike.resolve {s s' : Select String} (h : s.Alike s') (hr : s.resolve t = .ok q) :
    ∃ q', s'.resolve t = .ok q' ∧ SameText (q.statement t) (q'.statement t) := by
  obtain ⟨hcolumns, hfilters, horder, hlimit⟩ := resolve_eq_ok_iff.mp hr
  obtain ⟨columns, filters, order, limit⟩ := q
  have hname : ∀ n n' c, SameName n n' → t.column n = .ok c → ∃ c', t.column n' = .ok c' ∧ c = c' :=
    fun n n' c hn hc => ⟨c, (TableInfo.column_congr hn).mp hc, rfl⟩
  have hnames : ∀ ns ns' cs, List.Forall₂ SameName ns ns' → List.Forall₂ (fun n c => t.column n = .ok c) ns cs →
      ∃ cs', List.Forall₂ (fun n c => t.column n = .ok c) ns' cs' ∧ List.Forall₂ Eq cs cs' :=
    fun _ _ _ => forall₂_exchange hname
  obtain ⟨columns', hcolumns', hcs⟩ := optionRel_exchange hnames h.columns hcolumns
  obtain ⟨filters', hfilters', hfs⟩ := forall₂_exchange
    (Q := fun g g' => SameText g.statement g'.statement) (fun _ _ _ => Filter.Alike.resolve) h.filters hfilters
  obtain ⟨order', horder', hos⟩ := optionRel_exchange
    (Q := fun o o' => SameText o.statement o'.statement) (fun _ _ _ => RowOrder.Alike.resolve) h.order horder
  refine ⟨⟨columns', filters', order', s'.limit⟩, resolve_eq_ok_iff.mpr ⟨hcolumns', hfilters', horder', rfl⟩, ?_⟩
  have hsame : columns = columns' := by
    cases hcs with
    | none => rfl
    | some hcs => exact congrArg some (List.forall₂_eq_eq_eq ▸ hcs)
  have horders : SameText (order.elim [] RowOrder.statement) (order'.elim [] RowOrder.statement) := by
    cases hos with
    | none => exact .refl _
    | some ho => exact ho
  have hlimits : limit = s'.limit := hlimit.trans h.limit
  rw [hsame, hlimits]
  exact (((SameText.refl _).append (whereClause_sameText hfs)).append horders).append (.refl _)

end Select

def Binding.Alike (b b' : Binding) : Prop :=
  b.column = b'.column

theorem TableInfo.bind_alike (h : SameNames pairs pairs') (hr : t.bind pairs = .ok bs) :
    ∃ bs', t.bind pairs' = .ok bs' ∧ List.Forall₂ Binding.Alike bs bs' := by
  simp only [bind_eq_ok_iff] at hr ⊢
  refine forall₂_exchange (fun pair pair' b hname hb => ?_) h hr
  exact ⟨⟨b.column, pair'.2⟩, ⟨(column_congr hname).mp hb.1, rfl⟩, rfl⟩

namespace Statement

variable {bs bs' : List Binding}

theorem bindings_sameText {f : Binding → Statement} (hf : ∀ b b', b.Alike b' → SameText (f b) (f b'))
    (separator : String) (h : List.Forall₂ Binding.Alike bs bs') :
    SameText (separated separator (bs.map f)) (separated separator (bs'.map f)) := by
  apply SameText.separated
  rw [List.forall₂_map_left_iff, List.forall₂_map_right_iff]
  exact h.imp hf

theorem condition_sameText {b b' : Binding} (h : b.Alike b') : SameText b.condition b'.condition := by
  intro spell
  rw [Binding.condition, Binding.condition, h]
  rfl

theorem assignment_sameText {b b' : Binding} (h : b.Alike b') : SameText b.assignment b'.assignment := by
  intro spell
  rw [Binding.assignment, Binding.assignment, h]
  rfl

theorem listed_sameText {b b' : Binding} (h : b.Alike b') :
    SameText [.value b.column.type b.value] [.value b'.column.type b'.value] := by
  intro spell
  rw [h]
  rfl

theorem conditions_sameText (h : List.Forall₂ Binding.Alike bs bs') : SameText (conditions bs) (conditions bs') := by
  cases h with
  | nil => exact .refl _
  | cons hb hbs => exact bindings_sameText (fun _ _ => condition_sameText) " AND " (.cons hb hbs)

theorem existence_sameText (t : TableInfo) (h : List.Forall₂ Binding.Alike bs bs') :
    SameText (existence t bs) (existence t bs') :=
  ((SameText.refl _).append ((conditions_sameText h).cons (.word " WHERE "))).append (.refl _)

theorem insertion_sameText (t : TableInfo) (h : List.Forall₂ Binding.Alike bs bs') :
    SameText (insertion t bs) (insertion t bs') := by
  have hcolumns : bs.map (·.column) = bs'.map (·.column) := by
    rw [← List.forall₂_eq_eq_eq, List.forall₂_map_left_iff, List.forall₂_map_right_iff]
    exact h
  have hvalues := bindings_sameText (fun _ _ => listed_sameText) ", " h
  rw [insertion, insertion, hcolumns]
  exact ((SameText.refl _).append (hvalues.cons (.word ") VALUES ("))).append (.refl _)

theorem change_sameText (t : TableInfo) {wanted wanted' : List Binding} (ha : List.Forall₂ Binding.Alike bs bs')
    (hw : List.Forall₂ Binding.Alike wanted wanted') : SameText (change t bs wanted) (change t bs' wanted') := by
  have hassignments := bindings_sameText (fun _ _ => assignment_sameText) ", " ha
  exact ((SameText.refl _).append (hassignments.cons (.word " SET "))).append
    ((conditions_sameText hw).cons (.word " WHERE "))

end Statement

namespace Demand

/-- Demands that differ in values and letter case alone come to statements of one text. -/
theorem Alike.resolve {d d' : Demand} (h : d.Alike d') (hr : d.resolve t = .ok op) :
    ∃ op', d'.resolve t = .ok op' ∧ Option.Rel SameText op.statement? op'.statement? := by
  cases h with
  | select h =>
    obtain ⟨q, hq, hop⟩ := bind_ok hr
    cases Except.ok.inj hop
    obtain ⟨q', hq', htext⟩ := h.resolve hq
    exact ⟨.select t q', by rw [Demand.resolve, hq']; rfl, .some htext⟩
  | contains h =>
    obtain ⟨bs, hbs, hop⟩ := bind_ok hr
    cases Except.ok.inj hop
    obtain ⟨bs', hbs', halike⟩ := TableInfo.bind_alike h hbs
    exact ⟨.contains t bs', by rw [Demand.resolve, hbs']; rfl, .some (existence_sameText t halike)⟩
  | insert h =>
    obtain ⟨bs, hbs, hop⟩ := bind_ok hr
    cases Except.ok.inj hop
    obtain ⟨bs', hbs', halike⟩ := TableInfo.bind_alike h hbs
    exact ⟨.insert t bs', by rw [Demand.resolve, hbs']; rfl, .some (insertion_sameText t halike)⟩
  | update ha hw =>
    obtain ⟨bs, hbs, hr⟩ := bind_ok hr
    obtain ⟨wanted, hwanted, hop⟩ := bind_ok hr
    cases Except.ok.inj hop
    obtain ⟨bs', hbs', halike⟩ := TableInfo.bind_alike ha hbs
    obtain ⟨wanted', hwanted', halike'⟩ := TableInfo.bind_alike hw hwanted
    exact ⟨.update t bs' wanted', by rw [Demand.resolve, hbs', hwanted']; rfl, .some (change_sameText t halike halike')⟩

end Demand

end QueryGateway.Store
