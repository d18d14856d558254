import QueryGateway.Store.Work
import QueryGateway.Proofs.Store.Lexing

namespace QueryGateway.Store
set_option autoImplicit true

open Lexeme

/-- A marker, the column that it belongs to and the value for it. -/
inductive Slot where
  /-- Right behind the name of its column and some words. -/
  | beside (column : Column) (words : String) (value : Option String)
  /-- A text to be found within the text of the column. -/
  | within (column : Column) (value : Option String)
  /-- In a list of values for columns that are named before. -/
  | listed (column : Column) (value : Option String)

namespace Slot

def column : Slot → Column
  | beside c .. => c
  | within c _ => c
  | listed c _ => c

def value : Slot → Option String
  | beside _ _ v => v
  | within _ v => v
  | listed _ v => v

variable (spell : ColumnType → Wording)

/-- The marker as it is read, with what is around it. A value is read as one of the type of its column, save a text to
be found. -/
def lexemes : Slot → List Lexeme
  | beside c words _ => .name c.name :: (plains words ++ (spell c.type).cast)
  | within c _ => plains "contains(CAST(" ++ .name c.name :: (plains " AS VARCHAR), " ++ .marker :: plains ")")
  | listed c _ => (spell c.type).cast

def names : Slot → List String
  | beside c .. => c.name :: (spell c.type).names
  | within c _ => [c.name]
  | listed c _ => (spell c.type).names

end Slot

namespace Wording

variable (w : Wording)

theorem count_cast : w.cast.count .marker = 1 := by
  simp [cast, List.count_append, List.count_eq_zero_of_not_mem w.unmarked,
    List.count_eq_zero_of_not_mem (marker_not_mem_plains _)]

theorem names_cast : w.cast.filterMap name? = w.names := by
  simp [cast, List.filterMap_append, List.filterMap_cons, names_plains, names]

end Wording

namespace Slot

variable (spell : ColumnType → Wording)

theorem count_lexemes (slot : Slot) : (slot.lexemes spell).count .marker = 1 := by
  cases slot <;>
    simp [lexemes, List.count_append, Wording.count_cast, List.count_eq_zero_of_not_mem (marker_not_mem_plains _)]

theorem names_lexemes (slot : Slot) : (slot.lexemes spell).filterMap name? = slot.names spell := by
  cases slot <;> simp [lexemes, names, List.filterMap_append, List.filterMap_cons, Wording.names_cast, names_plains]

end Slot

namespace Statement

/-- A statement can be read, has a marker for each of the values and at its place, and has these names in quotes. -/
structure Fits (spell : ColumnType → Wording) (s : Statement) (slots : List Slot) (names : List String) : Prop where
  legible : s.Legible
  values : s.values = slots.map Slot.value
  markers : (s.lexemes spell).count .marker = slots.length
  placed : ∀ i, ∀ slot ∈ slots[i]?, ∃ before after,
    s.lexemes spell = before ++ (slot.lexemes spell ++ after) ∧ before.count .marker = i
  names : (s.lexemes spell).filterMap name? = names

variable {spell : ColumnType → Wording} {s s' : Statement} {slots slots' : List Slot} {names names' : List String}

theorem Fits.appended (h : s.Fits spell slots names) (h' : s'.Fits spell slots' names')
    (hlegible : Legible (s ++ s')) : Fits spell (s ++ s') (slots ++ slots') (names ++ names') := by
  have hlexemes : Statement.lexemes spell (s ++ s') = s.lexemes spell ++ s'.lexemes spell := List.flatMap_append
  refine ⟨hlegible, ?_, ?_, ?_, ?_⟩
  · rw [List.map_append, ← h.values, ← h'.values]
    exact List.filterMap_append
  · rw [hlexemes, List.count_append, h.markers, h'.markers, List.length_append]
  · intro i slot hslot
    rw [hlexemes]
    by_cases hi : i < slots.length
    · rw [List.getElem?_append_left hi] at hslot
      obtain ⟨before, after, heq, hcount⟩ := h.placed i slot hslot
      exact ⟨before, after ++ s'.lexemes spell, by rw [heq, List.append_assoc, List.append_assoc], hcount⟩
    · have hle : slots.length ≤ i := Nat.le_of_not_lt hi
      rw [List.getElem?_append_right hle] at hslot
      obtain ⟨before, after, heq, hcount⟩ := h'.placed _ slot hslot
      refine ⟨s.lexemes spell ++ before, after, by rw [heq, List.append_assoc], ?_⟩
      rw [List.count_append, h.markers, hcount, Nat.add_sub_cancel' hle]
  · rw [hlexemes, List.filterMap_append, h.names, h'.names]

theorem Fits.append (h : s.Fits spell slots names) (h' : s'.Fits spell slots' names') (hs : s'.Opens) :
    Fits spell (s ++ s') (slots ++ slots') (names ++ names') :=
  h.appended h' (h.legible.append h'.legible hs)

theorem placed_nil {P : Nat → Slot → Prop} : ∀ i, ∀ slot ∈ ([] : List Slot)[i]?, P i slot := by
  intro i slot h
  rw [List.getElem?_nil] at h
  exact nomatch h

theorem Fits.nil : Fits spell [] [] [] :=
  ⟨.nil, rfl, rfl, placed_nil, rfl⟩

theorem Fits.name (n : String) : Fits spell [.name n] [] [n] :=
  ⟨Legible.nil.name nofun n, rfl, rfl, placed_nil, rfl⟩

theorem Fits.cons_reads {expected : List Lexeme} (h : s.Fits spell slots names) (hb : Begins w)
    (hr : Reads w expected) (hm : .marker ∉ expected) :
    Fits spell (.word w :: s) slots (expected.filterMap name? ++ names) := by
  have htame : Piece.Tame (.word w) := ⟨hb, expected, hr, hm⟩
  have hlexemes : Statement.lexemes spell [.word w] = expected :=
    (List.append_nil _).trans (Piece.lexemes_word spell hr)
  have hword : Fits spell [.word w] [] (expected.filterMap name?) := by
    refine ⟨Legible.nil.cons htame rfl, rfl, ?_, placed_nil, ?_⟩
    · rw [hlexemes]
      exact List.count_eq_zero_of_not_mem hm
    · rw [hlexemes]
  exact hword.appended h (h.legible.cons htame rfl)

theorem Fits.cons_word (h : s.Fits spell slots names) (ho : Ordinary w) (hb : Begins w) :
    Fits spell (.word w :: s) slots names := by
  have hword := h.cons_reads hb ho.reads (marker_not_mem_plains w)
  rwa [names_plains] at hword

theorem Fits.slot (slot : Slot) (hlegible : s.Legible) (hvalues : s.values = [slot.value])
    (hlexemes : s.lexemes spell = slot.lexemes spell) : s.Fits spell [slot] (slot.names spell) := by
  refine ⟨hlegible, hvalues, ?_, ?_, ?_⟩
  · rw [hlexemes, slot.count_lexemes]
    rfl
  · rintro (_ | i) σ hσ
    · cases hσ
      exact ⟨[], [], by rw [hlexemes, List.append_nil, List.nil_append], rfl⟩
    · cases hσ
  · rw [hlexemes, slot.names_lexemes]

theorem Fits.separated {f : α → Statement} {slots : α → List Slot} {names : α → List String} {separator : String}
    (ho : Ordinary separator) (hb : Begins separator) {xs : List α}
    (h : ∀ x ∈ xs, (f x).Fits spell (slots x) (names x)) :
    (separated separator (xs.map f)).Fits spell (xs.flatMap slots) (xs.flatMap names) := by
  induction xs with
  | nil => exact .nil
  | cons x xs ih =>
    obtain ⟨hx, hxs⟩ := List.forall_mem_cons.mp h
    cases xs with
    | nil =>
      simp only [List.flatMap_cons, List.flatMap_nil, List.append_nil]
      exact hx
    | cons y xs => exact hx.append ((ih hxs).cons_word ho hb) fun p hp => by cases hp; rfl

theorem fits_tableName (spell : ColumnType → Wording) (t : TableInfo) : (tableName t).Fits spell [] [t.schema, t.name] :=
  (Fits.name t.schema).append ((Fits.name t.name).cons_word (by decide) (by decide)) fun p hp => by cases hp; rfl

theorem fits_columnNames (spell : ColumnType → Wording) (cs : List Column) : (columnNames cs).Fits spell [] (cs.map Column.name) := by
  have h : (columnNames cs).Fits spell (cs.flatMap fun _ => []) (cs.flatMap fun c => [c.name]) :=
    .separated (by decide) (by decide) fun c _ => .name c.name
  rwa [List.flatMap_eq_nil_iff.mpr fun _ _ => rfl, ← List.map_eq_flatMap] at h

theorem fits_beside (c : Column) (v : Option String) (ho : Ordinary words) (hb : Begins words) :
    Fits spell [.name c.name, .word words, .value c.type v] [.beside c words v] (c.name :: (spell c.type).names) := by
  refine .slot (.beside c words v) ?_ rfl ?_
  · have hvalue : Legible [.value c.type v] := Legible.nil.cons (p := .value c.type v) trivial rfl
    exact (hvalue.cons (Piece.tame_ordinary ho hb) rfl).name (fun p hp => by cases hp; rfl) c.name
  · simp [Statement.lexemes, Piece.lexemes, ho.reads.lex, Slot.lexemes]

end Statement

open Statement

variable {spell : ColumnType → Wording}

namespace Filter

/-- Comparisons with null for equality have no value. -/
def slots (f : Filter Column) : List Slot :=
  match f.op, f.value with
  | .eq, none => []
  | .ne, none => []
  | .like, v => [.within f.column v]
  | op, v => [.beside f.column (" " ++ op.sql ++ " ") v]

def names (spell : ColumnType → Wording) (f : Filter Column) : List String :=
  match f.op, f.value with
  | .eq, none => [f.column.name]
  | .ne, none => [f.column.name]
  | .like, _ => [f.column.name]
  | _, _ => f.column.name :: (spell f.column.type).names

theorem fits_within (c : Column) (v : Option String) :
    Fits spell [.word "contains(CAST(", .name c.name, .word " AS VARCHAR), ", .plain v, .word ")"] [.within c v]
      [c.name] := by
  have hopen : Ordinary "contains(CAST(" := by decide
  have has : Ordinary " AS VARCHAR), " := by decide
  have hclose : Ordinary ")" := by decide
  refine .slot (.within c v) ?_ rfl ?_
  · have hend : Legible [.word ")"] := Legible.nil.cons (Piece.tame_ordinary hclose (by decide)) rfl
    have hmarker : Legible [.plain v, .word ")"] := hend.cons (p := .plain v) trivial rfl
    have hwords : Legible [.word " AS VARCHAR), ", .plain v, .word ")"] :=
      hmarker.cons (Piece.tame_ordinary has (by decide)) rfl
    exact (hwords.name (fun p hp => by cases hp; rfl) c.name).cons (Piece.tame_ordinary hopen (by decide)) rfl
  · simp [Statement.lexemes, Piece.lexemes, hopen.reads.lex, has.reads.lex, hclose.reads.lex, Slot.lexemes]

theorem fits_null (c : Column) (ho : Ordinary words) (hb : Begins words) :
    Fits spell [.name c.name, .word words] [] [c.name] :=
  (Fits.name c.name).append (Fits.nil.cons_word ho hb) fun p hp => by cases hp; rfl

theorem ordinary_sql (op : Comparison) : Ordinary (" " ++ op.sql ++ " ") ∧ Begins (" " ++ op.sql ++ " ") := by
  cases op <;> exact ⟨by decide, by decide⟩

theorem fits_compared (c : Column) (op : Comparison) (v : Option String) :
    Fits spell [.name c.name, .word (" " ++ op.sql ++ " "), .value c.type v] [.beside c (" " ++ op.sql ++ " ") v]
      (c.name :: (spell c.type).names) :=
  fits_beside c v (ordinary_sql op).1 (ordinary_sql op).2

theorem fits (f : Filter Column) : f.statement.Fits spell f.slots (f.names spell) := by
  obtain ⟨c, op, v⟩ := f
  cases op with
  | eq =>
    cases v with
    | none => exact fits_null c (by decide) (by decide)
    | some v => exact fits_compared c .eq (some v)
  | ne =>
    cases v with
    | none => exact fits_null c (by decide) (by decide)
    | some v => exact fits_compared c .ne (some v)
  | gt => exact fits_compared c .gt v
  | lt => exact fits_compared c .lt v
  | ge => exact fits_compared c .ge v
  | le => exact fits_compared c .le v
  | like => exact fits_within c v

end Filter

namespace RowOrder

def slots : RowOrder Column → List Slot
  | column .. => []
  | distance _ c vector => [.beside c ", " (some (vectorText vector))]

def names (spell : ColumnType → Wording) : RowOrder Column → List String
  | column c _ => [c.name]
  | distance function c _ => ((lex function).getD []).filterMap name? ++ c.name :: (spell c.type).names

/-- The function is called by a text that can be read by itself and has no marker. -/
def IsWorded {κ : Type} : RowOrder κ → Prop
  | column .. => True
  | distance function .. => ∃ w : Wording, w.text = function

theorem fits {o : RowOrder Column} (h : o.IsWorded) : o.statement.Fits spell o.slots (o.names spell) := by
  cases o with
  | column c direction =>
    have hdirection : Fits spell [.word (" " ++ direction.sql)] [] [] := by
      cases direction <;> exact Fits.nil.cons_word (by decide) (by decide)
    exact ((Fits.name c.name).append hdirection fun p hp => by cases hp; rfl).cons_word (by decide) (by decide)
  | distance function c vector =>
    obtain ⟨w, rfl⟩ := h
    have hby : Ordinary " ORDER BY " := by decide
    have hopen : Ordinary "(" := by decide
    have hreads : Reads (" ORDER BY " ++ w.text ++ "(") (plains " ORDER BY " ++ (w.lexemes ++ plains "(")) := by
      rw [String.append_assoc]
      exact hby.reads.append (w.reads_append hopen (by decide))
    have hbegins : Begins " ORDER BY " := by decide
    have hrow : Fits spell [.name c.name, .word ", ", .value c.type (some (vectorText vector))] _ _ :=
      fits_beside c (some (vectorText vector)) (by decide) (by decide)
    have hlast : Fits spell [.word ") ASC NULLS LAST"] [] [] := Fits.nil.cons_word (by decide) (by decide)
    have hcall := (hrow.append hlast fun p hp => by cases hp; rfl).cons_reads ((hbegins.append w.text).append "(")
      hreads (by simp [w.unmarked, marker_not_mem_plains])
    simp only [List.filterMap_append, names_plains, List.nil_append, List.append_nil] at hcall
    rw [names, w.lex_text, Option.getD_some]
    exact hcall

end RowOrder

namespace Select

theorem fits_whereClause (filters : List (Filter Column)) :
    (whereClause filters).Fits spell (filters.flatMap Filter.slots) (filters.flatMap (Filter.names spell)) := by
  cases filters with
  | nil => exact .nil
  | cons f fs =>
    have hall : (separated " AND " ((f :: fs).map Filter.statement)).Fits spell ((f :: fs).flatMap Filter.slots)
        ((f :: fs).flatMap (Filter.names spell)) :=
      .separated (by decide) (by decide) fun g _ => g.fits
    exact hall.cons_word (by decide) (by decide)

theorem fits_limitClause (limit : Option Nat) : (limitClause limit).Fits spell [] [] := by
  cases limit with
  | none => exact .nil
  | some n =>
    have hopen : Ordinary " LIMIT " := by decide
    have hbegins : Begins " LIMIT " := by decide
    exact Fits.nil.cons_word (hopen.append (ordinary_toString _)) (hbegins.append _)

theorem opens_whereClause (filters : List (Filter Column)) : (whereClause filters).Opens := by
  cases filters with
  | nil => exact nofun
  | cons => exact fun p hp => by cases hp; rfl

theorem opens_order (order : Option (RowOrder Column)) : Opens (order.elim [] RowOrder.statement) := by
  cases order with
  | none => exact nofun
  | some o => cases o <;> exact fun p hp => by cases hp; rfl

theorem opens_limitClause (limit : Option Nat) : (limitClause limit).Opens := by
  cases limit with
  | none => exact nofun
  | some => exact fun p hp => by cases hp; rfl

def slots (s : Select Column) : List Slot :=
  s.filters.flatMap Filter.slots ++ s.order.elim [] RowOrder.slots

def names (spell : ColumnType → Wording) (t : TableInfo) (s : Select Column) : List String :=
  (s.projection t).map Column.name ++ [t.schema, t.name] ++ s.filters.flatMap (Filter.names spell) ++
    s.order.elim [] (RowOrder.names spell)

theorem fits (t : TableInfo) {s : Select Column} (h : ∀ o ∈ s.order, o.IsWorded) :
    (s.statement t).Fits spell s.slots (s.names spell t) := by
  have hcolumns := (fits_columnNames spell (s.projection t)).cons_word (w := "SELECT ")
    (by decide) (by decide)
  have htable := (fits_tableName spell t).cons_word (w := " FROM ") (by decide) (by decide)
  have horder : Fits spell (s.order.elim [] RowOrder.statement) (s.order.elim [] RowOrder.slots)
      (s.order.elim [] (RowOrder.names spell)) := by
    cases ho : s.order with
    | none => exact .nil
    | some o => exact RowOrder.fits (h o ho)
  have hfrom := hcolumns.append htable fun p hp => by cases hp; rfl
  have hwhere := hfrom.append (fits_whereClause s.filters) (opens_whereClause s.filters)
  have hall := (hwhere.append horder (opens_order s.order)).append (fits_limitClause s.limit)
    (opens_limitClause s.limit)
  simp only [List.append_nil, List.nil_append] at hall
  exact hall

end Select

namespace Binding

def slot (words : String) (b : Binding) : Slot :=
  .beside b.column words b.value

def listed (b : Binding) : Slot :=
  .listed b.column b.value

def names (spell : ColumnType → Wording) (b : Binding) : List String :=
  b.column.name :: (spell b.column.type).names

theorem fits_condition (b : Binding) :
    b.condition.Fits spell [b.slot " IS NOT DISTINCT FROM "] (b.names spell) :=
  fits_beside b.column b.value (by decide) (by decide)

theorem fits_assignment (b : Binding) : b.assignment.Fits spell [b.slot " = "] (b.names spell) :=
  fits_beside b.column b.value (by decide) (by decide)

theorem fits_listed (b : Binding) :
    Fits spell [.value b.column.type b.value] [b.listed] (spell b.column.type).names :=
  .slot b.listed (Legible.nil.cons (p := .value _ _) trivial rfl) rfl (List.append_nil _)

end Binding

namespace Statement

theorem fits_conditions (spell : ColumnType → Wording) (bs : List Binding) :
    (conditions bs).Fits spell (bs.map (Binding.slot " IS NOT DISTINCT FROM ")) (bs.flatMap (Binding.names spell)) := by
  rw [List.map_eq_flatMap]
  cases bs with
  | nil => exact Fits.nil.cons_word (by decide) (by decide)
  | cons b bs => exact Fits.separated (by decide) (by decide) fun b _ => b.fits_condition

theorem fits_assignments (spell : ColumnType → Wording) (bs : List Binding) :
    (separated ", " (bs.map Binding.assignment)).Fits spell (bs.map (Binding.slot " = "))
      (bs.flatMap (Binding.names spell)) := by
  have h : (separated ", " (bs.map Binding.assignment)).Fits spell (bs.flatMap fun b => [b.slot " = "])
      (bs.flatMap (Binding.names spell)) :=
    .separated (by decide) (by decide) fun b _ => b.fits_assignment
  rwa [← List.map_eq_flatMap] at h

theorem fits_listed (spell : ColumnType → Wording) (bs : List Binding) :
    (separated ", " (bs.map fun b => [.value b.column.type b.value])).Fits spell (bs.map Binding.listed)
      (bs.flatMap fun b => (spell b.column.type).names) := by
  have h : (separated ", " (bs.map fun b => [.value b.column.type b.value])).Fits spell
      (bs.flatMap fun b => [b.listed]) (bs.flatMap fun b => (spell b.column.type).names) :=
    .separated (by decide) (by decide) fun b _ => b.fits_listed
  rwa [← List.map_eq_flatMap] at h

theorem fits_existence (t : TableInfo) (bs : List Binding) :
    (existence t bs).Fits spell (bs.map (Binding.slot " IS NOT DISTINCT FROM "))
      ([t.schema, t.name] ++ bs.flatMap (Binding.names spell)) := by
  have htable := (fits_tableName spell t).cons_word (w := "SELECT 1 FROM ") (by decide) (by decide)
  have hwhere := (fits_conditions spell bs).cons_word (w := " WHERE ") (by decide) (by decide)
  have hlimit : Fits spell [.word " LIMIT 1"] [] [] := Fits.nil.cons_word (by decide) (by decide)
  have hall := (htable.append hwhere fun p hp => by cases hp; rfl).append hlimit fun p hp => by cases hp; rfl
  simp only [List.append_nil, List.nil_append] at hall
  exact hall

theorem fits_insertion (t : TableInfo) (bs : List Binding) :
    (insertion t bs).Fits spell (bs.map Binding.listed)
      ([t.schema, t.name] ++ bs.map (·.column.name) ++ bs.flatMap fun b => (spell b.column.type).names) := by
  have htable := (fits_tableName spell t).cons_word (w := "INSERT INTO ") (by decide) (by decide)
  have hcolumns := (fits_columnNames spell (bs.map (·.column))).cons_word (w := " (")
    (by decide) (by decide)
  have hvalues := (fits_listed spell bs).cons_word (w := ") VALUES (") (by decide) (by decide)
  have hclose : Fits spell [.word ")"] [] [] := Fits.nil.cons_word (by decide) (by decide)
  have hall := ((htable.append hcolumns fun p hp => by cases hp; rfl).append hvalues
    fun p hp => by cases hp; rfl).append hclose fun p hp => by cases hp; rfl
  simp only [List.append_nil, List.nil_append, List.map_map, List.append_assoc] at hall
  simp only [insertion, List.append_assoc, List.cons_append]
  exact hall

theorem fits_change (t : TableInfo) (assignments wanted : List Binding) :
    (change t assignments wanted).Fits spell
      (assignments.map (Binding.slot " = ") ++ wanted.map (Binding.slot " IS NOT DISTINCT FROM "))
      ([t.schema, t.name] ++ assignments.flatMap (Binding.names spell) ++ wanted.flatMap (Binding.names spell)) := by
  have htable := (fits_tableName spell t).cons_word (w := "UPDATE ") (by decide) (by decide)
  have hset := (fits_assignments spell assignments).cons_word (w := " SET ") (by decide) (by decide)
  have hwhere := (fits_conditions spell wanted).cons_word (w := " WHERE ") (by decide) (by decide)
  exact (htable.append hset fun p hp => by cases hp; rfl).append hwhere fun p hp => by cases hp; rfl

end Statement

namespace Operation

/-- The markers of the statement of an operation, first to last. -/
def slots : Operation → List Slot
  | select _ s => s.slots
  | contains _ wanted => wanted.map (Binding.slot " IS NOT DISTINCT FROM ")
  | insert _ bs => bs.map Binding.listed
  | update _ assignments wanted =>
    assignments.map (Binding.slot " = ") ++ wanted.map (Binding.slot " IS NOT DISTINCT FROM ")
  | _ => []

/-- The names in the statement of an operation, first to last: of columns, of the table with its schema, and those in
what functions and types are called. -/
def names (spell : ColumnType → Wording) : Operation → List String
  | select t s => s.names spell t
  | contains t wanted => [t.schema, t.name] ++ wanted.flatMap (Binding.names spell)
  | insert t bs =>
    [t.schema, t.name] ++ bs.map (·.column.name) ++ bs.flatMap fun b => (spell b.column.type).names
  | update t assignments wanted =>
    [t.schema, t.name] ++ assignments.flatMap (Binding.names spell) ++ wanted.flatMap (Binding.names spell)
  | _ => []

def IsWorded : Operation → Prop
  | select _ s => ∀ o ∈ s.order, o.IsWorded
  | _ => True

/-- The values of every statement line up with its markers, whatever the names in it are. -/
theorem fits {op : Operation} (h : op.IsWorded) (hs : op.statement? = some s) :
    s.Fits spell op.slots (op.names spell) := by
  cases op with
  | select t q =>
    cases hs
    exact q.fits t h
  | contains t wanted =>
    cases hs
    exact fits_existence t wanted
  | insert t bs =>
    cases hs
    exact fits_insertion t bs
  | update t assignments wanted =>
    cases hs
    exact fits_change t assignments wanted
  | probe => exact nomatch hs
  | describe => exact nomatch hs
  | warn => exact nomatch hs

end Operation

end QueryGateway.Store
