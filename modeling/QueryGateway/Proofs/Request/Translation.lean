import QueryGateway.Request.OfQuery
import QueryGateway.Proofs.Numerals

namespace QueryGateway
set_option autoImplicit true

open Sql

/-- The latest registration of the name, letter case aside. -/
def FunctionTable.Finds (t : FunctionTable) (name : String) (f : DistanceFunction) : Prop :=
  ∃ newer older, t.entries = newer ++ f :: older ∧ Text.sameName f.name name = true ∧
    ∀ g ∈ newer, Text.sameName g.name name = false

def FunctionTable.Lacks (t : FunctionTable) (name : String) : Prop :=
  ∀ f ∈ t.entries, Text.sameName f.name name = false

theorem FunctionTable.lookup?_eq_some_iff {t : FunctionTable} : t.lookup? name = some f ↔ t.Finds name f := by
  rw [lookup?, List.find?_eq_some_iff_append]
  constructor
  · rintro ⟨hname, newer, older, heq, hnewer⟩
    exact ⟨newer, older, heq, hname, fun g hg => (Bool.not_eq_true' _).mp (hnewer g hg)⟩
  · rintro ⟨newer, older, heq, hname, hnewer⟩
    exact ⟨hname, newer, older, heq, fun g hg => (Bool.not_eq_true' _).mpr (hnewer g hg)⟩

theorem FunctionTable.lookup?_eq_none_iff {t : FunctionTable} : t.lookup? name = none ↔ t.Lacks name := by
  rw [lookup?, List.find?_eq_none]
  exact forall₂_congr fun f _ => Bool.not_eq_true _ ▸ Iff.rfl

namespace Request.OfQuery

/-- A number in decimal notation with blanks around it, and the finite value nearest to it. -/
def IsElement (text : String) (x : Float) : Prop :=
  ∃ n, Decimal.Numeral.ofChars? (Text.trim text).toList = some n ∧ n.toFloat = x ∧ x.isFinite = true

theorem element?_eq_some_iff : element? s = some x ↔ IsElement s x := by
  simp only [element?, Option.bind_eq_bind, Option.bind_eq_some_iff]
  apply exists_congr
  intro n
  constructor
  · rintro ⟨hn, hx⟩
    split at hx
    · next hfinite =>
      cases hx
      exact ⟨hn, rfl, hfinite⟩
    · cases hx
  · rintro ⟨hn, rfl, hfinite⟩
    exact ⟨hn, if_pos hfinite⟩

theorem element?_eq_none_iff : element? s = none ↔ ∀ x, ¬ IsElement s x := by
  rw [Option.eq_none_iff_forall_ne_some]
  exact forall_congr' fun x => not_congr element?_eq_some_iff

def readElement : String × Nat → Except QueryError Float :=
  fun (s, i) =>
    match element? s with
    | some x => .ok x
    | none => .error (.badElement i s)

theorem vector_eq (elements : List String) (hne : elements ≠ []) :
    vector elements = elements.zipIdx.mapM readElement := by
  have hempty : elements.isEmpty = false := List.isEmpty_eq_false_iff.mpr hne
  rw [vector, hempty, if_neg Bool.false_ne_true]
  refine congrArg (fun read => elements.zipIdx.mapM read) (funext ?_)
  rintro ⟨s, i⟩
  cases h : element? s <;> simp only [readElement, h]

theorem readElement_ok (h : element? s = some x) (n : Nat) : readElement (s, n) = .ok x := by
  simp only [readElement, h]

theorem readElement_error (h : element? s = none) (n : Nat) :
    readElement (s, n) = .error (.badElement n s) := by
  simp only [readElement, h]

theorem mapM_readElement_cons (h : element? s = some x) (elements : List String) (n : Nat) :
    ((s :: elements).zipIdx n).mapM readElement =
      ((elements.zipIdx (n + 1)).mapM readElement).map (x :: ·) := by
  rw [List.zipIdx_cons, List.mapM_cons, readElement_ok h]
  cases (elements.zipIdx (n + 1)).mapM readElement <;> rfl

theorem mapM_readElement_cons_error (h : element? s = none) (elements : List String) (n : Nat) :
    ((s :: elements).zipIdx n).mapM readElement = .error (.badElement n s) := by
  rw [List.zipIdx_cons, List.mapM_cons, readElement_error h]
  rfl

theorem mapM_readElement_eq_ok_iff :
    (elements.zipIdx n).mapM readElement = .ok xs ↔ List.Forall₂ IsElement elements xs := by
  induction elements generalizing n xs with
  | nil =>
    rw [List.forall₂_nil_left_iff]
    constructor
    · intro h
      cases h
      rfl
    · rintro rfl
      rfl
  | cons s elements ih =>
    rw [List.forall₂_cons_left_iff]
    constructor
    · intro h
      cases hx : element? s with
      | none =>
        rw [mapM_readElement_cons_error hx] at h
        cases h
      | some x =>
        rw [mapM_readElement_cons hx] at h
        cases hmore : (elements.zipIdx (n + 1)).mapM readElement with
        | error e =>
          rw [hmore] at h
          cases h
        | ok ys =>
          rw [hmore] at h
          cases h
          exact ⟨x, ys, element?_eq_some_iff.mp hx, ih.mp hmore, rfl⟩
    · rintro ⟨x, ys, hx, hys, rfl⟩
      rw [mapM_readElement_cons (element?_eq_some_iff.mpr hx), ih.mpr hys]
      rfl

/-- The first of the elements that is no number, after `n` others. -/
def FirstBad (n : Nat) (elements : List String) (e : QueryError) : Prop :=
  ∃ front bad more, elements = front ++ bad :: more ∧ (∀ s ∈ front, ∃ x, IsElement s x) ∧
    (∀ x, ¬ IsElement bad x) ∧ e = .badElement (n + front.length) bad

theorem FirstBad.here (h : ∀ x, ¬ IsElement s x) (n : Nat) (more : List String) :
    FirstBad n (s :: more) (.badElement n s) :=
  ⟨[], s, more, rfl, List.forall_mem_nil _, h, rfl⟩

theorem FirstBad.there (hx : IsElement s x) (h : FirstBad (n + 1) elements e) :
    FirstBad n (s :: elements) e := by
  obtain ⟨front, bad, more, rfl, hfront, hbad, rfl⟩ := h
  refine ⟨s :: front, bad, more, rfl, List.forall_mem_cons.mpr ⟨⟨x, hx⟩, hfront⟩, hbad, ?_⟩
  rw [List.length_cons, Nat.add_assoc, Nat.add_comm 1]

theorem FirstBad.cases_cons (h : FirstBad n (s :: elements) e) :
    ((∀ x, ¬ IsElement s x) ∧ e = .badElement n s) ∨
      ((∃ x, IsElement s x) ∧ FirstBad (n + 1) elements e) := by
  obtain ⟨front, bad, more, heq, hfront, hbad, rfl⟩ := h
  cases front with
  | nil =>
    cases heq
    exact .inl ⟨hbad, rfl⟩
  | cons s' front =>
    cases heq
    obtain ⟨hx, hfront⟩ := List.forall_mem_cons.mp hfront
    refine .inr ⟨hx, front, bad, more, rfl, hfront, hbad, ?_⟩
    rw [List.length_cons, Nat.add_assoc, Nat.add_comm 1]

theorem mapM_readElement_eq_error_iff :
    (elements.zipIdx n).mapM readElement = .error e ↔ FirstBad n elements e := by
  induction elements generalizing n with
  | nil =>
    constructor
    · nofun
    · rintro ⟨front, bad, more, heq, -⟩
      exact absurd heq.symm (List.append_ne_nil_of_right_ne_nil _ (List.cons_ne_nil _ _))
  | cons s elements ih =>
    cases hx : element? s with
    | none =>
      have hbad := element?_eq_none_iff.mp hx
      rw [mapM_readElement_cons_error hx]
      constructor
      · rintro ⟨⟩
        exact .here hbad n elements
      · intro h
        rcases h.cases_cons with ⟨-, rfl⟩ | ⟨⟨x, hgood⟩, -⟩
        · rfl
        · exact absurd hgood (hbad x)
    | some x =>
      have hgood := element?_eq_some_iff.mp hx
      rw [mapM_readElement_cons hx]
      constructor
      · intro h
        cases hmore : (elements.zipIdx (n + 1)).mapM readElement with
        | error e' =>
          rw [hmore] at h
          cases h
          exact .there hgood (ih.mp hmore)
        | ok ys =>
          rw [hmore] at h
          cases h
      · intro h
        rcases h.cases_cons with ⟨hbad, -⟩ | ⟨-, hmore⟩
        · exact absurd hgood (hbad x)
        · rw [ih.mpr hmore]
          rfl

/-- What an ordering of a query stands for. A distance has no other direction than nearest first. -/
inductive Resolves (t : FunctionTable) : OrderItem → Ordering → Prop where
  | column (name : String) (direction : Direction) : Resolves t (.column name direction) (.column name direction)
  | distance (column : String) (hf : t.Finds function f) (hne : elements ≠ [])
      (hx : List.Forall₂ IsElement elements xs) :
      Resolves t (.distance function column elements .ascending) (.vector ⟨column, f.metric, xs, f.native⟩)

/-- What is wrong with an ordering: each fault only where those above it are not. -/
inductive OrderFault (t : FunctionTable) : OrderItem → QueryError → Prop where
  | unknown (column : String) (elements : List String) (direction : Direction) (hf : t.Lacks function) :
      OrderFault t (.distance function column elements direction) (.unknownFunction function)
  | descending (column : String) (elements : List String) (hf : t.Finds function f) :
      OrderFault t (.distance function column elements .descending) (.descendingDistance function)
  | empty (column : String) (hf : t.Finds function f) :
      OrderFault t (.distance function column [] .ascending) .emptyVector
  | element (column : String) (hf : t.Finds function f) (hbad : FirstBad 0 elements e) :
      OrderFault t (.distance function column elements .ascending) e

theorem ordering_unknown (hf : t.lookup? function = none) (column : String) (elements : List String)
    (direction : Direction) :
    ordering t (.distance function column elements direction) = .error (.unknownFunction function) := by
  simp only [ordering, hf]

theorem ordering_descending (hf : t.lookup? function = some f) (column : String) (elements : List String) :
    ordering t (.distance function column elements .descending) = .error (.descendingDistance function) := by
  simp only [ordering, hf, if_true]

theorem ordering_ascending (hf : t.lookup? function = some f) (column : String) (elements : List String) :
    ordering t (.distance function column elements .ascending) =
      (vector elements).map fun xs => .vector ⟨column, f.metric, xs, f.native⟩ := by
  simp only [ordering, hf]
  cases vector elements <;> rfl

theorem ordering_of_resolves (h : Resolves t item o) : ordering t item = .ok o := by
  cases h with
  | column name direction => rfl
  | distance column hf hne hx =>
    rw [ordering_ascending (FunctionTable.lookup?_eq_some_iff.mpr hf), vector_eq _ hne,
      mapM_readElement_eq_ok_iff.mpr hx]
    rfl

theorem FirstBad.ne_nil (h : FirstBad n elements e) : elements ≠ [] := by
  obtain ⟨front, bad, more, rfl, -⟩ := h
  exact List.append_ne_nil_of_right_ne_nil _ (List.cons_ne_nil _ _)

theorem ordering_of_fault (h : OrderFault t item e) : ordering t item = .error e := by
  cases h with
  | unknown column elements direction hf =>
    exact ordering_unknown (FunctionTable.lookup?_eq_none_iff.mpr hf) column elements direction
  | descending column elements hf =>
    exact ordering_descending (FunctionTable.lookup?_eq_some_iff.mpr hf) column elements
  | empty column hf =>
    rw [ordering_ascending (FunctionTable.lookup?_eq_some_iff.mpr hf)]
    rfl
  | element column hf hbad =>
    rw [ordering_ascending (FunctionTable.lookup?_eq_some_iff.mpr hf), vector_eq _ hbad.ne_nil,
      mapM_readElement_eq_error_iff.mpr hbad]
    rfl

/-- An ordering stands for something or has a fault. -/
theorem resolves_or_fault (t : FunctionTable) (item : OrderItem) :
    (∃ o, Resolves t item o) ∨ ∃ e, OrderFault t item e := by
  cases item with
  | column name direction => exact .inl ⟨_, .column name direction⟩
  | distance function column elements direction =>
    cases hf : t.lookup? function with
    | none => exact .inr ⟨_, .unknown column elements direction (FunctionTable.lookup?_eq_none_iff.mp hf)⟩
    | some f =>
      have hfinds := FunctionTable.lookup?_eq_some_iff.mp hf
      cases direction with
      | descending => exact .inr ⟨_, .descending column elements hfinds⟩
      | ascending =>
        by_cases hne : elements = []
        · subst hne
          exact .inr ⟨_, .empty column hfinds⟩
        · cases hxs : elements.zipIdx.mapM readElement with
          | ok xs => exact .inl ⟨_, .distance column hfinds hne (mapM_readElement_eq_ok_iff.mp hxs)⟩
          | error e => exact .inr ⟨e, .element column hfinds (mapM_readElement_eq_error_iff.mp hxs)⟩

theorem ordering_eq_ok_iff : ordering t item = .ok o ↔ Resolves t item o := by
  refine ⟨fun h => ?_, ordering_of_resolves⟩
  rcases resolves_or_fault t item with ⟨o', ho⟩ | ⟨e, he⟩
  · rw [ordering_of_resolves ho] at h
    cases h
    exact ho
  · rw [ordering_of_fault he] at h
    cases h

theorem ordering_eq_error_iff : ordering t item = .error e ↔ OrderFault t item e := by
  refine ⟨fun h => ?_, ordering_of_fault⟩
  rcases resolves_or_fault t item with ⟨o, ho⟩ | ⟨e', he⟩
  · rw [ordering_of_resolves ho] at h
    cases h
  · rw [ordering_of_fault he] at h
    cases h
    exact he

/-- What a limit stands for. Only a run of digits counts; anything else is no limit. -/
inductive Counts : Option Limit → Option Nat → List LimitWarning → Prop where
  | absent : Counts none none []
  | missing : Counts (some ⟨none⟩) none [.missing]
  | other (hd : Decimal.isDigits token.toList = false) : Counts (some ⟨some token⟩) none [.notANumber]
  | rows (hd : Decimal.isDigits token.toList = true) (hn : Decimal.digitsValue token.toList < 2 ^ 63) :
      Counts (some ⟨some token⟩) (some (Decimal.digitsValue token.toList)) []

/-- More rows than there are signed numbers of 64 bits. -/
inductive LimitFault : Option Limit → QueryError → Prop where
  | tooLarge (hd : Decimal.isDigits token.toList = true) (hn : 2 ^ 63 ≤ Decimal.digitsValue token.toList) :
      LimitFault (some ⟨some token⟩) (.limitOutOfRange token)

def limitOf : Option Limit → Except QueryError (Option Nat × List LimitWarning)
  | none => .ok (none, [])
  | some l => limit l

theorem Counts.lt (h : Counts l (some n) ws) : n < 2 ^ 63 := by
  cases h with
  | rows hd hn => exact hn

theorem limitOf_of_counts (h : Counts l n ws) : limitOf l = .ok (n, ws) := by
  cases h with
  | absent => rfl
  | missing => rfl
  | other hd => simp only [limitOf, limit, hd, Bool.not_false, if_true]
  | rows hd hn =>
    have hread := Decimal.boundedValue?_eq_some_iff.mpr ⟨rfl, Nat.le_sub_one_of_lt hn⟩
    simp only [limitOf, limit, hd, Bool.not_true, Bool.false_eq_true, if_false, largestLimit, hread]

theorem limitOf_of_fault (h : LimitFault l e) : limitOf l = .error e := by
  cases h with
  | tooLarge hd hn =>
    have hread := Decimal.boundedValue?_eq_none_iff.mpr (Nat.lt_of_lt_of_le (show largestLimit < 2 ^ 63 by decide) hn)
    simp only [limitOf, limit, hd, Bool.not_true, Bool.false_eq_true, if_false, hread]

theorem counts_or_fault (l : Option Limit) : (∃ n ws, Counts l n ws) ∨ ∃ e, LimitFault l e := by
  match l with
  | none => exact .inl ⟨_, _, .absent⟩
  | some ⟨none⟩ => exact .inl ⟨_, _, .missing⟩
  | some ⟨some token⟩ =>
    cases hd : Decimal.isDigits token.toList with
    | false => exact .inl ⟨_, _, .other hd⟩
    | true =>
      by_cases hn : Decimal.digitsValue token.toList < 2 ^ 63
      · exact .inl ⟨_, _, .rows hd hn⟩
      · exact .inr ⟨_, .tooLarge hd (Nat.not_lt.mp hn)⟩

/-- The text of an operand that has `k` placeholders before it. -/
def HasText (args : List String) (k : Nat) : Operand → String → Prop
  | .literal s, text => text = s
  | .placeholder, text => args[k]? = some text

/-- One comparison for each condition, in the same order; each placeholder has the argument of its own number. -/
structure Binds (conditions : List Condition) (args : List String) (ps : List Predicate) : Prop where
  length : ps.length = conditions.length
  each : ∀ i c p, conditions[i]? = some c → ps[i]? = some p → p.column = c.column ∧ p.op = c.op ∧
    HasText args ((conditions.take i).countP (·.operand == .placeholder)) c.operand p.value

theorem Binds.nil (args : List String) : Binds [] args [] :=
  ⟨rfl, nofun⟩

theorem Binds.cons_literal (h : Binds conditions args ps) (column : String) (op : Comparison) (text : String) :
    Binds (⟨column, op, .literal text⟩ :: conditions) args (⟨column, op, text⟩ :: ps) := by
  refine ⟨congrArg (· + 1) h.length, ?_⟩
  intro i c p hc hp
  cases i with
  | zero =>
    cases hc
    cases hp
    exact ⟨rfl, rfl, rfl⟩
  | succ i => exact h.each i c p hc hp

theorem Binds.cons_placeholder (h : Binds conditions args ps) (column : String) (op : Comparison) (arg : String) :
    Binds (⟨column, op, .placeholder⟩ :: conditions) (arg :: args) (⟨column, op, arg⟩ :: ps) := by
  refine ⟨congrArg (· + 1) h.length, ?_⟩
  intro i c p hc hp
  cases i with
  | zero =>
    cases hc
    cases hp
    exact ⟨rfl, rfl, rfl⟩
  | succ i =>
    obtain ⟨hcolumn, hop, htext⟩ := h.each i c p hc hp
    refine ⟨hcolumn, hop, ?_⟩
    rw [List.take_succ_cons, List.countP_cons_of_pos rfl]
    cases ho : c.operand with
    | literal s =>
      rw [ho] at htext
      exact htext
    | placeholder =>
      rw [ho] at htext
      exact htext

theorem predicates_binds (h : conditions.countP (·.operand == .placeholder) = args.length) :
    Binds conditions args (predicates conditions args) := by
  fun_induction predicates conditions args with
  | case1 args => exact .nil args
  | case2 column op text more args ih => exact (ih h).cons_literal column op text
  | case3 column op more arg args ih =>
    rw [List.countP_cons_of_pos rfl] at h
    exact (ih (Nat.succ.inj h)).cons_placeholder column op arg
  | case4 column op more ih =>
    rw [List.countP_cons_of_pos rfl] at h
    cases h

end Request.OfQuery

open Request.OfQuery

namespace Sql.Query

theorem toRequest_of_count {q : Query} (h : q.placeholderCount ≠ args.length) (t : FunctionTable) :
    q.toRequest args t = .error (.argumentCount q.placeholderCount args.length) :=
  if_pos h

theorem toRequest_eq {q : Query} (h : q.placeholderCount = args.length) (t : FunctionTable) :
    q.toRequest args t = (q.order.mapM (ordering t)).bind fun o => (limitOf q.limit).bind fun l =>
      .ok ⟨⟨q.table, columns q.projection, predicates q.conditions args, o, l.1⟩, l.2⟩ := by
  rw [toRequest, if_neg (not_not_intro h)]
  cases q.order.mapM (ordering t) with
  | error e => rfl
  | ok o =>
    cases hl : q.limit with
    | none => rfl
    | some l => rfl

/-- Whether a query with these arguments stands for a request. -/
structure Translates (q : Query) (args : List String) (t : FunctionTable) : Prop where
  count : q.placeholderCount = args.length
  order : ∀ item ∈ q.order, ∃ o, Resolves t item o
  limit : ∃ n ws, Counts q.limit n ws

/-- What is wrong with a query and its arguments: each fault only where those above it are not. -/
inductive Fault (q : Query) (args : List String) (t : FunctionTable) : QueryError → Prop where
  | count (h : q.placeholderCount ≠ args.length) : Fault q args t (.argumentCount q.placeholderCount args.length)
  | order (hc : q.placeholderCount = args.length) (ho : q.order = some item) (h : OrderFault t item e) :
      Fault q args t e
  | limit (hc : q.placeholderCount = args.length) (ho : ∀ item ∈ q.order, ∃ o, Resolves t item o)
      (h : LimitFault q.limit e) : Fault q args t e

/-- The request of a query, part by part. -/
structure Yields (q : Query) (args : List String) (t : FunctionTable) (p : Prepared) : Prop where
  table : p.request.table = q.table
  columns : match q.projection with
    | .all => p.request.columns = none
    | .columns names => p.request.columns = some names
  predicates : Binds q.conditions args p.request.predicates
  ordering : Option.Rel (Resolves t) q.order p.request.ordering
  limit : Counts q.limit p.request.limit p.warnings

theorem mapM_ordering {item : Option OrderItem} (h : ∀ i ∈ item, ∃ o, Resolves t i o) :
    ∃ o, Option.Rel (Resolves t) item o ∧ item.mapM (ordering t) = .ok o := by
  cases item with
  | none => exact ⟨none, .none, rfl⟩
  | some item =>
    obtain ⟨o, ho⟩ := h item rfl
    refine ⟨some o, .some ho, ?_⟩
    rw [Option.mapM_some, ordering_of_resolves ho]
    rfl

theorem Translates.yields {q : Query} (h : q.Translates args t) :
    ∃ p, q.toRequest args t = .ok p ∧ q.Yields args t p := by
  obtain ⟨o, hrel, ho⟩ := mapM_ordering h.order
  obtain ⟨n, ws, hl⟩ := h.limit
  refine ⟨⟨⟨q.table, Request.OfQuery.columns q.projection, Request.OfQuery.predicates q.conditions args, o, n⟩, ws⟩,
    ?_, rfl, ?_, predicates_binds h.count, hrel, hl⟩
  · rw [toRequest_eq h.count, ho, limitOf_of_counts hl]
    rfl
  · cases q.projection with
    | all => rfl
    | columns names => rfl

theorem Fault.toRequest {q : Query} (h : q.Fault args t e) : q.toRequest args t = .error e := by
  cases h with
  | count h => exact toRequest_of_count h t
  | order hc ho hf =>
    rw [toRequest_eq hc, ho, Option.mapM_some, ordering_of_fault hf]
    rfl
  | limit hc ho hf =>
    obtain ⟨o, -, hok⟩ := mapM_ordering ho
    rw [toRequest_eq hc, hok, limitOf_of_fault hf]
    rfl

/-- A query stands for a request or has a first fault. -/
theorem translates_or_fault (q : Query) (args : List String) (t : FunctionTable) :
    q.Translates args t ∨ ∃ e, q.Fault args t e := by
  by_cases hc : q.placeholderCount = args.length
  · by_cases ho : ∀ item ∈ q.order, ∃ o, Resolves t item o
    · rcases counts_or_fault q.limit with hl | ⟨e, hl⟩
      · exact .inl ⟨hc, ho, hl⟩
      · exact .inr ⟨e, .limit hc ho hl⟩
    · simp only [not_forall] at ho
      obtain ⟨item, hitem, hnone⟩ := ho
      rcases resolves_or_fault t item with hsome | ⟨e, hf⟩
      · exact absurd hsome hnone
      · exact .inr ⟨e, .order hc hitem hf⟩
  · exact .inr ⟨_, .count hc⟩

theorem toRequest_eq_error_iff {q : Query} : q.toRequest args t = .error e ↔ q.Fault args t e := by
  refine ⟨fun h => ?_, Fault.toRequest⟩
  rcases q.translates_or_fault args t with hq | ⟨e', hf⟩
  · obtain ⟨p, hp, -⟩ := hq.yields
    rw [hp] at h
    cases h
  · rw [hf.toRequest] at h
    cases h
    exact hf

theorem toRequest_ok {q : Query} (h : q.toRequest args t = .ok p) : q.Translates args t ∧ q.Yields args t p := by
  rcases q.translates_or_fault args t with hq | ⟨e, hf⟩
  · obtain ⟨p', hp, hy⟩ := hq.yields
    rw [hp] at h
    cases h
    exact ⟨hq, hy⟩
  · rw [hf.toRequest] at h
    cases h

theorem Yields.vector {q : Query} (h : q.Yields args t p) (ho : p.request.ordering = some (.vector v)) :
    ∃ f ∈ t.entries, v.metric = f.metric ∧ v.native = f.native ∧
      ∃ elements, List.Forall₂ IsElement elements v.vector := by
  have hrel := h.ordering
  generalize q.order = item at hrel
  rw [ho] at hrel
  cases hrel with
  | some hresolves =>
    cases hresolves with
    | distance column hf hne hxs =>
      obtain ⟨newer, older, heq, -⟩ := hf
      refine ⟨_, ?_, rfl, rfl, _, hxs⟩
      rw [heq]
      exact List.mem_append_right newer List.mem_cons_self

theorem Yields.limit_lt {q : Query} (h : q.Yields args t p) (hn : n ∈ p.request.limit) : n < 2 ^ 63 := by
  have hcounts := h.limit
  rw [hn] at hcounts
  exact hcounts.lt

end Sql.Query

theorem Request.ofText_of_parse {q : Query} (h : Query.parse s = .ok q) (args : List String) (t : FunctionTable) :
    Request.ofText s args t = q.toRequest args t := by
  rw [ofText, h]
  rfl

/-- A request that is read from a text is that of a query. -/
theorem Request.exists_yields (h : Request.ofText s args t = .ok p) :
    ∃ q, Query.parse s = .ok q ∧ q.Yields args t p := by
  cases hq : Query.parse s with
  | error e =>
    rw [ofText, hq] at h
    cases h
  | ok q =>
    rw [ofText_of_parse hq] at h
    exact ⟨q, rfl, (Query.toRequest_ok h).2⟩

end QueryGateway
