import QueryGateway.Proofs.Sql.Parts

namespace QueryGateway.Sql
set_option autoImplicit true

open Pattern

/-- The pairs of several items, one item after the other. -/
inductive Each (B : List Pair → α → Prop) : List Pair → List α → Prop
  | nil : Each B [] []
  | cons (h : B found a) (hs : Each B more as) : Each B (found ++ more) (a :: as)

def Pattern.Consumes (a : Pattern) : Prop :=
  ∀ cs found rest, a.read .spaced cs = some (found, rest) → rest.length < cs.length

namespace Pattern.Consumes

theorem seq {a b : Pattern} (ha : a.Consumes) : (a >> b).Consumes := by
  intro cs found rest h
  rw [read_seq] at h
  obtain ⟨⟨first, cs'⟩, h₁, h⟩ := Option.bind_eq_some_iff.mp h
  obtain ⟨⟨more, rest'⟩, h₂, heq⟩ := Option.bind_eq_some_iff.mp h
  cases heq
  have hle := (read_splits b .spaced _ _ _ h₂).length_le
  exact Nat.lt_of_le_of_lt (hle.trans (length_skipSpaces_le cs')) (ha _ _ _ h₁)

theorem mark {w : String} (h : w.toList = [c]) : (text w).Consumes := by
  intro cs found rest hr
  rw [read_mark h] at hr
  obtain ⟨rest', hm, heq⟩ := Option.map_eq_some_iff.mp hr
  cases heq
  rw [mark?_eq_some_iff.mp hm]
  exact Nat.lt_succ_self _

theorem keyword {w : String} (hw : w ∈ reservedWords) (r : Rule) : (Grammar.keyword r w).Consumes := by
  intro cs found rest hr
  rw [read_keyword hw] at hr
  obtain ⟨rest', hk, heq⟩ := Option.map_eq_some_iff.mp hr
  cases heq
  obtain ⟨front, rfl, hf, -⟩ := (keyword?_eq_some_iff hw).mp hk
  have hne : front ≠ [] := by
    rintro rfl
    exact reservedWords_ne_nil w hw hf.symm
  have hpos := List.length_pos_iff.mpr hne
  rw [List.length_append]
  omega

end Pattern.Consumes

theorem skipSpaces_skipSpaces (cs : List Char) : skipSpaces (skipSpaces cs) = skipSpaces cs :=
  skipSpaces_of_stops (.of_dropWhile isSpace cs)

section

variable {a b : Pattern} {p : List Char → Option (α × List Char)} {B : List Pair → α → Prop}

theorem reads_repeated (hb : b.Consumes) (hp : Shortens p) (h : ∀ cs, Reads B (b.read .spaced cs) (p cs))
    (hlen : cs.length ≤ bound) (hcs : skipSpaces cs = skipSpaces cs') :
    Reads (Each B) (((between .spaced).andThen (b.read .spaced)).repeated bound cs) (some (many p cs')) := by
  induction bound generalizing cs cs' with
  | zero =>
    have hnil := List.eq_nil_of_length_eq_zero (Nat.le_zero.mp hlen)
    have hnone : p (skipSpaces cs') = none := by
      rw [← hcs, hnil, Option.eq_none_iff_forall_ne_some]
      rintro ⟨v, rest⟩ hv
      exact Nat.not_lt_zero _ (hp _ _ _ hv)
    rw [many_none hnone]
    exact .both .nil hcs
  | succ bound ih =>
    have hitem := h (skipSpaces cs)
    have hstep : (between .spaced).andThen (b.read .spaced) cs = b.read .spaced (skipSpaces cs) :=
      between_andThen .spaced _ cs
    simp only [Reading.repeated, hstep]
    cases hread : b.read .spaced (skipSpaces cs) with
    | none =>
      rw [hread] at hitem
      have hnone := hitem.eq_none
      rw [hcs] at hnone
      rw [many_none hnone]
      exact .both .nil hcs
    | some found =>
      obtain ⟨found, rest⟩ := found
      have hlt := Nat.lt_of_lt_of_le (hb _ _ _ hread) (length_skipSpaces_le cs)
      rw [hread] at hitem
      obtain ⟨v, rest', hv, hB, hr⟩ := hitem.exists_value
      rw [hcs] at hv
      obtain ⟨more, left, hmore, hs, hleft⟩ :=
        (ih (Nat.le_of_lt_succ (Nat.lt_of_lt_of_le hlt hlen)) hr).exists_found
      simp only [hlt, ↓reduceIte, hmore, Option.map_some, hp.many hv]
      exact .both (.cons hB hs) hleft

theorem reads_star (hb : b.Consumes) (hp : Shortens p) (h : ∀ cs, Reads B (b.read .spaced cs) (p cs))
    (hcs : skipSpaces cs = skipSpaces cs') :
    Reads (Each B) ((star b).read .spaced (skipSpaces cs)) (some (many p cs')) := by
  have hitem := h (skipSpaces cs)
  rw [read_star, Reading.andThen]
  cases hread : b.read .spaced (skipSpaces cs) with
  | none =>
    rw [hread] at hitem
    have hnone := hitem.eq_none
    rw [hcs] at hnone
    rw [many_none hnone]
    exact .both .nil ((skipSpaces_skipSpaces cs).trans hcs)
  | some found =>
    obtain ⟨found, rest⟩ := found
    rw [hread] at hitem
    obtain ⟨v, rest', hv, hB, hr⟩ := hitem.exists_value
    rw [hcs] at hv
    obtain ⟨more, left, hmore, hs, hleft⟩ :=
      (reads_repeated hb hp h (Nat.le_of_lt (hb _ _ _ hread)) hr).exists_found
    simp only [Option.bind_eq_bind, Option.bind_some, hmore, hp.many hv]
    exact .both (.cons hB hs) hleft

theorem reads_separated {sep : List Char → Option (List Char)} (hfirst : Reads B (a.read .spaced cs) (p cs))
    (hb : b.Consumes) (hp : Shortens fun cs => do p (skipSpaces (← sep cs)))
    (h : ∀ cs, Reads B (b.read .spaced cs) (do p (skipSpaces (← sep cs)))) :
    Reads (Each B) ((a >> star b).read .spaced cs) (separated p sep cs) := by
  rw [read_seq, separated, Option.bind_eq_bind]
  apply hfirst.bind
  intro found v rest rest' hB hr
  obtain ⟨more, left, hmore, hs, hleft⟩ := (reads_star hb hp h hr).exists_found
  simp only [Spacing.skip, hmore, Option.bind_some]
  exact .both (.cons hB hs) hleft

end

theorem read_seq_mark {w : String} (h : w.toList = [c]) (a : Pattern) (cs : List Char) :
    (text w >> a).read .spaced cs = (mark? c cs).bind fun rest => a.read .spaced (skipSpaces rest) := by
  rw [read_seq, read_mark h]
  cases mark? c cs with
  | none => rfl
  | some rest => exact Option.bind_fun_some _

theorem reads_after_keyword {w : String} {a : Pattern} {p : List Char → Option (α × List Char)}
    {B C : List Pair → α → Prop} (hw : w ∈ reservedWords) (h : ∀ cs, Reads B (a.read .spaced cs) (p cs))
    (hC : ∀ k found v, k.rule = r → B found v → C (k :: found) v) (cs : List Char) :
    Reads C ((Grammar.keyword r w >> a).read .spaced cs) (do p (skipSpaces (← keyword? w cs))) := by
  rw [read_seq, read_keyword hw]
  cases keyword? w cs with
  | none => exact .neither
  | some rest =>
    have hrest := h (skipSpaces rest)
    simp only [Option.map_some, Option.bind_some, Spacing.skip, Option.bind_eq_bind]
    generalize Pattern.read a .spaced (skipSpaces rest) = x at hrest ⊢
    generalize p (skipSpaces rest) = y at hrest ⊢
    cases hrest with
    | neither => exact .neither
    | both hB hr => exact .both (hC _ _ _ rfl hB) hr

theorem reads_name (cs : List Char) : Reads (Holds .name) (Grammar.name.read .spaced cs) (name? cs) := by
  rw [read_name]
  exact .of_map _

theorem reads_element (cs : List Char) :
    Reads (Holds .element) (Grammar.element.read .spaced cs) (element? cs) := by
  rw [read_element]
  exact .of_map _

theorem Each.strings (h : Each (Holds r) found ss) : found.map Pair.string = ss := by
  induction h with
  | nil => rfl
  | cons h hs ih =>
    rw [h, List.map_append, ih, List.map_singleton, Pair.string_mk, List.singleton_append]

theorem reads_list {a : Pattern} {p : List Char → Option (String × List Char)} (hp : Shortens p)
    (h : ∀ cs, Reads (Holds r) (a.read .spaced cs) (p cs)) (cs : List Char) :
    Reads (fun found ss => found.map Pair.string = ss) ((a >> star (text "," >> a)).read .spaced cs)
      (separated p (mark? ',') cs) := by
  refine (reads_separated (h cs) (.seq (.mark rfl)) (hp.after fun _ _ => length_of_mark?) ?_).mono
    fun _ _ => Each.strings
  intro cs
  rw [read_seq_mark (c := ',') rfl]
  exact .bind_same fun rest _ => h _

theorem reads_projection (cs : List Char) :
    Reads (Builds .selectList Build.projection) (Grammar.selectList.read .spaced cs) (Read.projection cs) := by
  apply Reads.rule
  rw [read_alt, Read.projection, Grammar.wildcard, read_rule, read_mark (c := '*') rfl]
  cases mark? '*' cs with
  | some rest =>
    refine .both ?_ rfl
    intro text
    rfl
  | none =>
    have hnames : Reads (Builds .columnList fun p => .ok (p.inner.map Pair.string))
        (Grammar.columnList.read .spaced cs) (separated name? (mark? ',') cs) := by
      apply Reads.rule
      refine (reads_list name?_shortens reads_name cs).mono ?_
      intro found ss h text
      exact congrArg Except.ok h
    rw [Option.map_none, Option.map_none, Option.none_or]
    refine hnames.map ?_
    rintro _ ss ⟨p, rfl, hp, hss⟩ text
    cases hss
    simp only [Build.projection, hp]

theorem reads_condition (cs : List Char) :
    Reads (Builds .condition Build.condition) (Grammar.condition.read .spaced cs) (Read.condition cs) := by
  apply Reads.rule
  rw [read_seq, Read.condition]
  apply (reads_name cs).bind
  rintro _ column rest rest' rfl hr
  simp only [Spacing.skip, hr, read_seq, Option.bind_assoc, Option.bind_some]
  apply (reads_comparison _).bind
  rintro _ op rest rest' ⟨p, rfl, hp, hop⟩ hr
  simp only [hr]
  apply (reads_operand _).bind
  rintro _ o rest rest' ⟨q, rfl, hq, ho⟩ hr
  refine .both ?_ hr
  intro text
  simp only [Build.condition, Build.expect, hp, hq, hop, ho, List.nil_append, List.cons_append, ↓reduceIte, bind,
    Except.bind, pure, Except.pure, Pair.string_mk]

/-- The conditions are built of the pairs of conditions among others. -/
def Collects (found : List Pair) (cs : List Condition) : Prop :=
  (found.filter (·.rule = .condition)).mapM Build.condition = .ok cs

namespace Collects

theorem single (hp : p.rule = .condition) (h : Build.condition p = .ok c) : Collects [p] [c] := by
  have hfilter : [p].filter (·.rule = .condition) = [p] := List.filter_cons_of_pos (decide_eq_true hp)
  rw [Collects, hfilter, List.mapM_cons, h]
  rfl

theorem cons (h : Collects found cs) (hk : k.rule ≠ .condition) : Collects (k :: found) cs := by
  have hfilter : (k :: found).filter (·.rule = .condition) = found.filter (·.rule = .condition) :=
    List.filter_cons_of_neg (by rwa [decide_eq_true_eq])
  rw [Collects, hfilter]
  exact h

theorem of_each (h : Each (fun found c => Collects found [c]) found cs) : Collects found cs := by
  induction h with
  | nil => rfl
  | cons h hs ih =>
    rw [Collects, List.filter_append, List.mapM_append, h, ih]
    rfl

end Collects

theorem reads_conditions (cs : List Char) :
    Reads (Builds .whereClause Build.conditions) (Grammar.whereClause.read .spaced cs)
      (do separated Read.condition (keyword? "and") (skipSpaces (← keyword? "where" cs))) := by
  have hcondition (cs : List Char) :
      Reads (fun found c => Collects found [c]) (Grammar.condition.read .spaced cs) (Read.condition cs) := by
    refine (reads_condition cs).mono ?_
    rintro _ c ⟨p, rfl, hp, hc⟩
    exact .single hp hc
  have hand (cs : List Char) :
      Reads (fun found c => Collects found [c])
        ((Grammar.keyword .wordAnd "and" >> Grammar.condition).read .spaced cs)
        (do Read.condition (skipSpaces (← keyword? "and" cs))) := by
    refine reads_after_keyword (by decide) hcondition ?_ cs
    intro k found c hk h
    exact h.cons (by rw [hk]; decide)
  have hlist (cs : List Char) := reads_separated (hcondition cs) (.seq (.keyword (by decide) .wordAnd))
    (condition_shortens.after fun _ _ => length_of_keyword? (w := "and") (by decide)) hand
  apply Reads.rule
  refine reads_after_keyword (by decide) hlist ?_ cs
  intro k found cs hk h text
  exact (Collects.of_each h).cons (by rw [hk]; decide)

theorem build_direction {front : List Char} (hw : w ∈ reservedWords) (hf : front.map Char.toLower = w.toList)
    (inner : List Pair) :
    Build.direction [⟨.direction, front, inner⟩] = if w = "desc" then .descending else .ascending := by
  have hword := isWordChar_of_map_toLower (reservedWords_word w hw) hf
  have hlower : Text.lower (String.ofList front) = w := by
    rw [lower_eq_iff, String.toList_ofList]
    exact hf
  have hsame : Text.sameName (Text.trim (String.ofList front)) "desc" = (w == "desc") := by
    rw [trim_of_word (by rwa [String.toList_ofList]), Text.sameName, hlower]
    rfl
  simp only [Build.direction, List.head?_cons, Option.any_some, Pair.string, hsame, beq_iff_eq]

theorem reads_direction (h : skipSpaces cs = skipSpaces cs') :
    Reads (fun found d => Build.direction found = d) ((opt Grammar.direction).read .spaced (skipSpaces cs))
      (some (Read.direction cs')) := by
  have hpart {w : String} {rest : List Char} (hw : w ∈ reservedWords)
      (hk : keyword? w (skipSpaces cs') = some rest) (inner : List Pair) :
      Build.direction [⟨.direction, Reading.taken (skipSpaces cs') rest, inner⟩] =
        if w = "desc" then .descending else .ascending := by
    obtain ⟨front, hcs, hf, -⟩ := (keyword?_eq_some_iff hw).mp hk
    rw [hcs, taken_append]
    exact build_direction hw hf inner
  rw [read_opt, Grammar.direction, read_rule, read_alt, read_keyword (by decide), read_keyword (by decide), h,
    Read.direction]
  cases hasc : keyword? "asc" (skipSpaces cs') with
  | some rest => exact .both (hpart (by decide) hasc _) rfl
  | none =>
    cases hdesc : keyword? "desc" (skipSpaces cs') with
    | some rest => exact .both (hpart (by decide) hdesc _) rfl
    | none => exact .both rfl (skipSpaces_skipSpaces cs')

theorem reads_vector (cs : List Char) :
    Reads (Builds .vector fun p => .ok (p.inner.map Pair.string)) (Grammar.vector.read .spaced cs)
      (Read.vector cs) := by
  apply Reads.rule
  rw [read_seq_mark (c := '[') rfl, Read.vector]
  apply Reads.bind_same
  intro rest hrest
  rw [read_seq]
  have helements : Reads (fun found ss => found.map Pair.string = ss)
      ((opt (Grammar.element >> star (text "," >> Grammar.element))).read .spaced (skipSpaces rest))
      (some ((separated element? (mark? ',') (skipSpaces rest)).getD ([], skipSpaces rest))) := by
    refine (reads_list element?_shortens reads_element _).optional (f := id) (fun _ _ h => h) rfl ?_ ?_
    · intro ss rest' h
      rw [h]
      rfl
    · intro h
      rw [h]
      rfl
  obtain ⟨found, left, hread, hfound, hleft⟩ := helements.exists_found
  simp only [hread, Option.bind_some, Spacing.skip, hleft, read_mark (w := "]") (c := ']') rfl, Option.bind_eq_bind,
    Option.bind_map]
  apply Reads.bind_same
  intro rest' hrest'
  refine .both ?_ rfl
  intro text
  rw [List.append_nil]
  exact congrArg Except.ok hfound

theorem reads_distance (cs : List Char) :
    Reads (Builds .distanceCall Build.distanceCall) (Grammar.distanceCall.read .spaced cs) (Read.distance cs) := by
  apply Reads.rule
  rw [read_seq, Read.distance]
  apply (reads_name cs).bind
  rintro _ function rest rest' rfl hr
  simp only [Spacing.skip, hr, read_seq_mark (w := "(") (c := '(') rfl, Option.bind_assoc, Option.bind_eq_bind]
  apply Reads.bind_same
  intro rest hrest
  rw [read_seq, Option.bind_assoc]
  apply (reads_name _).bind
  rintro _ column rest rest' rfl hr
  simp only [Spacing.skip, hr, read_seq_mark (w := ",") (c := ',') rfl, Option.bind_assoc]
  apply Reads.bind_same
  intro rest hrest
  rw [read_seq, Option.bind_assoc]
  apply (reads_vector _).bind
  rintro _ elements rest rest' ⟨p, rfl, hp, helements⟩ hr
  simp only [Spacing.skip, hr, read_seq_mark (w := ")") (c := ')') rfl, Option.bind_assoc]
  apply Reads.bind_same
  intro rest hrest
  have hdirection := reads_direction (rfl : skipSpaces rest = skipSpaces rest)
  obtain ⟨found, left, hread, hfound, hleft⟩ := hdirection.exists_found
  simp only [hread, Option.bind_some]
  refine .both ?_ hleft
  intro text
  cases helements
  simp only [Build.distanceCall, Build.expect, hp, List.nil_append, List.cons_append, ↓reduceIte, bind, Except.bind,
    pure, Except.pure, Pair.string_mk, hfound]

theorem reads_column (cs : List Char) :
    Reads (Builds .columnOrder Build.columnOrder) (Grammar.columnOrder.read .spaced cs) (Read.column cs) := by
  apply Reads.rule
  rw [read_seq, Read.column]
  apply (reads_name cs).bind
  rintro _ column rest rest' rfl hr
  obtain ⟨found, left, hread, hfound, hleft⟩ := (reads_direction hr).exists_found
  simp only [Spacing.skip, hread, Option.bind_some]
  refine .both ?_ hleft
  intro text
  simp only [Build.columnOrder, Build.expect, List.cons_append, List.nil_append, ↓reduceIte, bind, Except.bind, pure,
    Except.pure, Pair.string_mk, hfound]

theorem reads_orderItem (cs : List Char) :
    Reads (Builds .orderItem Build.orderItem) (Grammar.orderItem.read .spaced cs)
      (Read.distance cs <|> Read.column cs) := by
  apply Reads.rule
  rw [read_alt, Option.orElse_eq_orElse, Option.orElse_eq_or]
  refine ((reads_distance cs).mono ?_).or ((reads_column cs).mono ?_)
  · rintro _ item ⟨p, rfl, hp, hitem⟩ text
    simp only [Build.orderItem, hp, hitem]
  · rintro _ item ⟨p, rfl, hp, hitem⟩ text
    simp only [Build.orderItem, hp, hitem]

theorem reads_order (cs : List Char) :
    Reads (Builds .orderClause Build.order) (Grammar.orderClause.read .spaced cs) (do
      let cs ← keyword? "order" cs
      let cs := skipSpaces (← keyword? "by" (skipSpaces cs))
      Read.distance cs <|> Read.column cs) := by
  apply Reads.rule
  have hby (cs : List Char) :
      Reads (fun found item => ∃ k p, found = [k, p] ∧ k.rule = .wordBy ∧ p.rule = .orderItem ∧
          Build.orderItem p = .ok item)
        ((Grammar.keyword .wordBy "by" >> Grammar.orderItem).read .spaced cs)
        (do (fun cs => Read.distance cs <|> Read.column cs) (skipSpaces (← keyword? "by" cs))) := by
    refine reads_after_keyword (by decide) reads_orderItem ?_ cs
    rintro k _ item hk ⟨p, rfl, hp, hitem⟩
    exact ⟨k, p, rfl, hk, hp, hitem⟩
  refine reads_after_keyword (by decide) hby ?_ cs
  rintro k _ item hk ⟨k', p, rfl, hk', hp, hitem⟩ text
  simp only [Build.order, Build.expect, hk, hk', hp, hitem, bind, Except.bind, ↓reduceIte, reduceCtorEq]

theorem reads_limit (cs : List Char) :
    Reads (Builds .limitClause fun p => .ok (Build.limit p)) (Grammar.limitClause.read .spaced cs) (do
      let cs ← keyword? "limit" cs
      match limitToken? (skipSpaces cs) with
      | none => some (⟨none⟩, cs)
      | some (token, cs) => some (⟨some token⟩, cs)) := by
  apply Reads.rule
  rw [read_seq, read_keyword (by decide), Option.bind_map]
  apply Reads.bind_same
  intro rest hrest
  simp only [Function.comp_apply, Spacing.skip, read_opt, read_limitValue]
  cases limitToken? (skipSpaces rest) with
  | none =>
    refine .both ?_ (skipSpaces_skipSpaces rest)
    intro text
    rfl
  | some found =>
    refine .both ?_ rfl
    intro text
    exact congrArg (fun s => Except.ok (Limit.mk (some s))) String.ofList_toList

def Read.source (cs : List Char) : Option (String × List Char) := do
  name? (skipSpaces (← keyword? "from" cs))

theorem reads_from (cs : List Char) :
    Reads (Builds .fromClause Build.table) (Grammar.fromClause.read .spaced cs) (Read.source cs) := by
  apply Reads.rule
  refine reads_after_keyword (by decide) reads_name ?_ cs
  rintro k _ table hk rfl text
  simp only [Build.table, Build.expect, hk, reduceCtorEq, ↓reduceIte, bind, Except.bind, pure, Except.pure,
    Pair.string_mk]

/-- What the clauses among some pairs make of those that were met before. -/
def Meets (found : List Pair) (met met' : Build.Clauses) : Prop :=
  found.foldlM Build.clause met = .ok met'

namespace Meets

theorem nil (met : Build.Clauses) : Meets [] met met :=
  rfl

theorem append (h : Meets found met met') (h' : Meets found' met' met'') : Meets (found ++ found') met met'' := by
  rw [Meets, List.foldlM_append, h]
  exact h'

theorem single (h : Build.clause met p = .ok met') : Meets [p] met met' := by
  rw [Meets, List.foldlM_cons, h]
  rfl

end Meets

theorem reads_whereOption (cs : List Char) :
    Reads (fun found conditions => ∀ met : Build.Clauses, met.conditions = [] →
        Meets found met { met with conditions := conditions })
      ((opt Grammar.whereClause).read .spaced cs) (some (Read.conditions cs)) := by
  refine (reads_conditions cs).optional (d := []) (f := id) ?_ ?_ ?_ ?_
  · rintro _ conditions ⟨p, rfl, hp, h⟩ met -
    apply Meets.single
    simp only [Build.clause, hp, h]
    rfl
  · rintro met hmet
    rw [← hmet]
    exact .nil met
  · intro conditions rest h
    rw [Read.conditions, h]
    rfl
  · intro h
    rw [Read.conditions, h]
    rfl

theorem reads_orderOption (cs : List Char) :
    Reads (fun found order => ∀ met : Build.Clauses, met.order = none → Meets found met { met with order := order })
      ((opt Grammar.orderClause).read .spaced cs) (some (Read.order cs)) := by
  refine (reads_order cs).optional (d := none) (f := some) ?_ ?_ ?_ ?_
  · rintro _ item ⟨p, rfl, hp, h⟩ met -
    apply Meets.single
    simp only [Build.clause, hp, h]
    rfl
  · rintro met hmet
    rw [← hmet]
    exact .nil met
  · intro item rest h
    simp only [Read.order, h]
  · intro h
    simp only [Read.order, h]

theorem reads_limitOption (cs : List Char) :
    Reads (fun found limit => ∀ met : Build.Clauses, met.limit = none → Meets found met { met with limit := limit })
      ((opt Grammar.limitClause).read .spaced cs) (some (Read.limit cs)) := by
  refine (reads_limit cs).optional (d := none) (f := some) ?_ ?_ ?_ ?_
  · rintro _ limit ⟨p, rfl, hp, h⟩ met -
    apply Meets.single
    cases h
    simp only [Build.clause, hp]
  · rintro met hmet
    rw [← hmet]
    exact .nil met
  · intro limit rest h
    unfold Read.limit
    cases hk : keyword? "limit" cs with
    | none =>
      rw [hk] at h
      cases h
    | some cs' =>
      simp only [hk, Option.bind_eq_bind, Option.bind_some] at h ⊢
      cases hl : limitToken? (skipSpaces cs') with
      | none =>
        rw [hl] at h
        cases h
        rfl
      | some token =>
        rw [hl] at h
        cases h
        rfl
  · intro h
    unfold Read.limit
    cases hk : keyword? "limit" cs with
    | none => rfl
    | some cs' =>
      simp only [hk, Option.bind_eq_bind, Option.bind_some] at h
      split at h
      · cases h
      · cases h

def Read.statement (cs : List Char) : Option (Query × List Char) := do
  let cs ← keyword? "select" cs
  let (projection, cs) ← projection (skipSpaces cs)
  let (table, cs) ← source (skipSpaces cs)
  let (conditions, cs) := conditions (skipSpaces cs)
  let (order, cs) := order (skipSpaces cs)
  let (limit, cs) := limit (skipSpaces cs)
  return (⟨projection, table, conditions, order, limit⟩, cs)

theorem Read.query_eq (cs : List Char) :
    Read.query cs = (Read.statement (skipSpaces cs)).bind fun found =>
      if (skipSpaces ((mark? ';' (skipSpaces found.2)).getD (skipSpaces found.2))).isEmpty then some found.1
      else none := by
  simp only [Read.query, Read.statement, Read.source, Option.bind_eq_bind, Option.bind_assoc]
  rfl

theorem reads_statement (cs : List Char) :
    Reads (Builds .statement Build.statement) (Grammar.statement.read .spaced cs) (Read.statement cs) := by
  apply Reads.rule
  rw [read_seq, read_keyword (by decide), Read.statement, Option.bind_map]
  apply Reads.bind_same
  intro rest hrest
  simp only [Function.comp_apply, Spacing.skip]
  rw [read_seq, Option.bind_assoc]
  apply (reads_projection _).bind
  rintro _ projection rest₁ rest₁' ⟨p, rfl, hp, hprojection⟩ hr₁
  simp only [Spacing.skip, hr₁]
  rw [read_seq, Option.bind_assoc, Option.bind_assoc]
  apply (reads_from _).bind
  rintro _ table rest₂ rest₂' ⟨q, rfl, hq, htable⟩ hr₂
  obtain ⟨wheres, rest₃, hwheres, hconditions, hr₃⟩ := (reads_whereOption (skipSpaces rest₂')).exists_found
  obtain ⟨orders, rest₄, horders, horder, hr₄⟩ :=
    (reads_orderOption (skipSpaces (Read.conditions (skipSpaces rest₂')).2)).exists_found
  obtain ⟨limits, rest₅, hlimits, hlimit, hr₅⟩ :=
    (reads_limitOption (skipSpaces (Read.order (skipSpaces (Read.conditions (skipSpaces rest₂')).2)).2)).exists_found
  simp only [Spacing.skip, hr₂, read_seq, hwheres, hr₃, horders, hr₄, hlimits, Option.bind_some]
  refine .both ?_ hr₅
  intro text
  have hselect : Meets [⟨.wordSelect, Reading.taken cs rest, []⟩] .none .none := .single rfl
  have hcolumns : Meets [p] .none ⟨some projection, none, [], none, none⟩ := by
    apply Meets.single
    simp only [Build.clause, hp, hprojection]
    rfl
  have hfrom : Meets [q] ⟨some projection, none, [], none, none⟩ ⟨some projection, some table, [], none, none⟩ := by
    apply Meets.single
    simp only [Build.clause, hq, htable]
    rfl
  have hmeets := hselect.append (hcolumns.append (hfrom.append
    ((hconditions _ rfl).append ((horder _ rfl).append (hlimit _ rfl)))))
  rw [Meets] at hmeets
  simp only [Build.statement, hmeets]
  rfl

theorem read_ending (cs : List Char) :
    (opt (text ";") >> rule .endOfInput .spaced finish).read .spaced (skipSpaces cs) =
      if (skipSpaces ((mark? ';' (skipSpaces cs)).getD (skipSpaces cs))).isEmpty then
        some ([⟨.endOfInput, [], []⟩], []) else none := by
  have hfinish : ∀ cs : List Char, (rule .endOfInput .spaced finish).read .spaced cs =
      if cs.isEmpty then some ([⟨.endOfInput, [], []⟩], []) else none := by
    intro cs
    cases cs <;> rfl
  rw [read_seq, read_opt, read_mark (c := ';') rfl]
  cases mark? ';' (skipSpaces cs) with
  | none =>
    simp only [Option.map_none, Option.none_or, Option.bind_some, Spacing.skip, hfinish, Option.getD_none]
    split <;> rfl
  | some rest =>
    simp only [Option.map_some, Option.some_or, Option.bind_some, Spacing.skip, hfinish, Option.getD_some]
    split <;> rfl

/-- The grammar matches exactly the texts that are read as queries. Nothing of such a text is left, and the query that
is built from its tree is the one that is read. -/
theorem read_query (cs : List Char) :
    (∃ pairs q, Grammar.query.read .spaced cs = some (pairs, []) ∧ Build.query pairs = .ok q ∧ Read.query cs = some q) ∨
      Grammar.query.read .spaced cs = none ∧ Read.query cs = none := by
  have hstart : Grammar.start.read .spaced cs = some ([], cs) := rfl
  have hstatement := reads_statement (skipSpaces cs)
  rw [Read.query_eq, Grammar.query, read_rule, read_seq, hstart, Option.bind_some, read_seq]
  simp only [Spacing.skip]
  generalize Grammar.statement.read .spaced (skipSpaces cs) = x at hstatement ⊢
  generalize Read.statement (skipSpaces cs) = y at hstatement ⊢
  cases hstatement with
  | neither => exact .inr ⟨rfl, rfl⟩
  | both h hr =>
    obtain ⟨p, rfl, hp, hbuild⟩ := h
    simp only [Option.bind_some, hr, read_ending]
    split
    · refine .inl ⟨_, _, rfl, ?_, rfl⟩
      simp only [Build.query, Build.expect, hp, List.nil_append, List.cons_append, ↓reduceIte, bind, Except.bind,
        hbuild]
    · exact .inr ⟨rfl, rfl⟩

end QueryGateway.Sql
