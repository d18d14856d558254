import QueryGateway.Proofs.Sql.Layout

namespace QueryGateway.Sql
set_option autoImplicit true

namespace Written

theorem word {w : String} (h : Written (.word w :: ts) cs) :
    ∃ rest, keyword? w (skipSpaces cs) = some rest ∧ Written ts rest := by
  obtain ⟨text, rest, hcs, hs, hp, hw⟩ := h.uncons
  exact ⟨rest, (keyword?_eq_some_iff hp).mpr ⟨text, hcs, hs⟩, hw⟩

theorem name (h : Written (.name s :: ts) cs) :
    ∃ rest, name? (skipSpaces cs) = some (s, rest) ∧ Written ts rest := by
  obtain ⟨text, rest, hcs, ⟨rfl, hr⟩, hp, hw⟩ := h.uncons
  exact ⟨rest, name?_eq_some_iff.mpr ⟨hp, hr, hcs⟩, hw⟩

theorem mark (h : Written (.mark c :: ts) cs) :
    ∃ rest, mark? c (skipSpaces cs) = some rest ∧ Written ts rest := by
  obtain ⟨text, rest, hcs, hs, hp, hw⟩ := h.uncons
  have hs : text = [c] := hs
  subst hs
  exact ⟨rest, mark?_eq_some_iff.mpr hcs, hw⟩

theorem element (h : Written (.element s :: ts) cs) :
    ∃ rest, element? (skipSpaces cs) = some (s, rest) ∧ Written ts rest := by
  obtain ⟨text, rest, hcs, ⟨rfl, hr⟩, hp, hw⟩ := h.uncons
  exact ⟨rest, takeSome?_eq_some_iff.mpr ⟨hp.1, hp.2, hr, hcs⟩, hw⟩

theorem limit (h : Written (.limit s :: ts) cs) :
    ∃ rest, limitToken? (skipSpaces cs) = some (s, rest) ∧ Written ts rest := by
  obtain ⟨text, rest, hcs, ⟨rfl, hr⟩, hp, hw⟩ := h.uncons
  exact ⟨rest, takeSome?_eq_some_iff.mpr ⟨hp.1, hp.2, hr, hcs⟩, hw⟩

theorem comparison (h : Written (.comparison op :: ts) cs) :
    ∃ rest, Read.comparison (skipSpaces cs) = some (op, rest) ∧ Written ts rest := by
  obtain ⟨text, rest, hcs, hs, -, hw⟩ := h.uncons
  exact ⟨rest, comparison_eq_some_iff.mpr ⟨text, hcs, hs⟩, hw⟩

theorem operand {o : Operand} (h : Written (o.token :: ts) cs) :
    ∃ rest, Read.operand (skipSpaces cs) = some (o, rest) ∧ Written ts rest := by
  obtain ⟨text, rest, hcs, hs, -, hw⟩ := h.uncons
  exact ⟨rest, operand_eq_some_iff.mpr ⟨text, hcs, hs⟩, hw⟩

end Written

/-- Reserved words and marks, which no other token begins like. -/
def Token.isFixed : Token → Bool
  | .word _ => true
  | .mark _ => true
  | _ => false

namespace Written

theorem no_word {w : String} (h : Written ts cs) (hw : w ∈ reservedWords)
    (hts : ∀ t ∈ ts.head?, t.isFixed = true ∧ t ≠ .word w) : keyword? w (skipSpaces cs) = none := by
  rw [Option.eq_none_iff_forall_ne_some]
  intro rest hk
  have hfront := frontWord_of_keyword? hw hk
  have hne := reservedWords_ne_nil w hw
  cases ts with
  | nil =>
    rw [nil_iff.mp h] at hfront
    exact hne hfront.symm
  | cons t ts =>
    obtain ⟨text, rest, hcs, hs, hp, -⟩ := h.uncons
    obtain ⟨hfixed, hneq⟩ := hts t rfl
    rw [hcs] at hfront
    cases t with
    | word w' =>
      obtain ⟨hlower, hr⟩ := hs
      rw [frontWord_append (isWordChar_of_map_toLower (reservedWords_word w' hp) hlower) hr, hlower] at hfront
      exact hneq (congrArg Token.word (String.toList_inj.mp hfront))
    | mark c =>
      have hs : text = [c] := hs
      subst hs
      have hneg : ¬ isWordChar c = true := by
        rw [isWordChar_of_mem_marks hp]
        exact Bool.false_ne_true
      rw [List.singleton_append, frontWord, List.takeWhile_cons_of_neg hneg] at hfront
      exact hne hfront.symm
    | _ => cases hfixed

theorem no_mark (h : Written ts cs) (hc : isWordChar c = false)
    (hts : ∀ t ∈ ts.head?, t.isFixed = true ∧ t ≠ .mark c) : mark? c (skipSpaces cs) = none := by
  rw [mark?_eq_none_iff]
  intro hhead
  cases ts with
  | nil =>
    rw [nil_iff.mp h] at hhead
    cases hhead
  | cons t ts =>
    obtain ⟨text, rest, hcs, hs, hp, -⟩ := h.uncons
    obtain ⟨hfixed, hneq⟩ := hts t rfl
    rw [hcs] at hhead
    cases t with
    | word w =>
      obtain ⟨c', text, rfl⟩ := List.exists_cons_of_ne_nil (hs.stops hp).1
      cases hhead
      have hword := isWordChar_of_map_toLower (reservedWords_word w hp) hs.1 c List.mem_cons_self
      rw [hc] at hword
      cases hword
    | mark c' =>
      have hs : text = [c'] := hs
      subst hs
      cases hhead
      exact hneq rfl
    | _ => cases hfixed

end Written

def Shortens (p : List Char → Option (α × List Char)) : Prop :=
  ∀ cs a rest, p cs = some (a, rest) → rest.length < cs.length

theorem Shortens.many {p : List Char → Option (α × List Char)} (hp : Shortens p)
    (h : p (skipSpaces cs) = some (a, rest)) : many p cs = (a :: (many p rest).1, (many p rest).2) := by
  have hlt : rest.length < cs.length := Nat.lt_of_lt_of_le (hp _ _ _ h) (length_skipSpaces_le cs)
  rw [Sql.many]
  simp only [h, hlt, ↓reduceIte]

theorem many_none {p : List Char → Option (α × List Char)} (h : p (skipSpaces cs) = none) :
    many p cs = ([], cs) := by
  rw [Sql.many]
  simp only [h]

namespace Written

variable (tokens : α → List Token) {sep : Token} {p : List Char → Option (α × List Char)}
  {s : List Char → Option (List Char)} {ts : List Token}

theorem many (hp : Shortens fun cs => do p (skipSpaces (← s cs)))
    (hread : ∀ a ts cs, Written (tokens a ++ ts) cs → ∃ rest, p (skipSpaces cs) = some (a, rest) ∧ Written ts rest)
    (hsep : ∀ ts cs, Written (sep :: ts) cs → ∃ rest, s (skipSpaces cs) = some rest ∧ Written ts rest)
    (hend : ∀ cs, Written ts cs → s (skipSpaces cs) = none) {more : List α}
    (h : Written (more.flatMap (fun a => sep :: tokens a) ++ ts) cs) :
    ∃ rest, Sql.many (fun cs => do p (skipSpaces (← s cs))) cs = (more, rest) ∧ Written ts rest := by
  induction more generalizing cs with
  | nil =>
    refine ⟨cs, many_none ?_, h⟩
    simp only [hend cs h]
    rfl
  | cons a more ih =>
    rw [List.flatMap_cons, List.cons_append, List.cons_append, List.append_assoc] at h
    obtain ⟨cs₁, hs, h⟩ := hsep _ _ h
    obtain ⟨cs₂, ha, h⟩ := hread _ _ _ h
    obtain ⟨rest, hmany, h⟩ := ih h
    refine ⟨rest, ?_, h⟩
    have hstep : (do p (skipSpaces (← s (skipSpaces cs))) : Option (α × List Char)) = some (a, cs₂) := by
      simp only [hs]
      exact ha
    rw [hp.many hstep, hmany]

theorem separated (hp : Shortens fun cs => do p (skipSpaces (← s cs)))
    (hread : ∀ a ts cs, Written (tokens a ++ ts) cs → ∃ rest, p (skipSpaces cs) = some (a, rest) ∧ Written ts rest)
    (hsep : ∀ ts cs, Written (sep :: ts) cs → ∃ rest, s (skipSpaces cs) = some rest ∧ Written ts rest)
    (hend : ∀ cs, Written ts cs → s (skipSpaces cs) = none) {first : α} {more : List α}
    (h : Written (Token.separate sep ((first :: more).map tokens) ++ ts) cs) :
    ∃ rest, Sql.separated p s (skipSpaces cs) = some (first :: more, rest) ∧ Written ts rest := by
  rw [List.map_cons, Token.separate, List.flatMap_map, List.append_assoc] at h
  obtain ⟨cs₁, ha, h⟩ := hread _ _ _ h
  obtain ⟨rest, hmany, h⟩ := many tokens hp hread hsep hend h
  refine ⟨rest, ?_, h⟩
  simp only [Sql.separated, ha]
  exact congrArg (fun r : List α × List Char => some (first :: r.1, r.2)) hmany

end Written

theorem takeSome?_shortens (p : Char → Bool) : Shortens (takeSome? p) := by
  intro cs s rest h
  obtain ⟨hne, -, -, rfl⟩ := takeSome?_eq_some_iff.mp h
  rw [List.length_append]
  have hpos := List.length_pos_iff.mpr hne
  omega

theorem element?_shortens : Shortens element? :=
  takeSome?_shortens isElementChar

theorem name?_shortens : Shortens name? := by
  intro cs s rest h
  obtain ⟨hn, -, rfl⟩ := name?_eq_some_iff.mp h
  rw [List.length_append]
  have hpos := List.length_pos_iff.mpr hn.identifier.ne_nil
  omega

theorem condition_eq_some_iff :
    Read.condition cs = some (c, rest) ↔ ∃ cs₁ cs₂, name? cs = some (c.column, cs₁) ∧
      Read.comparison (skipSpaces cs₁) = some (c.op, cs₂) ∧
        Read.operand (skipSpaces cs₂) = some (c.operand, rest) := by
  obtain ⟨column, op, operand⟩ := c
  simp only [Read.condition, Option.bind_eq_bind, Option.bind_eq_some_iff, Prod.exists]
  constructor
  · rintro ⟨s, cs₁, h₁, op', cs₂, h₂, o, cs₃, h₃, heq⟩
    cases heq
    exact ⟨cs₁, cs₂, h₁, h₂, h₃⟩
  · rintro ⟨cs₁, cs₂, h₁, h₂, h₃⟩
    exact ⟨column, cs₁, h₁, op, cs₂, h₂, operand, rest, h₃, rfl⟩

theorem condition_shortens : Shortens Read.condition := by
  intro cs c rest h
  obtain ⟨cs₁, cs₂, h₁, h₂, h₃⟩ := condition_eq_some_iff.mp h
  obtain ⟨text₂, hcs₂, -⟩ := comparison_eq_some_iff.mp h₂
  obtain ⟨text₃, hcs₃, -⟩ := operand_eq_some_iff.mp h₃
  have hlt := name?_shortens _ _ _ h₁
  have h₁ := length_skipSpaces_le cs₁
  have h₂ := length_skipSpaces_le cs₂
  rw [hcs₂, List.length_append] at h₁
  rw [hcs₃, List.length_append] at h₂
  omega

theorem Shortens.after {p : List Char → Option (α × List Char)} {s : List Char → Option (List Char)}
    (hp : Shortens p) (hs : ∀ cs rest, s cs = some rest → rest.length ≤ cs.length) :
    Shortens (fun cs => do p (skipSpaces (← s cs))) := by
  intro cs a rest h
  simp only [Option.bind_eq_bind, Option.bind_eq_some_iff] at h
  obtain ⟨cs₁, h₁, h₂⟩ := h
  exact Nat.lt_of_lt_of_le (hp _ _ _ h₂) (Nat.le_trans (length_skipSpaces_le cs₁) (hs _ _ h₁))

theorem length_of_mark? (h : mark? c cs = some rest) : rest.length ≤ cs.length := by
  rw [mark?_eq_some_iff.mp h]
  exact Nat.le_succ _

theorem length_of_keyword? {w : String} (hw : w ∈ reservedWords) (h : keyword? w cs = some rest) :
    rest.length ≤ cs.length := by
  obtain ⟨front, rfl, -⟩ := (keyword?_eq_some_iff hw).mp h
  rw [List.length_append]
  exact Nat.le_add_left _ _

namespace Written

variable {ts : List Token}

theorem condition {c : Condition} (h : Written (c.tokens ++ ts) cs) :
    ∃ rest, Read.condition (skipSpaces cs) = some (c, rest) ∧ Written ts rest := by
  obtain ⟨cs₁, h₁, h⟩ := h.name
  obtain ⟨cs₂, h₂, h⟩ := h.comparison
  obtain ⟨cs₃, h₃, h⟩ := h.operand
  exact ⟨cs₃, condition_eq_some_iff.mpr ⟨cs₁, cs₂, h₁, h₂, h₃⟩, h⟩

theorem projection {p : Projection} (hp : p ≠ .columns []) (h : Written (p.tokens ++ .word "from" :: ts) cs) :
    ∃ rest, Read.projection (skipSpaces cs) = some (p, rest) ∧ Written (.word "from" :: ts) rest := by
  cases p with
  | all =>
    obtain ⟨rest, hm, h⟩ := h.mark
    refine ⟨rest, ?_, h⟩
    simp only [Read.projection, hm]
  | columns names =>
    cases names with
    | nil => exact absurd rfl hp
    | cons first more =>
      have hstar : mark? '*' (skipSpaces cs) = none := by
        rw [mark?_eq_none_iff]
        intro hhead
        obtain ⟨text, rest, hcs, ⟨rfl, -⟩, hn, -⟩ := h.uncons
        obtain ⟨c, hc, hc'⟩ := hn.identifier.2
        rw [hcs, List.head?_append, Option.mem_def.mp hc] at hhead
        cases hhead
        cases hc'
      obtain ⟨rest, hsep, h⟩ := separated (fun s => [.name s])
        (name?_shortens.after fun _ _ => length_of_mark?) (fun _ _ _ => name) (fun _ _ => mark)
        (fun cs h => h.no_mark rfl fun t ht => by cases ht; decide) h
      refine ⟨rest, ?_, h⟩
      simp only [Read.projection, hstar, hsep]
      rfl

theorem conditions {conditions : List Condition} (h : Written (whereTokens conditions ++ ts) cs)
    (hts : ∀ t ∈ ts.head?, t ∈ [.word "order", .word "limit", .mark ';']) :
    ∃ rest, Read.conditions (skipSpaces cs) = (conditions, rest) ∧ Written ts rest := by
  cases conditions with
  | nil =>
    have hfixed : ∀ t ∈ [Token.word "order", .word "limit", .mark ';'], t.isFixed = true ∧ t ≠ .word "where" := by
      decide
    have hw := no_word h (by decide) fun t ht => hfixed t (hts t ht)
    refine ⟨skipSpaces cs, ?_, h.skip⟩
    simp only [Read.conditions, hw]
    rfl
  | cons first more =>
    have hfixed : ∀ t ∈ [Token.word "order", .word "limit", .mark ';'], t.isFixed = true ∧ t ≠ .word "and" := by
      decide
    obtain ⟨cs₁, hw, h⟩ := h.word
    obtain ⟨rest, hsep, h⟩ := separated Condition.tokens
      (condition_shortens.after fun _ _ => length_of_keyword? (w := "and") (by decide))
      (fun _ _ _ => condition) (fun _ _ => word)
      (fun cs h => h.no_word (by decide) fun t ht => hfixed t (hts t ht)) h
    refine ⟨rest, ?_, h⟩
    simp only [Read.conditions, hw, Option.bind_eq_bind, Option.bind_some, hsep]
    rfl

theorem direction {d : Direction} (h : Written (directionTokens asc d ++ ts) cs)
    (hts : ∀ t ∈ ts.head?, t ∈ [.word "limit", .mark ';']) :
    ∃ rest, Read.direction cs = (d, rest) ∧ Written ts rest := by
  have hfixed : ∀ t ∈ [Token.word "limit", .mark ';'], t.isFixed = true ∧ t ≠ .word "asc" ∧ t ≠ .word "desc" := by
    decide
  cases d with
  | ascending =>
    cases asc with
    | true =>
      obtain ⟨rest, hk, h⟩ := h.word
      refine ⟨rest, ?_, h⟩
      simp only [Read.direction, hk]
    | false =>
      have ha := no_word h (w := "asc") (by decide) fun t ht => ⟨(hfixed t (hts t ht)).1, (hfixed t (hts t ht)).2.1⟩
      have hd := no_word h (w := "desc") (by decide) fun t ht => ⟨(hfixed t (hts t ht)).1, (hfixed t (hts t ht)).2.2⟩
      refine ⟨cs, ?_, h⟩
      simp only [Read.direction, ha, hd]
  | descending =>
    have ha := no_word h (w := "asc") (by decide) fun t ht => by cases ht; decide
    obtain ⟨rest, hk, h⟩ := h.word
    refine ⟨rest, ?_, h⟩
    simp only [Read.direction, ha, hk]

theorem vector {es : List String}
    (h : Written (.mark '[' :: (Token.separate (.mark ',') (es.map fun e => [.element e]) ++ .mark ']' :: ts)) cs) :
    ∃ rest, Read.vector (skipSpaces cs) = some (es, rest) ∧ Written ts rest := by
  obtain ⟨cs₁, hopen, h⟩ := h.mark
  have closed {cs₂ : List Char} (h : Written (.mark ']' :: ts) cs₂)
      (helements : (Sql.separated element? (mark? ',') (skipSpaces cs₁)).getD ([], skipSpaces cs₁) = (es, cs₂)) :
      ∃ rest, Read.vector (skipSpaces cs) = some (es, rest) ∧ Written ts rest := by
    obtain ⟨rest, hclose, h⟩ := h.mark
    refine ⟨rest, ?_, h⟩
    simp only [Read.vector, hopen, Option.bind_eq_bind, Option.bind_some, helements, hclose]
    rfl
  cases es with
  | nil =>
    apply closed h.skip
    obtain ⟨text, rest, hcs, hs, -, -⟩ := h.uncons
    have hs : text = [']'] := hs
    subst hs
    rw [hcs]
    rfl
  | cons first more =>
    obtain ⟨cs₂, hsep, h⟩ := separated (fun e => [.element e])
      (element?_shortens.after fun _ _ => length_of_mark?) (fun _ _ _ => element) (fun _ _ => mark)
      (fun cs h => h.no_mark rfl fun t ht => by cases ht; decide) h
    apply closed h
    rw [hsep]
    rfl

theorem orderItem {item : OrderItem} (h : Written (item.tokens asc ++ ts) cs)
    (hts : ∀ t ∈ ts.head?, t ∈ [.word "limit", .mark ';']) :
    ∃ rest, (Read.distance (skipSpaces cs) <|> Read.column (skipSpaces cs)) = some (item, rest) ∧ Written ts rest := by
  cases item with
  | column s d =>
    have hname : Written (.name s :: (directionTokens asc d ++ ts)) cs := h
    obtain ⟨cs₁, hname, h⟩ := hname.name
    obtain ⟨rest, hd, hw⟩ := h.direction hts
    refine ⟨rest, ?_, hw⟩
    have hfixed : ∀ t ∈ [Token.word "asc", .word "desc", .word "limit", .mark ';'],
        t.isFixed = true ∧ t ≠ .mark '(' := by
      decide
    have hparen : mark? '(' (skipSpaces cs₁) = none := by
      apply h.no_mark rfl
      intro t ht
      apply hfixed t
      cases d with
      | ascending =>
        cases asc with
        | true => cases ht; decide
        | false => exact List.mem_cons_of_mem _ (List.mem_cons_of_mem _ (hts t ht))
      | descending => cases ht; decide
    have hnone : Read.distance (skipSpaces cs) = none := by
      simp only [Read.distance, hname, Option.bind_eq_bind, Option.bind_some, hparen, Option.bind_none]
    have hsome : Read.column (skipSpaces cs) = some (.column s d, rest) := by
      simp only [Read.column, hname, Option.bind_eq_bind, Option.bind_some, hd]
      rfl
    rw [hnone, hsome]
    rfl
  | distance f s es d =>
    have hname : Written (.name f :: .mark '(' :: .name s :: .mark ',' :: .mark '[' ::
        (Token.separate (.mark ',') (es.map fun e => [.element e]) ++
          .mark ']' :: .mark ')' :: (directionTokens asc d ++ ts))) cs := by
      simpa only [OrderItem.tokens, List.append_assoc, List.cons_append, List.nil_append] using h
    obtain ⟨cs₁, hf, h₁⟩ := hname.name
    obtain ⟨cs₂, hopen, h₂⟩ := h₁.mark
    obtain ⟨cs₃, hs, h₃⟩ := h₂.name
    obtain ⟨cs₄, hcomma, h₄⟩ := h₃.mark
    obtain ⟨cs₅, hv, h₅⟩ := h₄.vector
    obtain ⟨cs₆, hclose, h₆⟩ := h₅.mark
    obtain ⟨rest, hd, hw⟩ := h₆.direction hts
    refine ⟨rest, ?_, hw⟩
    have hsome : Read.distance (skipSpaces cs) = some (.distance f s es d, rest) := by
      simp only [Read.distance, Option.bind_eq_bind, hf, Option.bind_some, hopen, hs, hcomma, hv, hclose, hd]
      rfl
    rw [hsome]
    rfl

theorem order {o : Option OrderItem} (h : Written (orderTokens asc o ++ ts) cs)
    (hts : ∀ t ∈ ts.head?, t ∈ [.word "limit", .mark ';']) :
    ∃ rest, Read.order (skipSpaces cs) = (o, rest) ∧ Written ts rest := by
  cases o with
  | none =>
    have hfixed : ∀ t ∈ [Token.word "limit", .mark ';'], t.isFixed = true ∧ t ≠ .word "order" := by
      decide
    have hw := no_word h (by decide) fun t ht => hfixed t (hts t ht)
    refine ⟨skipSpaces cs, ?_, h.skip⟩
    simp only [Read.order, hw]
    rfl
  | some item =>
    obtain ⟨cs₁, ho, h⟩ := h.word
    obtain ⟨cs₂, hb, h⟩ := h.word
    obtain ⟨rest, hi, h⟩ := h.orderItem hts
    refine ⟨rest, ?_, h⟩
    simp only [Read.order, Option.bind_eq_bind, ho, Option.bind_some, hb, hi]

theorem limitClause {l : Option Limit} (h : Written (limitTokens l ++ ts) cs)
    (hts : ∀ t ∈ ts.head?, t ∈ [.mark ';']) :
    ∃ rest, Read.limit (skipSpaces cs) = (l, rest) ∧ Written ts rest := by
  match l with
  | none =>
    have hfixed : ∀ t ∈ [Token.mark ';'], t.isFixed = true ∧ t ≠ .word "limit" := by
      decide
    have hw := no_word h (by decide) fun t ht => hfixed t (hts t ht)
    refine ⟨skipSpaces cs, ?_, h.skip⟩
    simp only [Read.limit, hw]
  | some ⟨none⟩ =>
    obtain ⟨cs₁, hk, h⟩ := h.word
    have hnone : limitToken? (skipSpaces cs₁) = none := by
      cases ts with
      | nil =>
        rw [nil_iff.mp h]
        rfl
      | cons t ts =>
        obtain ⟨text, rest, hcs, hs, -, -⟩ := h.uncons
        cases List.mem_singleton.mp (hts t rfl)
        have hs : text = [';'] := hs
        subst hs
        rw [hcs]
        rfl
    refine ⟨cs₁, ?_, h⟩
    simp only [Read.limit, hk, hnone]
  | some ⟨some s⟩ =>
    obtain ⟨cs₁, hk, h⟩ := h.word
    obtain ⟨rest, hl, h⟩ := h.limit
    refine ⟨rest, ?_, h⟩
    simp only [Read.limit, hk, hl]

theorem ending (h : Written (endTokens semicolon) cs) :
    skipSpaces ((mark? ';' (skipSpaces cs)).getD (skipSpaces cs)) = [] := by
  cases semicolon with
  | true =>
    obtain ⟨rest, hm, h⟩ := h.mark
    rw [hm]
    exact nil_iff.mp h
  | false =>
    have h : Written [] cs := h
    rw [nil_iff.mp h]
    rfl

/-- A text that writes the tokens of a query is read as that query. -/
theorem query {q : Query} (h : Written (q.tokens asc semicolon) cs) (hc : q.projection ≠ .columns []) :
    Read.query cs = some q := by
  have hend : ∀ t ∈ (endTokens semicolon).head?, t ∈ [.mark ';'] := by
    cases semicolon with
    | true => decide
    | false => exact nofun
  have hlimit : ∀ t ∈ (limitTokens q.limit ++ endTokens semicolon).head?, t ∈ [.word "limit", .mark ';'] := by
    match q.limit with
    | none => exact fun t ht => List.mem_cons_of_mem _ (hend t ht)
    | some ⟨none⟩ => intro t ht; cases ht; decide
    | some ⟨some s⟩ => intro t ht; cases ht; decide
  have horder : ∀ t ∈ (orderTokens asc q.order ++ (limitTokens q.limit ++ endTokens semicolon)).head?,
      t ∈ [.word "order", .word "limit", .mark ';'] := by
    cases q.order with
    | none => exact fun t ht => List.mem_cons_of_mem _ (hlimit t ht)
    | some item => intro t ht; cases ht; decide
  obtain ⟨cs₁, hselect, h⟩ := Written.word h
  obtain ⟨cs₂, hprojection, h⟩ := h.projection hc
  obtain ⟨cs₃, hfrom, h⟩ := h.word
  obtain ⟨cs₄, htable, h⟩ := h.name
  obtain ⟨cs₅, hconditions, h⟩ := h.conditions horder
  obtain ⟨cs₆, horder, h⟩ := h.order hlimit
  obtain ⟨cs₇, hlimit, h⟩ := h.limitClause hend
  simp only [Read.query, Option.bind_eq_bind, hselect, Option.bind_some, hprojection, hfrom, htable, hconditions,
    horder, hlimit, h.ending, List.isEmpty_nil, ↓reduceIte]

end Written

end QueryGateway.Sql
