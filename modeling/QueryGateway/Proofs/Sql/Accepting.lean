import QueryGateway.Proofs.Sql.Reading

namespace QueryGateway.Sql
set_option autoImplicit true

namespace Written

variable {ts : List Token}

theorem of_word {w : String} (hw : w ∈ reservedWords) (h : keyword? w (skipSpaces cs) = some rest)
    (hr : Written ts rest) : Written (.word w :: ts) cs := by
  obtain ⟨front, hcs, hs⟩ := (keyword?_eq_some_iff hw).mp h
  exact hr.cons hs hw hcs

theorem of_name (h : name? (skipSpaces cs) = some (s, rest)) (hr : Written ts rest) : Written (.name s :: ts) cs := by
  obtain ⟨hn, hstop, hcs⟩ := name?_eq_some_iff.mp h
  exact hr.cons ⟨rfl, hstop⟩ hn hcs

theorem of_mark (hc : c ∈ marks) (h : mark? c (skipSpaces cs) = some rest)
    (hr : Written ts rest) : Written (.mark c :: ts) cs :=
  hr.cons (t := .mark c) rfl hc (mark?_eq_some_iff.mp h)

theorem of_element (h : element? (skipSpaces cs) = some (s, rest)) (hr : Written ts rest) :
    Written (.element s :: ts) cs := by
  obtain ⟨hne, hs, hstop, hcs⟩ := takeSome?_eq_some_iff.mp h
  exact hr.cons ⟨rfl, hstop⟩ ⟨hne, hs⟩ hcs

theorem of_limit (h : limitToken? (skipSpaces cs) = some (s, rest)) (hr : Written ts rest) :
    Written (.limit s :: ts) cs := by
  obtain ⟨hne, hs, hstop, hcs⟩ := takeSome?_eq_some_iff.mp h
  exact hr.cons ⟨rfl, hstop⟩ ⟨hne, hs⟩ hcs

theorem of_comparison (h : Read.comparison (skipSpaces cs) = some (op, rest)) (hr : Written ts rest) :
    Written (.comparison op :: ts) cs := by
  obtain ⟨text, hcs, hs⟩ := comparison_eq_some_iff.mp h
  exact hr.cons (t := .comparison op) hs trivial hcs

theorem of_operand (h : Read.operand (skipSpaces cs) = some (o, rest)) (hr : Written ts rest) :
    Written (o.token :: ts) cs := by
  obtain ⟨text, hcs, hs⟩ := operand_eq_some_iff.mp h
  refine hr.cons hs ?_ hcs
  cases o with
  | literal s => trivial
  | placeholder => trivial

section

variable (tokens : α → List Token) {sep : Token} {p : List Char → Option (α × List Char)}
  {s : List Char → Option (List Char)}

theorem of_many
    (hread : ∀ a cs rest ts, p (skipSpaces cs) = some (a, rest) → Written ts rest → Written (tokens a ++ ts) cs)
    (hr : Written ts (Sql.many p cs).2) : Written ((Sql.many p cs).1.flatMap tokens ++ ts) cs := by
  induction cs using Sql.many.induct p with
  | case1 cs h =>
    rw [many_none h] at hr ⊢
    exact hr
  | case2 cs a rest h hlt more rest' _ ih =>
    rw [Sql.many] at hr ⊢
    simp only [h, hlt, ↓reduceIte] at hr ⊢
    rw [List.flatMap_cons, List.append_assoc]
    exact hread _ _ _ _ h (ih hr)
  | case3 cs a rest h hlt =>
    rw [Sql.many] at hr ⊢
    simp only [h, hlt, ↓reduceIte] at hr ⊢
    exact hr

theorem of_separated
    (hread : ∀ a cs rest ts, p (skipSpaces cs) = some (a, rest) → Written ts rest → Written (tokens a ++ ts) cs)
    (hsep : ∀ cs rest ts, s (skipSpaces cs) = some rest → Written ts rest → Written (sep :: ts) cs)
    (h : Sql.separated p s (skipSpaces cs) = some (as, rest)) (hr : Written ts rest) :
    as ≠ [] ∧ Written (Token.separate sep (as.map tokens) ++ ts) cs := by
  simp only [Sql.separated, Option.bind_eq_bind, Option.bind_eq_some_iff, Prod.exists] at h
  obtain ⟨a, cs₁, ha, heq⟩ := h
  cases heq
  refine ⟨List.cons_ne_nil _ _, ?_⟩
  rw [List.map_cons, Token.separate, List.flatMap_map, List.append_assoc]
  refine hread _ _ _ _ ha (of_many (fun a => sep :: tokens a) (fun a cs rest ts h hr => ?_) hr)
  obtain ⟨cs₂, hs, hp⟩ := Option.bind_eq_some_iff.mp h
  exact hsep _ _ _ hs (hread _ _ _ _ hp hr)

end

theorem of_condition (h : Read.condition (skipSpaces cs) = some (c, rest)) (hr : Written ts rest) :
    Written (c.tokens ++ ts) cs := by
  obtain ⟨cs₁, cs₂, hname, hop, hoperand⟩ := condition_eq_some_iff.mp h
  exact of_name hname (of_comparison hop (of_operand hoperand hr))

theorem of_projection (h : Read.projection (skipSpaces cs) = some (p, rest)) (hr : Written ts rest) :
    p ≠ .columns [] ∧ Written (p.tokens ++ ts) cs := by
  unfold Read.projection at h
  split at h
  · next hm =>
    cases h
    exact ⟨nofun, of_mark (by decide) hm hr⟩
  · obtain ⟨⟨names, rest'⟩, hsep, heq⟩ := Option.map_eq_some_iff.mp h
    cases heq
    obtain ⟨hne, hw⟩ := of_separated (fun s => [.name s]) (fun _ _ _ _ => of_name)
      (fun _ _ _ => of_mark (by decide)) hsep hr
    exact ⟨fun heq => hne (Projection.columns.inj heq), hw⟩

theorem of_conditions {conds : List Condition} (h : Read.conditions (skipSpaces cs) = (conds, rest))
    (hr : Written ts rest) : Written (whereTokens conds ++ ts) cs := by
  simp only [Read.conditions, Option.bind_eq_bind] at h
  cases hf : (keyword? "where" (skipSpaces cs)).bind fun cs =>
      Sql.separated Read.condition (keyword? "and") (skipSpaces cs) with
  | none =>
    rw [hf] at h
    cases h
    exact hr.of_skip
  | some r =>
    rw [hf] at h
    cases h
    obtain ⟨cs₁, hw, hs⟩ := Option.bind_eq_some_iff.mp hf
    obtain ⟨hne, hw'⟩ := of_separated Condition.tokens (fun _ _ _ _ => of_condition)
      (fun _ _ _ => of_word (by decide)) hs hr
    cases conds with
    | nil => exact absurd rfl hne
    | cons first more => exact of_word (by decide) hw hw'

theorem of_direction (h : Read.direction cs = (d, rest)) (hr : Written ts rest) :
    ∃ asc, Written (directionTokens asc d ++ ts) cs := by
  unfold Read.direction at h
  split at h
  · next hk =>
    cases h
    exact ⟨true, of_word (by decide) hk hr⟩
  · next hk =>
    cases h
    exact ⟨true, of_word (by decide) hk hr⟩
  · cases h
    exact ⟨false, hr⟩

theorem of_vector (h : Read.vector (skipSpaces cs) = some (es, rest)) (hr : Written ts rest) :
    Written (.mark '[' :: (Token.separate (.mark ',') (es.map fun e => [.element e]) ++ .mark ']' :: ts)) cs := by
  simp only [Read.vector, Option.bind_eq_bind, Option.bind_eq_some_iff] at h
  obtain ⟨cs₁, hopen, cs₂, hclose, heq⟩ := h
  cases heq
  apply of_mark (by decide) hopen
  cases hs : Sql.separated element? (mark? ',') (skipSpaces cs₁) with
  | none =>
    rw [hs] at hclose
    exact (of_mark (by decide) hclose hr).of_skip
  | some r =>
    rw [hs] at hclose
    exact (of_separated (fun e => [.element e]) (fun _ _ _ _ => of_element) (fun _ _ _ => of_mark (by decide)) hs
      (of_mark (by decide) hclose hr)).2

theorem of_orderItem (h : (Read.distance (skipSpaces cs) <|> Read.column (skipSpaces cs)) = some (item, rest))
    (hr : Written ts rest) : ∃ asc, Written (item.tokens asc ++ ts) cs := by
  rw [Option.orElse_eq_orElse, Option.orElse_eq_or, Option.or_eq_some_iff] at h
  rcases h with h | ⟨-, h⟩
  · simp only [Read.distance, Option.bind_eq_bind, Option.bind_eq_some_iff, Prod.exists] at h
    obtain ⟨f, cs₁, hf, cs₂, hopen, s, cs₃, hs, cs₄, hcomma, es, cs₅, hv, cs₆, hclose, heq⟩ := h
    cases heq
    have hdirection : Read.direction cs₆ = ((Read.direction cs₆).1, (Read.direction cs₆).2) := rfl
    obtain ⟨asc, hd⟩ := of_direction hdirection hr
    refine ⟨asc, ?_⟩
    have hw := of_name hf (of_mark (by decide) hopen (of_name hs (of_mark (by decide) hcomma
      (of_vector hv (of_mark (by decide) hclose hd)))))
    simpa only [OrderItem.tokens, List.append_assoc, List.cons_append, List.nil_append] using hw
  · simp only [Read.column, Option.bind_eq_bind, Option.bind_eq_some_iff, Prod.exists] at h
    obtain ⟨s, cs₁, hs, heq⟩ := h
    cases heq
    obtain ⟨asc, hd⟩ := of_direction rfl hr
    exact ⟨asc, of_name hs hd⟩

theorem of_order (h : Read.order (skipSpaces cs) = (o, rest)) (hr : Written ts rest) :
    ∃ asc, Written (orderTokens asc o ++ ts) cs := by
  simp only [Read.order] at h
  split at h
  · next item rest' hf =>
    cases h
    simp only [Option.bind_eq_bind, Option.bind_eq_some_iff] at hf
    obtain ⟨cs₁, ho, cs₂, hb, hi⟩ := hf
    obtain ⟨asc, hw⟩ := of_orderItem hi hr
    exact ⟨asc, of_word (by decide) ho (of_word (by decide) hb hw)⟩
  · cases h
    exact ⟨false, hr.of_skip⟩

theorem of_limitClause (h : Read.limit (skipSpaces cs) = (l, rest)) (hr : Written ts rest) :
    Written (limitTokens l ++ ts) cs := by
  unfold Read.limit at h
  split at h
  · cases h
    exact hr.of_skip
  · next cs₁ hk =>
    split at h
    · cases h
      exact of_word (by decide) hk hr
    · next token cs₂ hl =>
      cases h
      exact of_word (by decide) hk (of_limit hl hr)

theorem of_ending (h : skipSpaces ((mark? ';' (skipSpaces cs)).getD (skipSpaces cs)) = []) :
    ∃ semicolon, Written (endTokens semicolon) cs := by
  cases hm : mark? ';' (skipSpaces cs) with
  | none =>
    rw [hm] at h
    exact ⟨false, (nil_iff.mpr h).of_skip⟩
  | some rest =>
    rw [hm] at h
    exact ⟨true, of_mark (by decide) hm (nil_iff.mpr h)⟩

/-- A text that is read as a query writes its tokens. -/
theorem of_query (h : Read.query cs = some q) :
    q.projection ≠ .columns [] ∧ ∃ asc semicolon, Written (q.tokens asc semicolon) cs := by
  simp only [Read.query, Option.bind_eq_bind, Option.bind_eq_some_iff, Prod.exists] at h
  obtain ⟨cs₁, hselect, p, cs₂, hprojection, cs₃, hfrom, table, cs₄, htable, h⟩ := h
  split at h
  · next hend =>
    cases h
    obtain ⟨semicolon, hw⟩ := of_ending (List.isEmpty_iff.mp hend)
    obtain ⟨asc, hw⟩ := of_order rfl (of_limitClause rfl hw)
    obtain ⟨hp, hw⟩ := of_projection hprojection (of_word (by decide) hfrom
      (of_name htable (of_conditions rfl hw)))
    exact ⟨hp, asc, semicolon, of_word (by decide) hselect hw⟩
  · cases h

end Written

end QueryGateway.Sql
