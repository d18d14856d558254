import QueryGateway.Proofs.Sql.Accepting

namespace QueryGateway.Sql
set_option autoImplicit true

namespace Token

theorem forall_mem_separate {P : Token → Prop} (hsep : P sep) :
    (∀ t ∈ separate sep items, P t) ↔ ∀ l ∈ items, ∀ t ∈ l, P t := by
  cases items with
  | nil => exact ⟨fun _ => List.forall_mem_nil _, fun _ => List.forall_mem_nil _⟩
  | cons first more =>
    rw [separate, List.forall_mem_append, List.forall_mem_cons]
    apply and_congr_right
    intro _
    simp only [List.forall_mem_flatMap, List.forall_mem_cons, hsep, true_and]

end Token

section

variable {P : Token → Prop} (hw : ∀ w ∈ reservedWords, P (.word w)) (hm : ∀ c ∈ marks, P (.mark c))
  (ho : ∀ op, P (.comparison op))

include hm in
theorem Projection.forall_tokens {p : Projection} : (∀ t ∈ p.tokens, P t) ↔ ∀ s ∈ p.names, P (.name s) := by
  cases p with
  | all => simp [tokens, names, hm _ (by decide : '*' ∈ marks)]
  | columns names =>
    rw [tokens, Token.forall_mem_separate (hm _ (by decide))]
    simp [Projection.names]

include hw ho in
theorem forall_whereTokens {conditions : List Condition} :
    (∀ t ∈ whereTokens conditions, P t) ↔
      (∀ s ∈ conditions.map (·.column), P (.name s)) ∧ ∀ c ∈ conditions, P c.operand.token := by
  cases conditions with
  | nil => simp [whereTokens]
  | cons first more =>
    rw [whereTokens, List.forall_mem_cons, Token.forall_mem_separate (hw _ (by decide))]
    · simpa [Condition.tokens, hw _ (by decide : "where" ∈ reservedWords), ho, forall_and] using and_and_and_comm
    · exact List.cons_ne_nil _ _

include hw in
theorem forall_directionTokens (asc : Bool) (d : Direction) : ∀ t ∈ directionTokens asc d, P t := by
  have hasc := hw "asc" (by decide)
  have hdesc := hw "desc" (by decide)
  cases d with
  | ascending => cases asc <;> simp [directionTokens, hasc]
  | descending => simp [directionTokens, hdesc]

include hw hm in
theorem OrderItem.forall_tokens {item : OrderItem} :
    (∀ t ∈ item.tokens asc, P t) ↔ (∀ s ∈ item.names, P (.name s)) ∧ ∀ e ∈ item.elements, P (.element e) := by
  cases item with
  | column s d =>
    rw [tokens, List.forall_mem_cons, and_iff_left (forall_directionTokens hw asc d)]
    simp [names, elements]
  | distance f s es d =>
    have hmarks : P (.mark '(') ∧ P (.mark ')') ∧ P (.mark '[') ∧ P (.mark ']') ∧ P (.mark ',') :=
      ⟨hm _ (by decide), hm _ (by decide), hm _ (by decide), hm _ (by decide), hm _ (by decide)⟩
    have hd := iff_true_intro (forall_directionTokens hw asc d)
    simp only [tokens, List.forall_mem_append, List.forall_mem_cons, Token.forall_mem_separate hmarks.2.2.2.2, hd]
    simp [names, elements, hmarks, and_assoc]

include hw hm in
theorem forall_orderTokens {o : Option OrderItem} :
    (∀ t ∈ orderTokens asc o, P t) ↔ (∀ s ∈ (o.map OrderItem.names).getD [], P (.name s)) ∧
      ∀ item ∈ o, ∀ e ∈ item.elements, P (.element e) := by
  cases o with
  | none => simp [orderTokens]
  | some item =>
    rw [orderTokens, List.forall_mem_cons, List.forall_mem_cons, OrderItem.forall_tokens hw hm]
    simp [hw _ (by decide : "order" ∈ reservedWords), hw _ (by decide : "by" ∈ reservedWords)]

include hw in
theorem forall_limitTokens {l : Option Limit} :
    (∀ t ∈ limitTokens l, P t) ↔ ∀ l' ∈ l, ∀ s ∈ l'.token, P (.limit s) := by
  have hword := hw "limit" (by decide)
  match l with
  | none => simp [limitTokens]
  | some ⟨none⟩ => simp [limitTokens, hword]
  | some ⟨some s⟩ => simp [limitTokens, hword]

include hw hm ho in
theorem Query.forall_tokens {q : Query} :
    (∀ t ∈ q.tokens asc semicolon, P t) ↔ (∀ s ∈ q.names, P (.name s)) ∧
      (∀ c ∈ q.conditions, P c.operand.token) ∧ (∀ item ∈ q.order, ∀ e ∈ item.elements, P (.element e)) ∧
        ∀ l ∈ q.limit, ∀ s ∈ l.token, P (.limit s) := by
  have hend : ∀ t ∈ endTokens semicolon, P t := by
    cases semicolon <;> simp [endTokens, hm _ (by decide : ';' ∈ marks)]
  have hselect := hw "select" (by decide)
  have hfrom := hw "from" (by decide)
  simp only [tokens, names, List.forall_mem_cons, List.forall_mem_append, Projection.forall_tokens hm,
    forall_whereTokens hw ho, forall_orderTokens hw hm, forall_limitTokens hw]
  constructor
  · rintro ⟨-, hp, -, ht, ⟨hc, hcs⟩, ⟨ho, he⟩, hl, -⟩
    exact ⟨⟨hp, ht, hc, ho⟩, hcs, he, hl⟩
  · rintro ⟨⟨hp, ht, hc, ho⟩, hcs, he, hl⟩
    exact ⟨hselect, hp, hfrom, ht, ⟨hc, hcs⟩, ⟨ho, he⟩, hl, hend⟩

end

/-- The tokens of a query can be read again exactly if its names, vector elements and limit can. -/
theorem Query.tokens_proper {q : Query} :
    (∀ t ∈ q.tokens asc semicolon, t.Proper) ↔ (∀ s ∈ q.names, IsName refusedWords s) ∧
      (∀ item ∈ q.order, ∀ e ∈ item.elements, e.toList ≠ [] ∧ ∀ c ∈ e.toList, isElementChar c = true) ∧
        ∀ l ∈ q.limit, ∀ s ∈ l.token, s.toList ≠ [] ∧ ∀ c ∈ s.toList, isLimitChar c = true := by
  have hoperand : ∀ c ∈ q.conditions, c.operand.token.Proper := by
    intro c _
    cases c.operand with
    | literal s => trivial
    | placeholder => trivial
  rw [forall_tokens (P := Token.Proper) (fun _ => id) (fun _ => id) fun _ => trivial]
  exact and_congr_right fun _ => and_iff_right hoperand

/-- A literal lacks one of the quotes. -/
def Token.Quotable (t : Token) : Prop :=
  ∀ s, t = .literal s → '\'' ∉ s.toList ∨ '"' ∉ s.toList

theorem Operand.token_eq_literal {o : Operand} : o.token = .literal s ↔ o = .literal s := by
  cases o with
  | literal s' => simp only [token, Token.literal.injEq, Operand.literal.injEq]
  | placeholder => exact iff_of_false nofun nofun

theorem Query.tokens_quotable {q : Query} :
    (∀ t ∈ q.tokens asc semicolon, t.Quotable) ↔
      ∀ c ∈ q.conditions, ∀ s, c.operand = .literal s → '\'' ∉ s.toList ∨ '"' ∉ s.toList := by
  rw [forall_tokens (P := Token.Quotable) (fun _ _ => nofun) (fun _ _ => nofun) fun _ => nofun]
  constructor
  · rintro ⟨-, hc, -⟩ c hm s hs
    exact hc c hm s (Operand.token_eq_literal.mpr hs)
  · intro h
    refine ⟨fun _ _ => nofun, ?_, fun _ _ _ _ => nofun, fun _ _ _ _ => nofun⟩
    intro c hm s hs
    exact h c hm s (Operand.token_eq_literal.mp hs)

theorem IsName.mono {words words' : List String} (h : IsName words s) (hw : ∀ w ∈ words', w ∈ words) :
    IsName words' s :=
  ⟨h.identifier, fun hm => h.free (hw _ hm)⟩

theorem Query.IsProper.mono {words words' : List String} {q : Query} (h : q.IsProper words)
    (hw : ∀ w ∈ words', w ∈ words) : q.IsProper words' :=
  { h with names := fun s hs => (h.names s hs).mono hw }

theorem Query.IsProper.written {q : Query} (h : q.IsProper refusedWords) (hw : Writes (q.tokens asc semicolon) cs) :
    Written (q.tokens asc semicolon) cs :=
  ⟨hw, Query.tokens_proper.mpr ⟨h.names, h.elements, h.limit⟩⟩

theorem Laid.spells (h : Laid ps cs) : ∀ p ∈ ps, ∃ rest, p.token.Spells p.text rest := by
  induction h with
  | done => exact List.forall_mem_nil _
  | piece _ hs _ ih => exact List.forall_mem_cons.mpr ⟨⟨_, hs⟩, ih⟩

theorem IsBare.not_mem (h : IsBare s) (hc : isBareChar c = false) : c ∉ s.toList := by
  intro hm
  have hb := h.chars c hm
  rw [hc] at hb
  cases hb

theorem Token.Spells.quotable (h : (Token.literal s).Spells text rest) : '\'' ∉ s.toList ∨ '"' ∉ s.toList := by
  rcases h with ⟨quote, rfl | rfl, hq, -⟩ | ⟨hb, -⟩
  · exact .inl hq
  · exact .inr hq
  · exact .inl (hb.not_mem rfl)

def Query.head (q : Query) : List Token :=
  .word "select" :: (q.projection.tokens ++ [.word "from", .name q.table])

def Query.tail (q : Query) (asc semicolon : Bool) : List Token :=
  orderTokens asc q.order ++ (limitTokens q.limit ++ endTokens semicolon)

theorem Query.tokens_eq (q : Query) (asc semicolon : Bool) :
    q.tokens asc semicolon = q.head ++ (whereTokens q.conditions ++ q.tail asc semicolon) := by
  simp only [tokens, head, tail, List.cons_append, List.append_assoc, List.nil_append]

/-- A query that was written is one that can be written. -/
theorem Written.isProper {q : Query} (h : Written (q.tokens asc semicolon) cs) (hc : q.projection ≠ .columns []) :
    q.IsProper refusedWords := by
  obtain ⟨hnames, helements, hlimit⟩ := Query.tokens_proper.mp h.proper
  obtain ⟨ps, hps, hts⟩ := h.writes
  have hquotable : ∀ t ∈ q.tokens asc semicolon, t.Quotable := by
    intro t ht s hs
    rw [← hts] at ht
    obtain ⟨p, hp, rfl⟩ := List.mem_map.mp ht
    obtain ⟨rest, hspells⟩ := hps.spells p hp
    rw [hs] at hspells
    exact hspells.quotable
  exact ⟨hnames, hc, Query.tokens_quotable.mp hquotable, helements, hlimit⟩

end QueryGateway.Sql
