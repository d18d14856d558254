import QueryGateway.Proofs.Sql.Language

namespace QueryGateway.Sql
set_option autoImplicit true

def IsQuoted (text : List Char) : Prop :=
  ∃ quote inner, (quote = '\'' ∨ quote = '"') ∧ quote ∉ inner ∧ text = quote :: inner ++ [quote]

/-- Text that would combine conditions otherwise than by conjunction. -/
def IsConnective (text : List Char) : Prop :=
  '(' ∈ text ∨ ')' ∈ text ∨ text.map Char.toLower = "or".toList ∨ text.map Char.toLower = "not".toList

instance : DecidablePred IsConnective := fun text =>
  inferInstanceAs (Decidable ('(' ∈ text ∨ ')' ∈ text ∨ text.map Char.toLower = "or".toList ∨
    text.map Char.toLower = "not".toList))

namespace Token

def IsOperand : Token → Prop
  | literal _ | placeholder => True
  | _ => False

theorem count_flatMap_cons {items : List (List Token)} (h : ∀ l ∈ items, sep ∉ l) :
    (items.flatMap (sep :: ·)).count sep = items.length := by
  induction items with
  | nil => rfl
  | cons first more ih =>
    obtain ⟨hfirst, hmore⟩ := List.forall_mem_cons.mp h
    rw [List.flatMap_cons, List.count_append, List.count_cons_self, List.count_eq_zero.mpr hfirst, ih hmore,
      List.length_cons]
    omega

theorem count_separate {items : List (List Token)} (hne : items ≠ []) (h : ∀ l ∈ items, sep ∉ l) :
    (separate sep items).count sep + 1 = items.length := by
  cases items with
  | nil => exact absurd rfl hne
  | cons first more =>
    obtain ⟨hfirst, hmore⟩ := List.forall_mem_cons.mp h
    rw [separate, List.count_append, List.count_eq_zero.mpr hfirst, count_flatMap_cons hmore, List.length_cons,
      Nat.zero_add]

end Token

theorem count_and_whereTokens {conditions : List Condition} (hne : conditions ≠ []) :
    (whereTokens conditions).count (.word "and") + 1 = conditions.length := by
  have hmem : ∀ l ∈ conditions.map Condition.tokens, Token.word "and" ∉ l := by
    intro l hl hw
    obtain ⟨c, -, rfl⟩ := List.mem_map.mp hl
    have ho : c.operand.token ≠ .word "and" := by
      cases c.operand <;> exact nofun
    simp only [Condition.tokens, List.mem_cons, List.not_mem_nil, reduceCtorEq, false_or, or_false] at hw
    exact ho hw.symm
  have hsep := Token.count_separate (by simpa using hne) hmem
  rw [List.length_map] at hsep
  rw [← hsep]
  cases conditions with
  | nil => exact absurd rfl hne
  | cons c cs =>
    rw [whereTokens, List.count_cons_of_ne (by decide)]
    exact List.cons_ne_nil _ _

theorem not_isConnective_of_word (hw : ∀ c ∈ text, isWordChar c = true) (ho : text.map Char.toLower ≠ "or".toList)
    (hn : text.map Char.toLower ≠ "not".toList) : ¬ IsConnective text := by
  rintro (h | h | h | h)
  · cases hw _ h
  · cases hw _ h
  · exact ho h
  · exact hn h

theorem IsBare.not_isConnective (h : IsBare s) : ¬ IsConnective s.toList := by
  rintro (hm | hm | heq | heq)
  · exact h.not_mem rfl hm
  · exact h.not_mem rfl hm
  · apply h.lower_not_mem
    rw [lower_eq_iff.mpr heq]
    decide
  · apply h.lower_not_mem
    rw [lower_eq_iff.mpr heq]
    decide

theorem not_isConnective_of_reserved {w : String} (hw : w ∈ reservedWords) (ho : w ≠ "or") (hn : w ≠ "not")
    (h : text.map Char.toLower = w.toList) : ¬ IsConnective text := by
  apply not_isConnective_of_word (isWordChar_of_map_toLower (reservedWords_word w hw) h)
  · rw [h]
    exact fun heq => ho (String.toList_inj.mp heq)
  · rw [h]
    exact fun heq => hn (String.toList_inj.mp heq)

theorem ComparisonSpells.not_isConnective (h : ComparisonSpells op text rest) : ¬ IsConnective text := by
  cases op with
  | like => exact not_isConnective_of_reserved like_reserved (by decide) (by decide) h.1
  | ne =>
    rcases h with rfl | rfl
    · decide
    · decide
  | gt =>
    rw [h.1]
    decide
  | lt =>
    rw [h.1]
    decide
  | _ =>
    simp only [ComparisonSpells] at h
    rw [h]
    decide

namespace Token

/-- The tokens that a where clause is made of. -/
def InWhere : Token → Prop
  | word w => w = "where" ∨ w = "and"
  | name _ | comparison _ | literal _ | placeholder => True
  | _ => False

theorem inWhere_of_mem_whereTokens : ∀ t ∈ whereTokens conditions, t.InWhere := by
  cases conditions with
  | nil => exact List.forall_mem_nil _
  | cons c cs =>
    have hand : InWhere (.word "and") := Or.inr rfl
    rw [whereTokens, List.forall_mem_cons, forall_mem_separate hand]
    · refine ⟨Or.inl rfl, ?_⟩
      intro l hl
      obtain ⟨c', -, rfl⟩ := List.mem_map.mp hl
      have ho : c'.operand.token.InWhere := by
        cases c'.operand <;> trivial
      simpa only [Condition.tokens, List.forall_mem_cons] using ⟨trivial, trivial, ho, List.forall_mem_nil _⟩
    · exact List.cons_ne_nil _ _

/-- Outside quotes, nothing in a where clause combines conditions otherwise than by conjunction. -/
theorem Spells.quoted_or_plain {t : Token} {front rest : List Char} (h : t.Spells front rest) (hp : t.Proper)
    (ht : t.InWhere) : IsQuoted front ∨ ¬ IsConnective front := by
  cases t with
  | word w =>
    rcases ht with rfl | rfl
    · exact .inr (not_isConnective_of_reserved (by decide) (by decide) (by decide) h.1)
    · exact .inr (not_isConnective_of_reserved (by decide) (by decide) (by decide) h.1)
  | name s =>
    rw [h.1]
    have hfree : ∀ w ∈ refusedWords, s.toList.map Char.toLower ≠ w.toList := by
      intro w hw heq
      apply hp.free
      rw [lower_eq_iff.mpr heq]
      exact hw
    exact .inr (not_isConnective_of_word hp.identifier.1 (hfree "or" (by decide)) (hfree "not" (by decide)))
  | comparison op => exact .inr (ComparisonSpells.not_isConnective h)
  | literal s =>
    rcases h with ⟨quote, hq, hs, rfl⟩ | ⟨hb, rfl, -⟩
    · exact .inl ⟨quote, s.toList, hq, hs, rfl⟩
    · exact .inr hb.not_isConnective
  | placeholder =>
    rw [show front = ['?'] from h]
    exact .inr (by decide)
  | _ => cases ht

theorem Spells.placeholder_iff {t : Token} {front rest : List Char} (h : t.Spells front rest) (ht : t.IsOperand) :
    t = .placeholder ↔ front = ['?'] := by
  cases t with
  | placeholder => exact iff_of_true rfl h
  | literal s =>
    apply iff_of_false nofun
    rcases h with ⟨quote, hq, -, rfl⟩ | ⟨hb, rfl, -⟩
    · intro heq
      have hl := congrArg List.length heq
      simp at hl
    · intro heq
      apply hb.value
      rw [heq]
      rfl
  | _ => cases ht

end Token

/-- How the pieces of a text make up the clauses of a query. -/
structure Query.Clauses (q : Query) (asc semicolon : Bool) (head clause tail : List Piece) : Prop where
  head_tokens : head.map Piece.token = q.head
  clause_tokens : clause.map Piece.token = whereTokens q.conditions
  tail_tokens : tail.map Piece.token = q.tail asc semicolon
  /-- After the table comes another clause or the end. -/
  next : ∀ p ∈ (clause ++ tail).head?, p.token ∈ [.word "where", .word "order", .word "limit", .mark ';']
  conjunction : clause ≠ [] → q.conditions.length = (clause.map Piece.token).count (.word "and") + 1
  placeholder : ∀ p ∈ clause, p.token.IsOperand → (p.token = .placeholder ↔ p.text = ['?'])
  plain : ∀ p ∈ clause, IsQuoted p.text ∨ ¬ IsConnective p.text

theorem Query.next_table (q : Query) (asc semicolon : Bool) :
    ∀ t ∈ (whereTokens q.conditions ++ q.tail asc semicolon).head?,
      t ∈ [.word "where", .word "order", .word "limit", .mark ';'] := by
  intro t ht
  obtain ⟨projection, table, conditions, order, limit⟩ := q
  cases conditions with
  | cons c cs =>
    cases ht
    decide
  | nil =>
    cases order with
    | some item =>
      cases ht
      decide
    | none =>
      rcases limit with - | ⟨- | s⟩
      · cases semicolon with
        | false => cases ht
        | true =>
          cases ht
          decide
      · cases ht
        decide
      · cases ht
        decide

/-- However the pieces of a text are told apart as those of a query, they make up its clauses. -/
theorem Query.IsProper.clauses {q : Query} (hq : q.IsProper refusedWords) (hl : Laid ps cs)
    (ht : ps.map Piece.token = q.tokens asc semicolon) :
    ∃ head clause tail, ps = head ++ clause ++ tail ∧ q.Clauses asc semicolon head clause tail := by
  have hproper := (hq.written ⟨ps, hl, ht⟩).proper
  have hspells := hl.spells
  rw [q.tokens_eq] at ht
  obtain ⟨head, rest, rfl, hhead, hrest⟩ := List.map_eq_append_iff.mp ht
  obtain ⟨clause, tail, rfl, hclause, htail⟩ := List.map_eq_append_iff.mp hrest
  have hmem : ∀ p ∈ clause, p.token ∈ whereTokens q.conditions := by
    intro p hp
    rw [← hclause]
    exact List.mem_map_of_mem hp
  have hpiece : ∀ p ∈ clause, (∃ after, p.token.Spells p.text after) ∧ p.token.Proper := by
    intro p hp
    have hin : p.token ∈ q.tokens asc semicolon := by
      rw [q.tokens_eq]
      exact List.mem_append_right _ (List.mem_append_left _ (hmem p hp))
    exact ⟨hspells p (List.mem_append_right _ (List.mem_append_left _ hp)), hproper _ hin⟩
  refine ⟨head, clause, tail, (List.append_assoc _ _ _).symm, hhead, hclause, htail, ?_, ?_, ?_, ?_⟩
  · intro p hp
    apply q.next_table asc semicolon
    rw [← hrest, List.head?_map]
    exact Option.mem_map_of_mem _ hp
  · intro hne
    rw [hclause]
    apply (count_and_whereTokens _).symm
    intro hnil
    rw [hnil] at hclause
    exact hne (List.map_eq_nil_iff.mp hclause)
  · intro p hp ho
    obtain ⟨⟨after, hs⟩, -⟩ := hpiece p hp
    exact hs.placeholder_iff ho
  · intro p hp
    obtain ⟨⟨after, hs⟩, hpp⟩ := hpiece p hp
    exact hs.quoted_or_plain hpp (Token.inWhere_of_mem_whereTokens _ (hmem p hp))

/-- Nothing in an accepted text is ignored: a text is accepted with a result exactly if it is the tokens of that query
with blanks between them. However these are told apart, they make up its clauses, and the text of the result is accepted
with the same result. -/
theorem Query.parse_exact (s : String) (q : Query) :
    (Query.parse s = .ok q ↔ q.IsProper refusedWords ∧ ∃ asc semicolon, Writes (q.tokens asc semicolon) s.toList) ∧
    (Query.parse s = .ok q →
      (∀ asc semicolon ps, Laid ps s.toList → ps.map Piece.token = q.tokens asc semicolon →
        ∃ head clause tail, ps = head ++ clause ++ tail ∧ q.Clauses asc semicolon head clause tail) ∧
      Query.parse q.text = .ok q) := by
  refine ⟨Query.parse_eq_ok_iff, ?_⟩
  intro h
  obtain ⟨hq, -⟩ := Query.parse_eq_ok_iff.mp h
  constructor
  · intro asc semicolon ps hl ht
    exact hq.clauses hl ht
  · exact hq.parse_text

end QueryGateway.Sql
