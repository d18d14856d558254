import QueryGateway.Proofs.Sql.Language

namespace QueryGateway.Sql
set_option autoImplicit true

/-- The text is accepted with `v` as an operand that stands there without quotes. -/
def HoldsBare (s v : String) : Prop :=
  ∃ q asc semicolon ps, Query.parse s = .ok q ∧ Laid ps s.toList ∧ ps.map Piece.token = q.tokens asc semicolon ∧
    ⟨.literal v, v.toList⟩ ∈ ps

theorem Token.Spells.isBare {v : String} {rest : List Char} (h : (Token.literal v).Spells v.toList rest) :
    IsBare v := by
  rcases h with ⟨quote, -, -, heq⟩ | ⟨hb, -, -⟩
  · have hl := congrArg List.length heq
    rw [List.length_append, List.length_cons, List.length_singleton] at hl
    omega
  · exact hb

theorem HoldsBare.not_refused (h : HoldsBare s v) : Text.lower v ∉ refusedWords := by
  obtain ⟨q, asc, semicolon, ps, -, hl, -, hm⟩ := h
  obtain ⟨rest, hs⟩ := hl.spells _ hm
  exact hs.isBare.lower_not_mem

theorem laid_spaced {gap : List Char} (hg : ∀ c ∈ gap, isSpace c = true)
    (h : ∀ p ∈ ps, ∀ rest, p.token.Spells p.text (' ' :: rest)) :
    Laid ps (gap ++ ps.flatMap fun p => p.text ++ [' ']) := by
  induction ps generalizing gap with
  | nil =>
    rw [List.flatMap_nil, List.append_nil]
    exact .done hg
  | cons p ps ih =>
    obtain ⟨hp, hps⟩ := List.forall_mem_cons.mp h
    have hblank : ∀ c ∈ [' '], isSpace c = true := List.forall_mem_singleton.mpr rfl
    rw [List.flatMap_cons, List.append_assoc, ← List.append_assoc]
    exact .piece hg (hp _) (ih hblank hps)

theorem IsName.isBare (h : IsName refusedWords v) : IsBare v := by
  obtain ⟨hi, hfree⟩ := h
  refine ⟨hi.ne_nil, ?_, ?_, ?_⟩
  · intro c hc
    exact isBareChar_of_isWordChar (hi.1 c hc)
  · intro hv
    obtain ⟨c, hc, hstart⟩ := hi.2
    rw [hv] at hc
    cases hc
    cases hstart
  · intro w hw hf
    apply hfree
    rw [frontWord_of_word hi.1] at hf
    rw [lower_eq_iff.mpr hf]
    exact hw

def Token.plain : Token → Piece
  | literal s => ⟨literal s, s.toList⟩
  | t => ⟨t, t.text⟩

theorem Token.token_plain (t : Token) : t.plain.token = t := by
  cases t <;> rfl

theorem Token.spells_plain {t : Token} (hp : t.Proper) (hb : ∀ s, t = .literal s → IsBare s) (rest : List Char) :
    t.plain.token.Spells t.plain.text (' ' :: rest) := by
  have hstops : Stops t.goesOn (' ' :: rest) := .cons (t.goesOn_of_isSpace rfl)
  cases t with
  | literal s => exact .inr ⟨hb s rfl, rfl, .cons rfl⟩
  | _ => exact (isSpelling_text hp nofun).spells hstops

theorem Query.literal_mem_tokens {q : Query} {c : Condition} (hc : c ∈ q.conditions) (ho : c.operand = .literal v) :
    Token.literal v ∈ q.tokens asc semicolon := by
  apply Classical.byContradiction
  intro hn
  have hne : ∀ t ∈ q.tokens asc semicolon, t ≠ .literal v := fun t ht heq => hn (heq ▸ ht)
  rw [Query.forall_tokens (P := (· ≠ .literal v)) (fun _ _ => nofun) (fun _ _ => nofun) fun _ => nofun] at hne
  exact hne.2.1 c hc (Operand.token_eq_literal.mpr ho)

/-- A query may be written with all its literals without quotes, if each of them can stand so. -/
theorem Query.IsProper.holdsBare {q : Query} (hq : q.IsProper refusedWords)
    (hb : ∀ c ∈ q.conditions, ∀ s, c.operand = .literal s → IsBare s) :
    ∃ s, Query.parse s = .ok q ∧ ∀ c ∈ q.conditions, ∀ v, c.operand = .literal v → HoldsBare s v := by
  have hproper : ∀ t ∈ q.tokens false false, t.Proper :=
    Query.tokens_proper.mpr ⟨hq.names, hq.elements, hq.limit⟩
  have hbare : ∀ t ∈ q.tokens false false, ∀ s, t = .literal s → IsBare s := by
    apply (Query.forall_tokens (P := fun t => ∀ s, t = .literal s → IsBare s) (fun _ _ => nofun) (fun _ _ => nofun)
      fun _ => nofun).mpr
    refine ⟨fun _ _ => nofun, ?_, fun _ _ _ _ => nofun, fun _ _ _ _ => nofun⟩
    intro c hc s hs
    exact hb c hc s (Operand.token_eq_literal.mp hs)
  have hspells : ∀ p ∈ (q.tokens false false).map Token.plain, ∀ rest, p.token.Spells p.text (' ' :: rest) := by
    intro p hp
    obtain ⟨t, ht, rfl⟩ := List.mem_map.mp hp
    exact Token.spells_plain (hproper t ht) (hbare t ht)
  have hl := laid_spaced (List.forall_mem_nil _) hspells
  rw [← String.toList_ofList (l := [] ++ _)] at hl
  have ht : ((q.tokens false false).map Token.plain).map Piece.token = q.tokens false false := by
    rw [List.map_map]
    exact List.map_id'' Token.token_plain _
  have hparse := Query.parse_eq_ok_iff.mpr ⟨hq, false, false, _, hl, ht⟩
  refine ⟨_, hparse, ?_⟩
  intro c hc v hv
  exact ⟨q, false, false, _, hparse, hl, ht, List.mem_map_of_mem (Query.literal_mem_tokens hc hv)⟩

theorem IsName.holdsBare (h : IsName refusedWords v) : ∃ s, HoldsBare s v := by
  have hbare := h.isBare
  have hq : Query.IsProper refusedWords ⟨.all, v, [⟨v, .eq, .literal v⟩], none, none⟩ := by
    refine ⟨?_, nofun, ?_, nofun, nofun⟩
    · intro s hs
      have hs : s = v := by simpa [Query.names, Projection.names] using hs
      exact hs ▸ h
    · intro c hc s hs
      rw [List.mem_singleton.mp hc] at hs
      cases hs
      exact .inl (hbare.not_mem rfl)
  obtain ⟨s, -, hs⟩ := hq.holdsBare (by
    intro c hc s hs
    rw [List.mem_singleton.mp hc] at hs
    cases hs
    exact hbare)
  exact ⟨s, hs _ (List.mem_singleton_self _) v rfl⟩

theorem Query.IsProper.of_table (h : IsName refusedWords v) :
    Query.IsProper refusedWords ⟨.all, v, [], none, none⟩ := by
  refine ⟨?_, nofun, nofun, nofun, nofun⟩
  intro s hs
  rw [List.mem_singleton.mp hs]
  exact h

/-- A word that is not refused is reserved only if it is the one that extends another reserved word. -/
theorem mem_reservedWords_iff (h : w ∉ refusedWords) : w ∈ reservedWords ↔ w = "order" := by
  constructor
  · intro hw
    apply Classical.byContradiction
    intro hne
    exact h (mem_refusedWords_iff.mpr ⟨hw, hne⟩)
  · rintro rfl
    decide

theorem Query.names_accepted {v : String} (hv : IsIdentifier v) :
    (∃ s q, Query.parse s = .ok q ∧ v ∈ q.names) ↔ Text.lower v ∉ refusedWords := by
  constructor
  · rintro ⟨s, q, h, hm⟩
    exact ((Query.parse_eq_ok_iff.mp h).1.names v hm).free
  · intro hfree
    exact ⟨_, _, (Query.IsProper.of_table ⟨hv, hfree⟩).parse_text, List.mem_singleton_self v⟩

theorem Query.bare_accepted {v : String} (hv : IsIdentifier v) :
    (∃ s, HoldsBare s v) ↔ Text.lower v ∉ refusedWords := by
  constructor
  · rintro ⟨s, h⟩
    exact h.not_refused
  · intro hfree
    exact IsName.holdsBare ⟨hv, hfree⟩

/-- The names and the values without quotes of an accepted text are no reserved words, in any letter case, except for
the one that extends another of them. Every identifier that is not refused can be any name of a query, and can be a
value without quotes. -/
theorem Query.reserved_words (s : String) (q : Query) (v : String) :
    (Query.parse s = .ok q → v ∈ q.names →
      IsIdentifier v ∧ (Text.lower v ∈ reservedWords ↔ Text.lower v = "order")) ∧
    (HoldsBare s v → (Text.lower v ∈ reservedWords ↔ Text.lower v = "order")) ∧
    (q.IsProper refusedWords → q.Renders s.toList → Query.parse s = .ok q) ∧
    (IsIdentifier v →
      ((∃ s q, Query.parse s = .ok q ∧ v ∈ q.names) ↔ Text.lower v ∉ refusedWords) ∧
      ((∃ s, HoldsBare s v) ↔ Text.lower v ∉ refusedWords)) ∧
    (Text.lower v ∈ refusedWords ↔ Text.lower v ∈ reservedWords ∧ Text.lower v ≠ "order") := by
  refine ⟨?_, ?_, ?_, ?_, mem_refusedWords_iff⟩
  · intro h hm
    have hname := (Query.parse_eq_ok_iff.mp h).1.names v hm
    exact ⟨hname.identifier, mem_reservedWords_iff hname.free⟩
  · intro h
    exact mem_reservedWords_iff h.not_refused
  · intro hq h
    exact h.parse hq
  · intro hv
    exact ⟨Query.names_accepted hv, Query.bare_accepted hv⟩

end QueryGateway.Sql
