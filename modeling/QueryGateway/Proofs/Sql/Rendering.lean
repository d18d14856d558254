import QueryGateway.Proofs.Sql.Proper

namespace QueryGateway.Sql
set_option autoImplicit true

namespace Token

/-- How a token may be spelled, whatever follows. A literal stands between quotes that it does not contain. -/
def IsSpelling : Token → List Char → Prop
  | word w, text => text.map Char.toLower = w.toList
  | name s, text => text = s.toList
  | mark c, text => text = [c]
  | comparison op, text => ComparisonSpells op text []
  | literal s, text => ∃ quote, (quote = '\'' ∨ quote = '"') ∧ quote ∉ s.toList ∧ text = quote :: s.toList ++ [quote]
  | placeholder, text => text = ['?']
  | element s, text => text = s.toList
  | limit s, text => text = s.toList

def isPunctuation : Token → Bool
  | mark _ | literal _ | placeholder => true
  | comparison op => op != .like
  | word _ | name _ | element _ | limit _ => false

/-- Whether the next token may follow without blanks: one of the two is punctuation. The values of a vector and of a
limit may contain most punctuation themselves, so that only what ends them may follow. -/
def adjoins : Token → Token → Bool
  | word _, next | name _, next => next.isPunctuation
  | comparison .like, next => next.isPunctuation
  | comparison _, literal _ | comparison _, placeholder => true
  | comparison _, _ => false
  | element _, next => next == mark ',' || next == mark ']'
  | limit _, next => next == mark ';'
  | mark _, _ | literal _, _ | placeholder, _ => true

end Token

/-- The tokens one after the other, each followed by blanks, which may be missing only where the next one adjoins. -/
inductive Renders : List Token → List Char → Prop where
  | nil : Renders [] []
  | cons {t : Token} {ts : List Token} {rest : List Char} (text gap : List Char) (hs : t.IsSpelling text)
      (hg : ∀ c ∈ gap, isSpace c = true) (ha : gap = [] → ∀ next ∈ ts.head?, t.adjoins next = true)
      (h : Renders ts rest) : Renders (t :: ts) (text ++ gap ++ rest)

/-- A query rendered as a text, with blanks at both ends. -/
def Query.Renders (q : Query) (cs : List Char) : Prop :=
  ∃ asc semicolon gap rest,
    cs = gap ++ rest ∧ (∀ c ∈ gap, isSpace c = true) ∧ Sql.Renders (q.tokens asc semicolon) rest

namespace Token

def goesOn : Token → Char → Bool
  | word _ | name _ | comparison .like => isWordChar
  | comparison .gt => (· == '=')
  | comparison .lt => fun c => c == '=' || c == '>'
  | element _ => isElementChar
  | limit _ => isLimitChar
  | _ => fun _ => false

theorem IsSpelling.spells {t : Token} (h : t.IsSpelling text) (hr : Stops t.goesOn rest) : t.Spells text rest := by
  cases t with
  | comparison op =>
    cases op with
    | gt => exact ⟨h.1, hr⟩
    | lt => exact ⟨h.1, hr⟩
    | like => exact ⟨h.1, hr⟩
    | _ => exact h
  | literal s => exact .inl h
  | mark c => exact h
  | placeholder => exact h
  | _ => exact ⟨h, hr⟩

theorem goesOn_of_isSpace (t : Token) (h : isSpace c = true) : t.goesOn c = false := by
  cases t with
  | comparison op =>
    cases op <;> rcases isSpace_iff.mp h with rfl | rfl | rfl | rfl <;> rfl
  | _ => rcases isSpace_iff.mp h with rfl | rfl | rfl | rfl <;> rfl

theorem stops_goesOn_of_blank (t : Token) (hg : ∀ c ∈ gap, isSpace c = true) (hne : gap ≠ []) :
    Stops t.goesOn (gap ++ rest) := by
  cases gap with
  | nil => exact absurd rfl hne
  | cons c gap => exact .cons (t.goesOn_of_isSpace (hg c List.mem_cons_self))

theorem IsSpelling.stops_of_isPunctuation {t : Token} (h : t.IsSpelling text) (hp : t.Proper)
    (ht : t.isPunctuation = true) : Stops isWordChar (text ++ rest) := by
  cases t with
  | mark c =>
    rw [show text = [c] from h]
    exact .cons (isWordChar_of_mem_marks hp)
  | comparison op =>
    cases op with
    | ne =>
      rcases h with rfl | rfl
      · exact .cons rfl
      · exact .cons rfl
    | like => cases ht
    | gt =>
      rw [h.1]
      exact .cons rfl
    | lt =>
      rw [h.1]
      exact .cons rfl
    | _ =>
      simp only [IsSpelling, ComparisonSpells] at h
      rw [h]
      exact .cons rfl
  | literal s =>
    obtain ⟨quote, rfl | rfl, -, rfl⟩ := h
    · exact .cons rfl
    · exact .cons rfl
  | placeholder =>
    rw [show text = ['?'] from h]
    exact .cons rfl
  | _ => cases ht

theorem IsSpelling.stops_goesOn {t next : Token} (h : next.IsSpelling text) (hp : next.Proper)
    (ha : t.adjoins next = true) : Stops t.goesOn (text ++ rest) := by
  have operand (h : (∃ s, next = .literal s) ∨ next = .placeholder) (hs : next.IsSpelling text) :
      Stops (fun c => c == '=' || c == '>') (text ++ rest) := by
    rcases h with ⟨s, rfl⟩ | rfl
    · obtain ⟨quote, rfl | rfl, -, rfl⟩ := hs
      · exact .cons rfl
      · exact .cons rfl
    · rw [show text = ['?'] from hs]
      exact .cons rfl
  have begins {c : Char} (h : next = .mark c) (hs : next.IsSpelling text) : text = [c] := by
    subst h
    exact hs
  cases t with
  | word w => exact h.stops_of_isPunctuation hp ha
  | name s => exact h.stops_of_isPunctuation hp ha
  | mark c => exact fun _ _ => rfl
  | literal s => exact fun _ _ => rfl
  | placeholder => exact fun _ _ => rfl
  | comparison op =>
    cases op with
    | like => exact h.stops_of_isPunctuation hp ha
    | gt =>
      refine (operand ?_ h).mono fun c hc => ?_
      · cases next <;> simp_all [adjoins]
      · rw [Bool.or_eq_true]
        exact .inl hc
    | lt =>
      refine operand ?_ h
      cases next <;> simp_all [adjoins]
    | _ => exact fun _ _ => rfl
  | element s =>
    rcases (Bool.or_eq_true _ _).mp ha with hc | hc
    · rw [begins (eq_of_beq hc) h]
      exact .cons rfl
    · rw [begins (eq_of_beq hc) h]
      exact .cons rfl
  | limit s =>
    rw [begins (eq_of_beq ha) h]
    exact .cons rfl

end Token

namespace Renders

theorem written (h : Renders ts cs) (hp : ∀ t ∈ ts, t.Proper) : Written ts cs := by
  induction h with
  | nil => exact Written.nil_iff.mpr rfl
  | @cons t ts rest _ gap hs hg ha h ih =>
    obtain ⟨hpt, hpts⟩ := List.forall_mem_cons.mp hp
    have hstops : Stops t.goesOn (gap ++ rest) := by
      by_cases hgap : gap = []
      · rw [hgap, List.nil_append]
        cases h with
        | nil => exact .nil
        | cons _ _ hs' =>
          rw [List.append_assoc]
          exact hs'.stops_goesOn (hpts _ List.mem_cons_self) (ha hgap _ rfl)
      · exact t.stops_goesOn_of_blank hg hgap
    have hspells := hs.spells hstops
    have hrest : Written ts (gap ++ rest) := by
      refine .of_skip ?_
      rw [skipSpaces_append hg]
      exact (ih hpts).skip
    rw [List.append_assoc]
    exact hrest.cons hspells hpt (skipSpaces_of_stops (hspells.stops hpt).2)

end Renders

/-- Every rendering of a query whose names are not refused writes its tokens. -/
theorem Query.Renders.written {q : Query} (h : q.Renders cs) (hq : q.IsProper refusedWords) :
    ∃ asc semicolon, Written (q.tokens asc semicolon) cs := by
  obtain ⟨asc, semicolon, gap, rest, rfl, hg, hr⟩ := h
  refine ⟨asc, semicolon, .of_skip ?_⟩
  rw [skipSpaces_append hg]
  exact (hr.written (Query.tokens_proper.mpr ⟨hq.names, hq.elements, hq.limit⟩)).skip

def quoteFor (s : String) : Char :=
  if '\'' ∈ s.toList then '"' else '\''

def Token.text : Token → List Char
  | word w => w.toList.map Char.toUpper
  | name s => s.toList
  | mark c => [c]
  | comparison op => op.sql.toList
  | literal s => quoteFor s :: s.toList ++ [quoteFor s]
  | placeholder => ['?']
  | element s => s.toList
  | limit s => s.toList

def spaced : List Token → List Char
  | [] => []
  | [t] => t.text
  | t :: ts => t.text ++ ' ' :: spaced ts

/-- The text of a query: reserved words in capitals, one blank between tokens. -/
def Query.text (q : Query) : String :=
  String.ofList (spaced (q.tokens false false))

theorem toLower_toUpper : ∀ w ∈ reservedWords, (w.toList.map Char.toUpper).map Char.toLower = w.toList := by
  decide

theorem Token.isSpelling_text {t : Token} (hp : t.Proper) (hq : t.Quotable) : t.IsSpelling t.text := by
  cases t with
  | word w => exact toLower_toUpper w hp
  | comparison op =>
    cases op with
    | ne => exact .inr rfl
    | gt => exact ⟨rfl, .nil⟩
    | lt => exact ⟨rfl, .nil⟩
    | like => exact ⟨by decide, .nil⟩
    | _ => rfl
  | literal s =>
    refine ⟨quoteFor s, ?_, ?_, rfl⟩
    · unfold quoteFor
      split
      · exact .inr rfl
      · exact .inl rfl
    · unfold quoteFor
      split
      · next hm => exact (hq s rfl).resolve_left fun hn => hn hm
      · next hm => exact hm
  | _ => rfl

theorem renders_spaced {ts : List Token} (hp : ∀ t ∈ ts, t.Proper) (hq : ∀ t ∈ ts, t.Quotable) :
    Renders ts (spaced ts) := by
  induction ts with
  | nil => exact .nil
  | cons t ts ih =>
    obtain ⟨hpt, hpts⟩ := List.forall_mem_cons.mp hp
    obtain ⟨hqt, hqts⟩ := List.forall_mem_cons.mp hq
    have hs := Token.isSpelling_text hpt hqt
    cases ts with
    | nil =>
      have hr : Renders [t] (t.text ++ [] ++ []) :=
        .cons t.text [] hs (List.forall_mem_nil _) (fun _ _ => nofun) .nil
      rw [List.append_nil, List.append_nil] at hr
      exact hr
    | cons next ts =>
      have hblank : ∀ c ∈ [' '], isSpace c = true := List.forall_mem_singleton.mpr rfl
      have hr := Renders.cons t.text [' '] hs hblank (absurd · (List.cons_ne_nil _ _)) (ih hpts hqts)
      rw [List.append_assoc, List.singleton_append] at hr
      exact hr

/-- The text of a query that can be written is a rendering of it. -/
theorem Query.IsProper.renders_text {q : Query} (h : q.IsProper refusedWords) : q.Renders q.text.toList := by
  refine ⟨false, false, [], _, String.toList_ofList, List.forall_mem_nil _, ?_⟩
  exact renders_spaced (Query.tokens_proper.mpr ⟨h.names, h.elements, h.limit⟩)
    (Query.tokens_quotable.mpr h.literals)

end QueryGateway.Sql
