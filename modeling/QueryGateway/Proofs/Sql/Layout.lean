import QueryGateway.Proofs.Sql.Words

namespace QueryGateway.Sql
set_option autoImplicit true

inductive Token where
  /-- A reserved word. -/
  | word (w : String)
  | name (s : String)
  /-- A bracket, a separator or the star. -/
  | mark (c : Char)
  | comparison (op : Comparison)
  | literal (s : String)
  | placeholder
  | element (s : String)
  | limit (s : String)
  deriving DecidableEq, Repr

def marks : List Char :=
  ['*', ',', '(', ')', '[', ']', ';']

/-- How a comparison may be written; what follows must not make it another one. -/
def ComparisonSpells : Comparison → List Char → List Char → Prop
  | .eq, text, _ => text = ['=']
  | .ne, text, _ => text = ['!', '='] ∨ text = ['<', '>']
  | .gt, text, rest => text = ['>'] ∧ Stops (· == '=') rest
  | .lt, text, rest => text = ['<'] ∧ Stops (fun c => c == '=' || c == '>') rest
  | .ge, text, _ => text = ['>', '=']
  | .le, text, _ => text = ['<', '=']
  | .like, text, rest => text.map Char.toLower = "like".toList ∧ Stops isWordChar rest

namespace Token

/-- How a token may be written where `rest` follows. -/
def Spells : Token → List Char → List Char → Prop
  | word w, text, rest => text.map Char.toLower = w.toList ∧ Stops isWordChar rest
  | name s, text, rest => text = s.toList ∧ Stops isWordChar rest
  | mark c, text, _ => text = [c]
  | comparison op, text, rest => ComparisonSpells op text rest
  | literal s, text, rest =>
    (∃ quote, (quote = '\'' ∨ quote = '"') ∧ quote ∉ s.toList ∧ text = quote :: s.toList ++ [quote]) ∨
      (IsBare s ∧ text = s.toList ∧ Stops isBareChar rest)
  | placeholder, text, _ => text = ['?']
  | element s, text, rest => text = s.toList ∧ Stops isElementChar rest
  | limit s, text, rest => text = s.toList ∧ Stops isLimitChar rest

/-- What a token must satisfy to be read again. -/
def Proper : Token → Prop
  | word w => w ∈ reservedWords
  | name s => IsName refusedWords s
  | mark c => c ∈ marks
  | element s => s.toList ≠ [] ∧ ∀ c ∈ s.toList, isElementChar c = true
  | limit s => s.toList ≠ [] ∧ ∀ c ∈ s.toList, isLimitChar c = true
  | _ => True

end Token

structure Piece where
  token : Token
  text : List Char

/-- The pieces one after the other, with blanks between them and at both ends. -/
inductive Laid : List Piece → List Char → Prop where
  | done {gap : List Char} (hg : ∀ c ∈ gap, isSpace c = true) : Laid [] gap
  | piece {gap rest : List Char} {p : Piece} {ps : List Piece} (hg : ∀ c ∈ gap, isSpace c = true)
      (hs : p.token.Spells p.text rest) (h : Laid ps rest) : Laid (p :: ps) (gap ++ p.text ++ rest)

/-- The text writes the tokens, with nothing else but blanks. -/
def Writes (ts : List Token) (cs : List Char) : Prop :=
  ∃ ps, Laid ps cs ∧ ps.map Piece.token = ts

namespace Token

def separate (sep : Token) : List (List Token) → List Token
  | [] => []
  | first :: more => first ++ more.flatMap (sep :: ·)

end Token

def Projection.tokens : Projection → List Token
  | .all => [.mark '*']
  | .columns names => Token.separate (.mark ',') (names.map fun s => [.name s])

def Operand.token : Operand → Token
  | .literal s => .literal s
  | .placeholder => .placeholder

def Condition.tokens (c : Condition) : List Token :=
  [.name c.column, .comparison c.op, c.operand.token]

def whereTokens : List Condition → List Token
  | [] => []
  | cs => .word "where" :: Token.separate (.word "and") (cs.map Condition.tokens)

def directionTokens (asc : Bool) : Direction → List Token
  | .ascending => if asc then [.word "asc"] else []
  | .descending => [.word "desc"]

def OrderItem.tokens (asc : Bool) : OrderItem → List Token
  | .column s d => .name s :: directionTokens asc d
  | .distance f s es d =>
    [.name f, .mark '(', .name s, .mark ',', .mark '['] ++
      (Token.separate (.mark ',') (es.map fun e => [.element e]) ++ .mark ']' :: .mark ')' :: directionTokens asc d)

def orderTokens (asc : Bool) : Option OrderItem → List Token
  | none => []
  | some item => .word "order" :: .word "by" :: item.tokens asc

def limitTokens : Option Limit → List Token
  | none => []
  | some ⟨none⟩ => [.word "limit"]
  | some ⟨some s⟩ => [.word "limit", .limit s]

def endTokens (semicolon : Bool) : List Token :=
  if semicolon then [.mark ';'] else []

/-- The tokens of a query. A text may also write out an ascending direction and may end with a semicolon. -/
def Query.tokens (q : Query) (asc semicolon : Bool) : List Token :=
  .word "select" :: (q.projection.tokens ++ .word "from" :: .name q.table ::
    (whereTokens q.conditions ++ (orderTokens asc q.order ++ (limitTokens q.limit ++ endTokens semicolon))))

def OrderItem.names : OrderItem → List String
  | .column s _ => [s]
  | .distance f s _ _ => [f, s]

def OrderItem.elements : OrderItem → List String
  | .column .. => []
  | .distance _ _ es _ => es

def Projection.names : Projection → List String
  | .all => []
  | .columns names => names

def Query.names (q : Query) : List String :=
  q.projection.names ++ q.table :: (q.conditions.map (·.column) ++ (q.order.map OrderItem.names).getD [])

/-- A query whose identifiers are none of the words, and whose other parts can be written. -/
structure Query.IsProper (words : List String) (q : Query) : Prop where
  names : ∀ s ∈ q.names, IsName words s
  columns : q.projection ≠ .columns []
  literals : ∀ c ∈ q.conditions, ∀ s, c.operand = .literal s → '\'' ∉ s.toList ∨ '"' ∉ s.toList
  elements : ∀ item ∈ q.order, ∀ e ∈ item.elements, e.toList ≠ [] ∧ ∀ c ∈ e.toList, isElementChar c = true
  limit : ∀ l ∈ q.limit, ∀ s ∈ l.token, s.toList ≠ [] ∧ ∀ c ∈ s.toList, isLimitChar c = true

theorem isWordChar_of_mem_marks (h : c ∈ marks) : isWordChar c = false := by
  have hall : marks.all (!isWordChar ·) = true := by decide
  simpa using List.all_eq_true.mp hall c h

theorem isSpace_of_mem_marks (h : c ∈ marks) : isSpace c = false := by
  have hall : marks.all (!isSpace ·) = true := by decide
  simpa using List.all_eq_true.mp hall c h

theorem like_reserved : "like" ∈ reservedWords := by
  decide

theorem ComparisonSpells.of_read (h : Read.comparison cs = some (op, rest)) :
    ∃ text, cs = text ++ rest ∧ ComparisonSpells op text rest := by
  unfold Read.comparison at h
  split at h
  · cases h
    exact ⟨['>', '='], rfl, rfl⟩
  · cases h
    exact ⟨['<', '='], rfl, rfl⟩
  · cases h
    exact ⟨['!', '='], rfl, .inl rfl⟩
  · cases h
    exact ⟨['<', '>'], rfl, .inr rfl⟩
  · cases h
    exact ⟨['='], rfl, rfl⟩
  · next cs h₁ =>
    cases h
    refine ⟨['>'], rfl, rfl, ?_⟩
    cases rest with
    | nil => exact .nil
    | cons c rest =>
      refine .cons (beq_eq_false_iff_ne.mpr ?_)
      rintro rfl
      exact h₁ _ rfl
  · next cs h₁ h₂ =>
    cases h
    refine ⟨['<'], rfl, rfl, ?_⟩
    cases rest with
    | nil => exact .nil
    | cons c rest =>
      refine .cons (Bool.or_eq_false_iff.mpr ⟨beq_eq_false_iff_ne.mpr ?_, beq_eq_false_iff_ne.mpr ?_⟩)
      · rintro rfl
        exact h₁ _ rfl
      · rintro rfl
        exact h₂ _ rfl
  · obtain ⟨rest', hk, heq⟩ := Option.map_eq_some_iff.mp h
    cases heq
    obtain ⟨text, rfl, hs⟩ := (keyword?_eq_some_iff like_reserved).mp hk
    exact ⟨text, rfl, hs⟩

theorem ComparisonSpells.read (h : ComparisonSpells op text rest) :
    Read.comparison (text ++ rest) = some (op, rest) := by
  cases op with
  | eq =>
    have h : text = ['='] := h
    subst h
    rfl
  | ne =>
    rcases h with rfl | rfl
    · rfl
    · rfl
  | gt =>
    obtain ⟨rfl, hr⟩ := h
    cases rest with
    | nil => rfl
    | cons c rest =>
      have hc : c ≠ '=' := by simpa using hr c rfl
      simp only [List.singleton_append]
      unfold Read.comparison
      split <;> simp_all
  | lt =>
    obtain ⟨rfl, hr⟩ := h
    cases rest with
    | nil => rfl
    | cons c rest =>
      have hc : c ≠ '=' ∧ c ≠ '>' := by simpa using hr c rfl
      simp only [List.singleton_append]
      unfold Read.comparison
      split <;> simp_all
  | ge =>
    have h : text = ['>', '='] := h
    subst h
    rfl
  | le =>
    have h : text = ['<', '='] := h
    subst h
    rfl
  | like =>
    have hk := (keyword?_eq_some_iff like_reserved).mpr ⟨text, rfl, h⟩
    obtain ⟨c, front, rfl, hc, -⟩ := List.map_eq_cons_iff.mp h.1
    unfold Read.comparison
    split
    case h_8 =>
      rw [hk]
      rfl
    -- no other comparison begins with that letter
    all_goals
      next heq =>
        rw [(List.cons.inj heq).1] at hc
        cases hc

theorem comparison_eq_some_iff :
    Read.comparison cs = some (op, rest) ↔ ∃ text, cs = text ++ rest ∧ ComparisonSpells op text rest := by
  constructor
  · exact ComparisonSpells.of_read
  · rintro ⟨text, rfl, h⟩
    exact h.read

theorem mark?_eq_none_iff : mark? c cs = none ↔ cs.head? ≠ some c := by
  cases cs with
  | nil => exact iff_of_true rfl (Option.some_ne_none c).symm
  | cons c' cs =>
    rw [List.head?_cons, Ne, Option.some.injEq, mark?]
    split
    · next h => exact iff_of_false (Option.some_ne_none cs) (not_not_intro (eq_of_beq h))
    · next h => exact ⟨fun _ heq => h (beq_iff_eq.mpr heq), fun _ => rfl⟩

theorem IsBare.head?_ne (h : IsBare s) (rest : List Char) : (s.toList ++ rest).head? ≠ some '?' := by
  obtain ⟨c, t, hl⟩ := List.exists_cons_of_ne_nil h.ne_nil
  have hv := h.value
  rw [hl] at hv ⊢
  exact hv

theorem IsBare.quoted?_eq_none (h : IsBare s) (rest : List Char) : quoted? (s.toList ++ rest) = none := by
  obtain ⟨c, t, hl⟩ := List.exists_cons_of_ne_nil h.ne_nil
  rw [Option.eq_none_iff_forall_ne_some]
  rintro ⟨s', rest'⟩ hs
  obtain ⟨quote, hq, -, heq⟩ := quoted?_eq_some_iff.mp hs
  have hc := h.chars c (by rw [hl]; exact List.mem_cons_self)
  rw [hl, List.cons_append, List.cons_append, List.cons.injEq] at heq
  rw [heq.1] at hc
  rcases hq with rfl | rfl
  · cases hc
  · cases hc

theorem operand_eq_some_iff :
    Read.operand cs = some (o, rest) ↔ ∃ text, cs = text ++ rest ∧ o.token.Spells text rest := by
  unfold Read.operand
  constructor
  · intro h
    split at h
    · next rest' hm =>
      cases h
      exact ⟨['?'], mark?_eq_some_iff.mp hm, rfl⟩
    · next hm =>
      obtain ⟨⟨s, rest'⟩, hv, heq⟩ := Option.map_eq_some_iff.mp h
      cases heq
      rw [Option.orElse_eq_orElse, Option.orElse_eq_or, Option.or_eq_some_iff] at hv
      rcases hv with hq | ⟨-, hb⟩
      · obtain ⟨quote, hquote, hns, rfl⟩ := quoted?_eq_some_iff.mp hq
        refine ⟨quote :: s.toList ++ [quote], ?_, .inl ⟨quote, hquote, hns, rfl⟩⟩
        rw [List.append_assoc, List.singleton_append]
      · obtain ⟨hbare, hr, rfl⟩ := (bare?_eq_some_iff (mark?_eq_none_iff.mp hm)).mp hb
        exact ⟨s.toList, rfl, .inr ⟨hbare, rfl, hr⟩⟩
  · rintro ⟨text, rfl, h⟩
    cases o with
    | placeholder =>
      have h : text = ['?'] := h
      subst h
      rfl
    | literal s =>
      rcases h with ⟨quote, hq, hns, rfl⟩ | ⟨hb, rfl, hr⟩
      · have hquoted : quoted? (quote :: s.toList ++ [quote] ++ rest) = some (s, rest) :=
          quoted?_eq_some_iff.mpr ⟨quote, hq, hns, by rw [List.append_assoc, List.singleton_append]⟩
        have hmark : mark? '?' (quote :: s.toList ++ [quote] ++ rest) = none := by
          rcases hq with rfl | rfl
          · rfl
          · rfl
        simp only [hmark, hquoted]
        rfl
      · have hhead := hb.head?_ne rest
        have hbare := (bare?_eq_some_iff hhead).mpr ⟨hb, hr, rfl⟩
        simp only [mark?_eq_none_iff.mpr hhead, hb.quoted?_eq_none, hbare]
        rfl

theorem isSpace_of_isBareChar (h : isBareChar c = true) : isSpace c = false := by
  simp only [isBareChar, Bool.not_eq_true', Bool.or_eq_false_iff] at h
  exact h.1.1.1.1.1.1

theorem isSpace_of_isElementChar (h : isElementChar c = true) : isSpace c = false := by
  simp only [isElementChar, Bool.not_eq_true', Bool.or_eq_false_iff] at h
  exact h.2

theorem isSpace_of_isLimitChar (h : isLimitChar c = true) : isSpace c = false := by
  simp only [isLimitChar, Bool.not_eq_true', Bool.or_eq_false_iff] at h
  exact h.1

theorem stops_append (hne : text ≠ []) (h : ∀ c ∈ text, isSpace c = false) : Stops isSpace (text ++ rest) := by
  cases text with
  | nil => exact absurd rfl hne
  | cons c text => exact .cons (h c List.mem_cons_self)

theorem Token.Spells.stops {t : Token} (h : t.Spells text rest) (hp : t.Proper) :
    text ≠ [] ∧ Stops isSpace (text ++ rest) := by
  have chars {s : List Char} {p : Char → Bool} (hne : s ≠ []) (hs : ∀ c ∈ s, p c = true)
      (hsp : ∀ c, p c = true → isSpace c = false) : s ≠ [] ∧ Stops isSpace (s ++ rest) :=
    ⟨hne, stops_append hne fun c hc => hsp c (hs c hc)⟩
  cases t with
  | word w =>
    have hword := isWordChar_of_map_toLower (reservedWords_word w hp) h.1
    refine chars (fun hn => reservedWords_ne_nil w hp ?_) hword fun _ => isSpace_of_isWordChar
    rw [← h.1, hn]
    rfl
  | name s =>
    obtain ⟨rfl, -⟩ := h
    exact chars hp.identifier.ne_nil hp.identifier.1 fun _ => isSpace_of_isWordChar
  | mark c =>
    have h : text = [c] := h
    subst h
    exact ⟨List.cons_ne_nil _ _, .cons (isSpace_of_mem_marks hp)⟩
  | comparison op =>
    cases op with
    | like =>
      refine chars (fun hn => ?_) (isWordChar_of_map_toLower (reservedWords_word _ like_reserved) h.1)
        fun _ => isSpace_of_isWordChar
      have hl := h.1
      rw [hn] at hl
      cases hl
    | ne =>
      rcases h with rfl | rfl
      · exact ⟨List.cons_ne_nil _ _, .cons rfl⟩
      · exact ⟨List.cons_ne_nil _ _, .cons rfl⟩
    | gt =>
      rw [h.1]
      exact ⟨List.cons_ne_nil _ _, .cons rfl⟩
    | lt =>
      rw [h.1]
      exact ⟨List.cons_ne_nil _ _, .cons rfl⟩
    | _ =>
      simp only [Spells, ComparisonSpells] at h
      rw [h]
      exact ⟨List.cons_ne_nil _ _, .cons rfl⟩
  | literal s =>
    rcases h with ⟨quote, rfl | rfl, -, rfl⟩ | ⟨hb, rfl, -⟩
    · exact ⟨List.cons_ne_nil _ _, .cons rfl⟩
    · exact ⟨List.cons_ne_nil _ _, .cons rfl⟩
    · exact chars hb.ne_nil hb.chars fun _ => isSpace_of_isBareChar
  | placeholder =>
    have h : text = ['?'] := h
    subst h
    exact ⟨List.cons_ne_nil _ _, .cons rfl⟩
  | element s =>
    rw [h.1]
    exact chars hp.1 hp.2 fun _ => isSpace_of_isElementChar
  | limit s =>
    rw [h.1]
    exact chars hp.1 hp.2 fun _ => isSpace_of_isLimitChar

/-- A text that writes tokens each of which can be read again. -/
structure Written (ts : List Token) (cs : List Char) : Prop where
  writes : Writes ts cs
  proper : ∀ t ∈ ts, t.Proper

namespace Written

theorem skip (h : Written ts cs) : Written ts (skipSpaces cs) := by
  obtain ⟨⟨ps, hps, rfl⟩, hp⟩ := h
  refine ⟨⟨ps, ?_, rfl⟩, hp⟩
  cases hps with
  | done hg =>
    rw [← List.append_nil cs, skipSpaces_append hg]
    exact .done (List.forall_mem_nil _)
  | piece hg hs hps =>
    obtain ⟨-, hstop⟩ := hs.stops (hp _ List.mem_cons_self)
    rw [List.append_assoc, skipSpaces_append hg, skipSpaces_of_stops hstop]
    exact .piece (List.forall_mem_nil _) hs hps

theorem of_skip (h : Written ts (skipSpaces cs)) : Written ts cs := by
  obtain ⟨⟨ps, hps, rfl⟩, hp⟩ := h
  refine ⟨⟨ps, ?_, rfl⟩, hp⟩
  obtain ⟨gap, hg, hcs⟩ := exists_gap cs
  generalize hcs' : skipSpaces cs = cs' at hps hcs
  subst hcs
  cases hps with
  | done hg' => exact .done fun c hc => (List.mem_append.mp hc).elim (hg c) (hg' c)
  | @piece gap' rest p ps hg' hs hps =>
    rw [List.append_assoc gap', ← List.append_assoc gap, ← List.append_assoc (gap ++ gap')]
    exact .piece (fun c hc => (List.mem_append.mp hc).elim (hg c) (hg' c)) hs hps

theorem uncons (h : Written (t :: ts) cs) :
    ∃ text rest, skipSpaces cs = text ++ rest ∧ t.Spells text rest ∧ t.Proper ∧ Written ts rest := by
  obtain ⟨⟨ps, hps, hts⟩, hp⟩ := h
  cases hps with
  | done => cases hts
  | @piece gap rest p ps hg hs hps =>
    cases hts
    obtain ⟨-, hstop⟩ := hs.stops (hp _ List.mem_cons_self)
    refine ⟨p.text, rest, ?_, hs, hp _ List.mem_cons_self, ⟨ps, hps, rfl⟩,
      fun t ht => hp t (List.mem_cons_of_mem _ ht)⟩
    rw [List.append_assoc, skipSpaces_append hg, skipSpaces_of_stops hstop]

theorem cons (h : Written ts rest) (hs : t.Spells text rest) (hp : t.Proper) (hcs : skipSpaces cs = text ++ rest) :
    Written (t :: ts) cs := by
  obtain ⟨⟨ps, hps, rfl⟩, hps'⟩ := h
  obtain ⟨gap, hg, heq⟩ := exists_gap cs
  refine ⟨⟨⟨t, text⟩ :: ps, ?_, rfl⟩, fun t' ht => ?_⟩
  · rw [heq, hcs, ← List.append_assoc]
    exact .piece (p := ⟨t, text⟩) hg hs hps
  · rcases List.mem_cons.mp ht with rfl | ht
    · exact hp
    · exact hps' t' ht

theorem nil_iff : Written [] cs ↔ skipSpaces cs = [] := by
  constructor
  · rintro ⟨⟨ps, hps, hts⟩, -⟩
    cases hps with
    | done hg => exact (List.append_nil cs) ▸ skipSpaces_append hg
    | piece => cases hts
  · intro h
    obtain ⟨gap, hg, heq⟩ := exists_gap cs
    rw [heq, h, List.append_nil]
    exact ⟨⟨[], .done hg, rfl⟩, List.forall_mem_nil _⟩

end Written

end QueryGateway.Sql
