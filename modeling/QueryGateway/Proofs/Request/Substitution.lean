import QueryGateway.Proofs.Request.Translation
import QueryGateway.Proofs.Sql.Language

namespace QueryGateway
set_option autoImplicit true

namespace Sql

def Condition.fill : Condition → List String → Condition × List String
  | ⟨column, op, .placeholder⟩, arg :: args => (⟨column, op, .literal arg⟩, args)
  | c, args => (c, args)

def fillConditions : List Condition → List String → List Condition
  | [], _ => []
  | c :: more, args => (c.fill args).1 :: fillConditions more (c.fill args).2

def Query.fill (q : Query) (args : List String) : Query :=
  { q with conditions := fillConditions q.conditions args }

def Token.fill : List Token → List String → List Token
  | [], _ => []
  | .placeholder :: ts, arg :: args => .literal arg :: fill ts args
  | t :: ts, args => t :: fill ts args

theorem Token.fill_cons {t : Token} (h : t ≠ .placeholder) (ts : List Token) (args : List String) :
    fill (t :: ts) args = t :: fill ts args := by
  cases t with
  | placeholder => exact absurd rfl h
  | _ => cases args <;> rfl

theorem Token.fill_append {ts : List Token} (h : ∀ t ∈ ts, t ≠ .placeholder) (us : List Token) (args : List String) :
    fill (ts ++ us) args = ts ++ fill us args := by
  induction ts with
  | nil => rfl
  | cons t ts ih =>
    obtain ⟨ht, hts⟩ := List.forall_mem_cons.mp h
    rw [List.cons_append, fill_cons ht, ih hts, List.cons_append]

theorem Token.fill_self {ts : List Token} (h : ∀ t ∈ ts, t ≠ .placeholder) (args : List String) :
    fill ts args = ts := by
  have happend := fill_append h [] args
  rwa [List.append_nil, fill, List.append_nil] at happend

theorem Token.fill_condition (c : Condition) (ts : List Token) (args : List String) :
    fill (c.tokens ++ ts) args = (c.fill args).1.tokens ++ fill ts (c.fill args).2 := by
  obtain ⟨column, op, operand⟩ := c
  have hname : Token.name column ≠ .placeholder := Token.noConfusion
  have hop : Token.comparison op ≠ .placeholder := Token.noConfusion
  simp only [Condition.tokens, List.cons_append, fill_cons hname, fill_cons hop, List.nil_append]
  cases operand with
  | literal text =>
    have hliteral : Token.literal text ≠ .placeholder := Token.noConfusion
    rw [Operand.token, fill_cons hliteral]
    cases args <;> rfl
  | placeholder => cases args <;> rfl

theorem Token.fill_flatMap (hw : sep ≠ .placeholder) (hts : ∀ t ∈ ts, t ≠ .placeholder) (conditions : List Condition)
    (args : List String) :
    fill ((conditions.map Condition.tokens).flatMap (sep :: ·) ++ ts) args =
      ((fillConditions conditions args).map Condition.tokens).flatMap (sep :: ·) ++ ts := by
  induction conditions generalizing args with
  | nil => exact fill_self hts args
  | cons c more ih =>
    simp only [fillConditions, List.map_cons, List.flatMap_cons, List.cons_append, List.append_assoc]
    rw [fill_cons hw, fill_condition, ih]

theorem Token.fill_whereTokens (hts : ∀ t ∈ ts, t ≠ .placeholder) (conditions : List Condition) (args : List String) :
    fill (whereTokens conditions ++ ts) args = whereTokens (fillConditions conditions args) ++ ts := by
  cases conditions with
  | nil => exact fill_self hts args
  | cons c more =>
    have hwhere : Token.word "where" ≠ .placeholder := nofun
    have hand : Token.word "and" ≠ .placeholder := nofun
    change fill (.word "where" :: (c.tokens ++ (more.map Condition.tokens).flatMap (.word "and" :: ·) ++ ts)) args = _
    rw [fill_cons hwhere, List.append_assoc, fill_condition, fill_flatMap hand hts, ← List.append_assoc]
    rfl

theorem Query.head_tail_plain (q : Query) (asc semicolon : Bool) :
    (∀ t ∈ q.head, t ≠ .placeholder) ∧ ∀ t ∈ q.tail asc semicolon, t ≠ .placeholder := by
  have hall : ∀ t ∈ ({ q with conditions := [] } : Query).tokens asc semicolon, t ≠ .placeholder := by
    apply (Query.forall_tokens (P := fun t => t ≠ .placeholder) (fun _ _ => nofun) (fun _ _ => nofun)
      fun _ => nofun).mpr
    exact ⟨fun _ _ => nofun, List.forall_mem_nil _, fun _ _ _ _ => nofun, fun _ _ _ _ => nofun⟩
  rw [Query.tokens_eq, List.forall_mem_append, List.forall_mem_append] at hall
  exact ⟨hall.1, hall.2.2⟩

theorem Query.tokens_fill (q : Query) (args : List String) (asc semicolon : Bool) :
    (q.fill args).tokens asc semicolon = Token.fill (q.tokens asc semicolon) args := by
  obtain ⟨hhead, htail⟩ := q.head_tail_plain asc semicolon
  rw [Query.tokens_eq, Query.tokens_eq, Token.fill_append hhead, Token.fill_whereTokens htail]
  rfl

/-- The texts begin alike, except that a quote may stand for a question mark. -/
def BeginAlike (cs cs' : List Char) : Prop :=
  cs.head? = cs'.head? ∨ cs.head? = some '?' ∧ (cs'.head? = some '\'' ∨ cs'.head? = some '"')

theorem BeginAlike.append (h : BeginAlike rest rest') (front : List Char) :
    BeginAlike (front ++ rest) (front ++ rest') := by
  cases front with
  | nil => exact h
  | cons c front => exact .inl rfl

theorem Stops.of_beginAlike (h : Stops p rest) (hp : p '?' = false → p '\'' = false ∧ p '"' = false)
    (ha : BeginAlike rest rest') : Stops p rest' := by
  intro c hc
  rcases ha with heq | ⟨hmark, hquote⟩
  · exact h c (heq ▸ hc)
  · obtain ⟨hsingle, hdouble⟩ := hp (h '?' hmark)
    rcases hquote with heq | heq
    · cases heq.symm.trans hc
      exact hsingle
    · cases heq.symm.trans hc
      exact hdouble

theorem ComparisonSpells.of_beginAlike (h : ComparisonSpells op text rest) (ha : BeginAlike rest rest') :
    ComparisonSpells op text rest' := by
  cases op with
  | eq => exact h
  | ne => exact h
  | gt => exact ⟨h.1, h.2.of_beginAlike (fun _ => by decide) ha⟩
  | lt => exact ⟨h.1, h.2.of_beginAlike (fun _ => by decide) ha⟩
  | ge => exact h
  | le => exact h
  | like => exact ⟨h.1, h.2.of_beginAlike (fun _ => by decide) ha⟩

/-- A quote ends every token that a question mark ends. -/
theorem Token.Spells.of_beginAlike {t : Token} (h : t.Spells front rest) (ha : BeginAlike rest rest') :
    t.Spells front rest' := by
  cases t with
  | word w => exact ⟨h.1, h.2.of_beginAlike (fun _ => by decide) ha⟩
  | name s => exact ⟨h.1, h.2.of_beginAlike (fun _ => by decide) ha⟩
  | mark c => exact h
  | comparison op => exact ComparisonSpells.of_beginAlike h ha
  | literal s =>
    rcases h with hquoted | ⟨hb, htext, hstop⟩
    · exact .inl hquoted
    · exact .inr ⟨hb, htext, hstop.of_beginAlike (by decide) ha⟩
  | placeholder => exact h
  | element s => exact ⟨h.1, h.2.of_beginAlike (by decide) ha⟩
  | limit s => exact ⟨h.1, h.2.of_beginAlike (by decide) ha⟩

/-- A text in pieces, and the same text with each placeholder replaced by an argument in quotes that it does not
contain. -/
inductive Spliced : List Piece → List String → List Char → List Char → Prop where
  | done {gap : List Char} (hg : ∀ c ∈ gap, isSpace c = true) : Spliced [] [] gap gap
  | argument {gap rest rest' : List Char} {p : Piece} {ps : List Piece} {arg : String} {args : List String}
      (quote : Char) (hg : ∀ c ∈ gap, isSpace c = true) (hs : p.token.Spells p.text rest) (ht : p.token = .placeholder)
      (hq : quote = '\'' ∨ quote = '"') (ha : quote ∉ arg.toList) (h : Spliced ps args rest rest') :
      Spliced (p :: ps) (arg :: args) (gap ++ p.text ++ rest) (gap ++ (quote :: arg.toList ++ [quote]) ++ rest')
  | piece {gap rest rest' : List Char} {p : Piece} {ps : List Piece} {args : List String}
      (hg : ∀ c ∈ gap, isSpace c = true) (hs : p.token.Spells p.text rest) (ht : p.token ≠ .placeholder)
      (h : Spliced ps args rest rest') : Spliced (p :: ps) args (gap ++ p.text ++ rest) (gap ++ p.text ++ rest')

namespace Spliced

theorem beginAlike (h : Spliced ps args cs cs') : BeginAlike cs cs' := by
  induction h with
  | done hg => exact .inl rfl
  | @argument gap rest rest' p ps arg args quote hg hs ht hq ha h ih =>
    rw [ht] at hs
    have htext : p.text = ['?'] := hs
    rw [List.append_assoc, List.append_assoc, htext]
    apply BeginAlike.append
    refine .inr ⟨rfl, ?_⟩
    rcases hq with rfl | rfl
    · exact .inl rfl
    · exact .inr rfl
  | piece hg hs ht h ih => exact ih.append _

/-- The text with the arguments consists of the same tokens, the placeholders filled. -/
theorem writes (h : Spliced ps args cs cs') : Writes (Token.fill (ps.map Piece.token) args) cs' := by
  induction h with
  | done hg => exact ⟨[], .done hg, rfl⟩
  | @argument gap rest rest' p ps arg args quote hg hs ht hq ha h ih =>
    obtain ⟨ps', hlaid, htokens⟩ := ih
    have hliteral : (Token.literal arg).Spells (quote :: arg.toList ++ [quote]) rest' := .inl ⟨quote, hq, ha, rfl⟩
    refine ⟨⟨.literal arg, quote :: arg.toList ++ [quote]⟩ :: ps', .piece hg hliteral hlaid, ?_⟩
    rw [List.map_cons, List.map_cons, ht, htokens]
    rfl
  | @piece gap rest rest' p ps args hg hs ht h ih =>
    obtain ⟨ps', hlaid, htokens⟩ := ih
    refine ⟨p :: ps', .piece hg (hs.of_beginAlike h.beginAlike) hlaid, ?_⟩
    rw [List.map_cons, List.map_cons, Token.fill_cons ht, htokens]

end Spliced

/-- There is such a text if there are as many arguments as placeholders and each can be put in quotes. -/
theorem Laid.spliced (h : Laid ps cs) (hc : (ps.map Piece.token).count .placeholder = args.length)
    (ha : ∀ arg ∈ args, '\'' ∉ arg.toList ∨ '"' ∉ arg.toList) : ∃ cs', Spliced ps args cs cs' := by
  induction h generalizing args with
  | @done gap hg =>
    rw [List.length_eq_zero_iff.mp hc.symm]
    exact ⟨gap, .done hg⟩
  | @piece gap rest p ps hg hs h ih =>
    by_cases ht : p.token = .placeholder
    · rw [List.map_cons, ht, List.count_cons_self] at hc
      cases args with
      | nil => cases hc
      | cons arg args =>
        obtain ⟨harg, hargs⟩ := List.forall_mem_cons.mp ha
        obtain ⟨rest', hrest⟩ := ih (Nat.succ.inj hc) hargs
        rcases harg with hsingle | hdouble
        · exact ⟨_, .argument '\'' hg hs ht (.inl rfl) hsingle hrest⟩
        · exact ⟨_, .argument '"' hg hs ht (.inr rfl) hdouble hrest⟩
    · rw [List.map_cons, List.count_cons_of_ne ht] at hc
      obtain ⟨rest', hrest⟩ := ih hc ha
      exact ⟨_, .piece hg hs ht hrest⟩

theorem Condition.count_placeholder (c : Condition) :
    c.tokens.count .placeholder = if c.operand == .placeholder then 1 else 0 := by
  obtain ⟨column, op, operand⟩ := c
  cases operand <;> rfl

theorem count_placeholder_flatMap (hw : sep ≠ .placeholder) (conditions : List Condition) :
    ((conditions.map Condition.tokens).flatMap (sep :: ·)).count .placeholder =
      conditions.countP (·.operand == .placeholder) := by
  induction conditions with
  | nil => rfl
  | cons c more ih =>
    rw [List.map_cons, List.flatMap_cons, List.count_append, List.count_cons_of_ne hw, c.count_placeholder, ih,
      List.countP_cons, Nat.add_comm]

theorem Query.count_placeholder (q : Query) (asc semicolon : Bool) :
    (q.tokens asc semicolon).count .placeholder = q.placeholderCount := by
  obtain ⟨hhead, htail⟩ := q.head_tail_plain asc semicolon
  have hwhere : (whereTokens q.conditions).count .placeholder = q.placeholderCount := by
    rw [placeholderCount]
    cases q.conditions with
    | nil => rfl
    | cons c more =>
      have hkey : Token.word "where" ≠ .placeholder := nofun
      have hand : Token.word "and" ≠ .placeholder := nofun
      change (.word "where" :: (c.tokens ++ (more.map Condition.tokens).flatMap (.word "and" :: ·))).count _ = _
      rw [List.count_cons_of_ne hkey, List.count_append, c.count_placeholder, count_placeholder_flatMap hand,
        List.countP_cons, Nat.add_comm]
  rw [tokens_eq, List.count_append, List.count_append, hwhere,
    List.count_eq_zero.mpr fun hm => hhead _ hm rfl, List.count_eq_zero.mpr fun hm => htail _ hm rfl]
  omega

theorem Condition.fill_literal (column : String) (op : Comparison) (s : String) (args : List String) :
    Condition.fill ⟨column, op, .literal s⟩ args = (⟨column, op, .literal s⟩, args) := by
  cases args <;> rfl

theorem Condition.fill_column (c : Condition) (args : List String) : (c.fill args).1.column = c.column := by
  obtain ⟨column, op, operand⟩ := c
  cases operand with
  | literal s => rw [fill_literal]
  | placeholder => cases args <;> rfl

theorem fillConditions_columns (conditions : List Condition) (args : List String) :
    (fillConditions conditions args).map (·.column) = conditions.map (·.column) := by
  induction conditions generalizing args with
  | nil => rfl
  | cons c more ih => rw [fillConditions, List.map_cons, List.map_cons, c.fill_column, ih]

theorem literal_of_fillConditions (hc : c ∈ fillConditions conditions args) (ho : c.operand = .literal s) :
    (∃ c' ∈ conditions, c'.operand = .literal s) ∨ s ∈ args := by
  induction conditions generalizing args with
  | nil => cases hc
  | cons c' more ih =>
    obtain ⟨column, op, operand⟩ := c'
    rw [fillConditions, List.mem_cons] at hc
    cases operand with
    | literal text =>
      rw [Condition.fill_literal] at hc
      rcases hc with rfl | hmore
      · exact .inl ⟨_, List.mem_cons_self, ho⟩
      · exact (ih hmore).imp_left fun ⟨c', hm, hs⟩ => ⟨c', List.mem_cons_of_mem _ hm, hs⟩
    | placeholder =>
      cases args with
      | nil =>
        rcases hc with rfl | hmore
        · cases ho
        · exact (ih hmore).imp_left fun ⟨c', hm, hs⟩ => ⟨c', List.mem_cons_of_mem _ hm, hs⟩
      | cons arg args =>
        rcases hc with rfl | hmore
        · cases ho
          exact .inr List.mem_cons_self
        · exact (ih hmore).imp (fun ⟨c', hm, hs⟩ => ⟨c', List.mem_cons_of_mem _ hm, hs⟩) (List.mem_cons_of_mem _)

theorem Query.IsProper.fill {q : Query} (hq : q.IsProper words)
    (ha : ∀ arg ∈ args, '\'' ∉ arg.toList ∨ '"' ∉ arg.toList) : (q.fill args).IsProper words := by
  refine { hq with names := ?_, literals := ?_ }
  · have hnames : (q.fill args).names = q.names := by
      unfold Query.names Query.fill
      rw [fillConditions_columns]
    rw [hnames]
    exact hq.names
  · intro c hc s hs
    rcases literal_of_fillConditions hc hs with ⟨c', hm, ho⟩ | hm
    · exact hq.literals c' hm s ho
    · exact ha s hm

open Request.OfQuery

theorem predicates_fillConditions (conditions : List Condition) (args : List String) :
    predicates (fillConditions conditions args) [] = predicates conditions args := by
  fun_induction predicates conditions args with
  | case1 args => rfl
  | case2 column op text more args ih =>
    rw [fillConditions, Condition.fill_literal, predicates, ih]
  | case3 column op more arg args ih =>
    rw [fillConditions, Condition.fill, predicates, ih]
  | case4 column op more ih =>
    change predicates (⟨column, op, .placeholder⟩ :: fillConditions more []) [] = _
    rw [predicates, ih]

theorem countP_fillConditions (conditions : List Condition) (args : List String) :
    (fillConditions conditions args).countP (·.operand == .placeholder) =
      conditions.countP (·.operand == .placeholder) - args.length := by
  induction conditions generalizing args with
  | nil => rw [fillConditions, List.countP_nil, Nat.zero_sub]
  | cons c more ih =>
    obtain ⟨column, op, operand⟩ := c
    rw [fillConditions, List.countP_cons, List.countP_cons, ih]
    cases operand with
    | literal text =>
      rw [Condition.fill_literal]
      rfl
    | placeholder =>
      cases args with
      | nil => rfl
      | cons arg args =>
        change more.countP _ - args.length + 0 = more.countP _ + 1 - (args.length + 1)
        omega

theorem Query.toRequest_fill {q : Query} (h : q.placeholderCount = args.length) (t : FunctionTable) :
    (q.fill args).toRequest [] t = q.toRequest args t := by
  have hfilled : (q.fill args).placeholderCount = ([] : List String).length := by
    rw [placeholderCount, fill, countP_fillConditions]
    exact Nat.sub_eq_zero_of_le (Nat.le_of_eq h)
  rw [toRequest_eq hfilled, toRequest_eq h]
  simp only [fill, predicates_fillConditions]

/-- Comparisons that differ only in the values of placeholders. -/
structure SameApart (conditions : List Condition) (ps ps' : List Predicate) : Prop where
  length : ps.length = ps'.length
  each : ∀ (i : Nat) (c : Condition) (x x' : Predicate), conditions[i]? = some c → ps[i]? = some x →
    ps'[i]? = some x' →
      x.column = x'.column ∧ x.op = x'.op ∧ (c.operand ≠ .placeholder → x.value = x'.value)

theorem sameApart_of_binds (h : Binds conditions args ps)
    (h' : Binds conditions args' ps') : SameApart conditions ps ps' := by
  refine ⟨h.length.trans h'.length.symm, ?_⟩
  intro i c x x' hc hx hx'
  obtain ⟨hcolumn, hop, htext⟩ := h.each i c x hc hx
  obtain ⟨hcolumn', hop', htext'⟩ := h'.each i c x' hc hx'
  refine ⟨hcolumn.trans hcolumn'.symm, hop.trans hop'.symm, ?_⟩
  intro hne
  cases ho : c.operand with
  | literal s =>
    rw [ho] at htext htext'
    exact htext.trans htext'.symm
  | placeholder => exact absurd ho hne

/-- The same fault, or requests that differ only in the values of placeholders. -/
def AgreeApart (conditions : List Condition) : Except QueryError Prepared → Except QueryError Prepared → Prop
  | .error e, .error e' => e = e'
  | .ok p, .ok p' =>
    p.warnings = p'.warnings ∧ p.request.table = p'.request.table ∧ p.request.columns = p'.request.columns ∧
      p.request.ordering = p'.request.ordering ∧ p.request.limit = p'.request.limit ∧
        SameApart conditions p.request.predicates p'.request.predicates
  | _, _ => False

theorem Query.agreeApart (q : Query) (h : args'.length = args.length) (t : FunctionTable) :
    AgreeApart q.conditions (q.toRequest args t) (q.toRequest args' t) := by
  by_cases hc : q.placeholderCount = args.length
  · rw [toRequest_eq hc, toRequest_eq (hc.trans h.symm)]
    cases q.order.mapM (ordering t) with
    | error e => exact rfl
    | ok o =>
      cases limitOf q.limit with
      | error e => exact rfl
      | ok l =>
        have hsame := sameApart_of_binds (predicates_binds hc) (predicates_binds (hc.trans h.symm))
        exact ⟨rfl, rfl, rfl, rfl, rfl, hsame⟩
  · have hc' : q.placeholderCount ≠ args'.length := fun heq => hc (heq.trans h)
    rw [toRequest_of_count hc, toRequest_of_count hc', h]
    exact rfl

/-- The second text is the first with the arguments put into it. -/
def Query.Splices (q : Query) (args : List String) (s s' : String) : Prop :=
  ∃ asc semicolon ps, ps.map Piece.token = q.tokens asc semicolon ∧ Spliced ps args s.toList s'.toList

theorem Query.Splices.parse {q : Query} (h : q.Splices args s s') (hq : (q.fill args).IsProper refusedWords) :
    Query.parse s' = .ok (q.fill args) := by
  obtain ⟨asc, semicolon, ps, htokens, hspliced⟩ := h
  have hwrites := hspliced.writes
  rw [htokens, ← q.tokens_fill] at hwrites
  exact Query.parse_eq_ok_iff.mpr ⟨hq, asc, semicolon, hwrites⟩

theorem Query.exists_splices {q : Query} (h : Query.parse s = .ok q) (hc : q.placeholderCount = args.length)
    (ha : ∀ arg ∈ args, '\'' ∉ arg.toList ∨ '"' ∉ arg.toList) : ∃ s', q.Splices args s s' := by
  obtain ⟨-, asc, semicolon, ps, hlaid, htokens⟩ := Query.parse_eq_ok_iff.mp h
  have hcount : (ps.map Piece.token).count .placeholder = args.length := by
    rw [htokens, q.count_placeholder, hc]
  obtain ⟨cs', hspliced⟩ := hlaid.spliced hcount ha
  refine ⟨String.ofList cs', asc, semicolon, ps, htokens, ?_⟩
  rwa [String.toList_ofList]

end Sql

/-- A query and its arguments make a request exactly if there are as many as placeholders, the ordering resolves and the
limit is in range, and else the first fault is reported. The request has the parts of the query and the arguments in
their places; nothing else depends on the arguments. It is also the request of the text with the arguments put into it
in quotes, however that is written. -/
theorem Sql.Query.translation {q : Sql.Query} (h : Sql.Query.parse s = .ok q) (args : List String) (t : FunctionTable) :
    ((∃ p, q.toRequest args t = .ok p) ↔ q.Translates args t) ∧
    (∀ e, q.toRequest args t = .error e ↔ q.Fault args t e) ∧
    (∀ p, q.toRequest args t = .ok p → q.Yields args t p) ∧
    (∀ args', args'.length = args.length → AgreeApart q.conditions (q.toRequest args t) (q.toRequest args' t)) ∧
    (q.placeholderCount = args.length → (∀ arg ∈ args, '\'' ∉ arg.toList ∨ '"' ∉ arg.toList) →
      (∃ s', q.Splices args s s') ∧
      ∀ s', q.Splices args s s' ∨ (q.fill args).Renders s'.toList →
        Request.ofText s' [] t = Request.ofText s args t) := by
  refine ⟨⟨?_, ?_⟩, fun e => toRequest_eq_error_iff, fun p hp => (toRequest_ok hp).2, fun args' hl => q.agreeApart hl t,
    fun hc ha => ⟨exists_splices h hc ha, ?_⟩⟩
  · rintro ⟨p, hp⟩
    exact (toRequest_ok hp).1
  · intro hq
    obtain ⟨p, hp, -⟩ := hq.yields
    exact ⟨p, hp⟩
  · intro s' hs
    have hfill : (q.fill args).IsProper refusedWords := (Query.parse_eq_ok_iff.mp h).1.fill ha
    have hparse : Query.parse s' = .ok (q.fill args) := by
      rcases hs with hs | hs
      · exact hs.parse hfill
      · exact hs.parse hfill
    rw [Request.ofText_of_parse hparse, Request.ofText_of_parse h, Query.toRequest_fill hc]

/-- Neither a quote nor a question mark in an argument makes it anything but a value. -/
theorem Sql.Query.translation_items :
    ∃ s', Query.Splices ⟨.columns ["id"], "items", [⟨"a", .eq, .placeholder⟩, ⟨"b", .like, .placeholder⟩], none, none⟩
        ["it's", "?"] "SELECT id FROM items WHERE a = ? AND b LIKE ?" s' ∧
      Request.ofText s' [] .builtIn =
        .ok ⟨⟨"items", some ["id"], [⟨"a", .eq, "it's"⟩, ⟨"b", .like, "?"⟩], none, none⟩, []⟩ := by
  have hq : Query.IsProper refusedWords
      ⟨.columns ["id"], "items", [⟨"a", .eq, .placeholder⟩, ⟨"b", .like, .placeholder⟩], none, none⟩ :=
    ⟨by decide +kernel, nofun, by simp, nofun, nofun⟩
  have hs : Query.parse "SELECT id FROM items WHERE a = ? AND b LIKE ?" = .ok
      ⟨.columns ["id"], "items", [⟨"a", .eq, .placeholder⟩, ⟨"b", .like, .placeholder⟩], none, none⟩ :=
    hq.parse_text
  obtain ⟨-, -, -, -, hsplice⟩ := translation hs ["it's", "?"] .builtIn
  obtain ⟨⟨s', hs'⟩, htext⟩ := hsplice rfl (by decide)
  refine ⟨s', hs', ?_⟩
  rw [htext s' (.inl hs'), Request.ofText_of_parse hs]
  rfl

end QueryGateway
