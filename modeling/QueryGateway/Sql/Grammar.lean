namespace QueryGateway.Sql

/-- What a diagnosis may name, in the order in which it names them. -/
inductive Rule where
  | endOfInput
  | query
  | statement
  | selectList
  | wildcard
  | columnList
  | fromClause
  | whereClause
  | condition
  | comparison
  | operand
  | placeholder
  | quoted
  | singleBody
  | doubleBody
  | bare
  | orderClause
  | orderItem
  | distanceCall
  | vector
  | element
  | columnOrder
  | direction
  | limitClause
  | limitValue
  | name
  | reserved
  | wordSelect
  | wordFrom
  | wordWhere
  | wordAnd
  | wordOrder
  | wordBy
  | wordLimit
  | wordAsc
  | wordDesc
  | wordLike
  deriving DecidableEq, Repr

namespace Rule

def all : List Rule :=
  [endOfInput, query, statement, selectList, wildcard, columnList, fromClause, whereClause, condition, comparison,
    operand, placeholder, quoted, singleBody, doubleBody, bare, orderClause, orderItem, distanceCall, vector,
    element, columnOrder, direction, limitClause, limitValue, name, reserved, wordSelect, wordFrom, wordWhere,
    wordAnd, wordOrder, wordBy, wordLimit, wordAsc, wordDesc, wordLike]

def description : Rule → String
  | endOfInput => "end of query"
  | query => "query"
  | statement => "select_stmt"
  | selectList => "column list or *"
  | wildcard => "column list or *"
  | columnList => "column list or *"
  | fromClause => "from_clause"
  | whereClause => "where_clause"
  | condition => "condition"
  | comparison => "comparison operator"
  | operand => "value"
  | placeholder => "placeholder"
  | quoted => "quoted"
  | singleBody => "single_body"
  | doubleBody => "double_body"
  | bare => "bare"
  | orderClause => "order_clause"
  | orderItem => "order_item"
  | distanceCall => "distance_call"
  | vector => "vector literal"
  | element => "vector literal"
  | columnOrder => "column_order"
  | direction => "ASC or DESC"
  | limitClause => "limit_clause"
  | limitValue => "limit_value"
  | name => "identifier"
  | reserved => "keyword"
  | wordSelect => "SELECT"
  | wordFrom => "FROM"
  | wordWhere => "WHERE"
  | wordAnd => "AND"
  | wordOrder => "ORDER BY"
  | wordBy => "BY"
  | wordLimit => "LIMIT"
  | wordAsc => "ASC or DESC"
  | wordDesc => "ASC or DESC"
  | wordLike => "kw_like"

theorem mem_all (r : Rule) : r ∈ all := by
  cases r <;> decide

end Rule

/-- How the parts of a rule stand together: with blanks between them, without, or without and with
nothing inside the rule recorded. -/
inductive Spacing where
  | spaced
  | joined
  | solid
  deriving DecidableEq, Repr

inductive Pattern where
  /-- The text itself. -/
  | text (s : String)
  /-- The text in any case of its letters. -/
  | word (s : String)
  | char (p : Char → Bool)
  | finish
  | seq (a b : Pattern)
  | alt (a b : Pattern)
  | opt (a : Pattern)
  | star (a : Pattern)
  /-- Succeeds, taking nothing, where `a` fails. -/
  | absent (a : Pattern)
  | rule (r : Rule) (s : Spacing) (a : Pattern)

/-- A place in a text: how many characters come before it, and those from it on. -/
structure Cursor where
  position : Nat
  rest : List Char
  deriving DecidableEq, Repr

namespace Cursor

def advance (c : Cursor) (n : Nat) : Cursor :=
  ⟨c.position + n, c.rest.drop n⟩

def isSpace (c : Char) : Bool :=
  c == ' ' || c == '\t' || c == '\r' || c == '\n'

def skipSpaces (c : Cursor) : Cursor :=
  c.advance (c.rest.takeWhile isSpace).length

end Cursor

/-- The rules that failed at the furthest position, in the order in which they were recorded. -/
structure Attempts where
  position : Nat
  rules : List Rule
  deriving Repr

namespace Attempts

def countAt (a : Attempts) (p : Nat) : Nat :=
  if a.position = p then a.rules.length else 0

/-- Records that `r` failed from position `p`, where `before` were the attempts when it was begun. A rule whose
failure recorded exactly one more at its own start leaves that one to speak for it; otherwise it replaces
what was recorded there since. -/
def record (before : Attempts) (r : Rule) (p : Nat) (after : Attempts) : Attempts :=
  if after.countAt p = before.countAt p + 1 then after
  else if p = after.position then ⟨p, after.rules.take (before.countAt p) ++ [r]⟩
  else if p > after.position then ⟨p, [r]⟩
  else after

end Attempts

/-- What a pattern does from a cursor: the cursor after it, if it matches, and the attempts by then. -/
abbrev Step := Cursor → Attempts → Option Cursor × Attempts

namespace Step

def fromOption (next : Cursor → Option Cursor) : Step :=
  fun c seen => (next c, seen)

def andThen (a b : Step) : Step := fun c seen =>
  match a c seen with
  | (none, seen) => (none, seen)
  | (some c, seen) => b c seen

def orElse (a b : Step) : Step := fun c seen =>
  match a c seen with
  | (none, seen) => b c seen
  | found => found

def optional (a : Step) : Step := fun c seen =>
  match a c seen with
  | (none, seen) => (some c, seen)
  | found => found

/-- As often as `a` matches and moves on, at most `bound` times. -/
def repeated (a : Step) : Nat → Step
  | 0 => fun c seen => (some c, seen)
  | bound + 1 => fun c seen =>
    match a c seen with
    | (none, seen) => (some c, seen)
    | (some next, seen) => if next.position > c.position then repeated a bound next seen else (some c, seen)

def refute (a : Step) : Step := fun c seen =>
  match a c seen with
  | (none, _) => (some c, seen)
  | (some _, _) => (none, seen)

def recorded (r : Rule) (a : Step) : Step := fun c seen =>
  match a c seen with
  | (none, after) => (none, seen.record r c.position after)
  | found => found

end Step

namespace Pattern

def blanks : Spacing → Step
  | .spaced => Step.fromOption fun c => some c.skipSpaces
  | _ => Step.fromOption some

/-- Follows a pattern that stands in a rule of the given spacing. -/
def follow : Pattern → Spacing → Step
  | text s, _ => .fromOption fun c => if s.toList.isPrefixOf c.rest then some (c.advance s.length) else none
  | word s, _ => .fromOption fun c =>
    if s.toList.isPrefixOf ((c.rest.take s.length).map Char.toLower) then some (c.advance s.length) else none
  | char p, _ => .fromOption fun c => if c.rest.head?.any p then some (c.advance 1) else none
  | finish, _ => .fromOption fun c => if c.rest.isEmpty then some c else none
  | seq a b, s => (follow a s).andThen ((blanks s).andThen (follow b s))
  | alt a b, s => (follow a s).orElse (follow b s)
  | opt a, s => (follow a s).optional
  | star a, s => fun c =>
    Step.optional ((follow a s).andThen (Step.repeated ((blanks s).andThen (follow a s)) c.rest.length)) c
  | absent a, s => (follow a s).refute
  | rule r inner a, outer =>
    let inside := match inner, outer with
      | .spaced, outer => follow a outer
      | inner, _ => follow a inner
    if outer = .solid then inside else inside.recorded r

instance : AndThen Pattern := ⟨fun a b => seq a (b ())⟩
instance : OrElse Pattern := ⟨fun a b => alt a (b ())⟩

def plus (a : Pattern) : Pattern :=
  a >> star a

/-- The furthest attempts from the front of a text, and whether the pattern matches there. -/
def attempts (a : Pattern) (cs : List Char) : Attempts :=
  (a.follow .spaced ⟨0, cs⟩ ⟨0, []⟩).2

end Pattern

namespace Grammar

open Pattern

def anyBut (p : Char → Bool) : Pattern :=
  char fun c => !p c

def wordChar : Pattern :=
  char fun c => c.isAlphanum || c == '_'

def wordEnd : Pattern :=
  absent wordChar

def keyword (r : Rule) (w : String) : Pattern :=
  rule r .solid (word w >> wordEnd)

def reserved : Pattern :=
  rule .reserved .solid
    ((word "select" <|> word "from" <|> word "where" <|> word "and" <|> word "or" <|> word "not" <|> word "order" <|>
      word "by" <|> word "limit" <|> word "asc" <|> word "desc" <|> word "like") >> wordEnd)

def name : Pattern :=
  rule .name .solid
    (absent reserved >> char (fun c => c.isAlpha || c == '_') >> star wordChar)

def wildcard : Pattern :=
  rule .wildcard .spaced (text "*")

def columnList : Pattern :=
  rule .columnList .spaced (name >> star (text "," >> name))

def selectList : Pattern :=
  rule .selectList .spaced (wildcard <|> columnList)

def fromClause : Pattern :=
  rule .fromClause .spaced (keyword .wordFrom "from" >> name)

def comparison : Pattern :=
  rule .comparison .spaced
    (text ">=" <|> text "<=" <|> text "!=" <|> text "<>" <|> text "=" <|> text ">" <|> text "<" <|>
      keyword .wordLike "like")

def placeholder : Pattern :=
  rule .placeholder .spaced (text "?")

def body (r : Rule) (quote : Char) : Pattern :=
  rule r .solid (star (anyBut (· == quote)))

def quoted : Pattern :=
  rule .quoted .joined
    ((text "'" >> body .singleBody '\'' >> text "'") <|> (text "\"" >> body .doubleBody '"' >> text "\""))

def bare : Pattern :=
  rule .bare .solid
    (absent reserved >> plus (anyBut fun c =>
      Cursor.isSpace c || c == '\'' || c == '"' || c == ';' || c == ',' || c == '(' || c == ')'))

def operand : Pattern :=
  rule .operand .spaced (placeholder <|> quoted <|> bare)

def condition : Pattern :=
  rule .condition .spaced (name >> comparison >> operand)

def whereClause : Pattern :=
  rule .whereClause .spaced
    (keyword .wordWhere "where" >> condition >> star (keyword .wordAnd "and" >> condition))

def element : Pattern :=
  rule .element .solid (plus (anyBut fun c => c == ',' || c == ']' || Cursor.isSpace c))

def vector : Pattern :=
  rule .vector .spaced (text "[" >> opt (element >> star (text "," >> element)) >> text "]")

def direction : Pattern :=
  rule .direction .spaced (keyword .wordAsc "asc" <|> keyword .wordDesc "desc")

def columnOrder : Pattern :=
  rule .columnOrder .spaced (name >> opt direction)

def distanceCall : Pattern :=
  rule .distanceCall .spaced
    (name >> text "(" >> name >> text "," >> vector >> text ")" >> opt direction)

def orderItem : Pattern :=
  rule .orderItem .spaced (distanceCall <|> columnOrder)

def orderClause : Pattern :=
  rule .orderClause .spaced (keyword .wordOrder "order" >> keyword .wordBy "by" >> orderItem)

def limitValue : Pattern :=
  rule .limitValue .solid (plus (anyBut fun c => Cursor.isSpace c || c == ';'))

def limitClause : Pattern :=
  rule .limitClause .spaced (keyword .wordLimit "limit" >> opt limitValue)

def statement : Pattern :=
  rule .statement .spaced
    (keyword .wordSelect "select" >> selectList >> fromClause >> opt whereClause >> opt orderClause >>
      opt limitClause)

def start : Pattern :=
  text ""

def query : Pattern :=
  rule .query .spaced (start >> statement >> opt (text ";") >> rule .endOfInput .spaced finish)

end Grammar

end QueryGateway.Sql
