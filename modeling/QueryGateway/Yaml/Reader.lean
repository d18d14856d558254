import QueryGateway.Yaml.Scalar

namespace QueryGateway.Yaml

/-- Skips blanks, breaks and comments between the parts of a flow collection. -/
def skipFlow : List Char → List Char
  | [] => []
  | c :: cs =>
    if Line.isBlankChar c || c == '\n' then
      match Line.skipBlanks cs with
      | '#' :: _ => skipComment cs
      | _ => skipFlow cs
    else c :: cs
where
  /-- Skips to the end of the line that holds a comment, and on from there. -/
  skipComment : List Char → List Char
    | [] => []
    | c :: cs => if c == '\n' then skipFlow cs else skipComment cs

/-- Plain text of a flow collection over as many lines as it takes. -/
def flowPlain (cs : List Char) : List Char × List Char :=
  go cs.length cs
where
  go : Nat → List Char → List Char × List Char
    | 0, cs => ([], cs)
    | bound + 1, cs =>
      let (text, rest) := plainPart true cs
      let text := trimBlanksRight text
      match rest with
      | '\n' :: _ =>
        let next := skipFlow rest
        if startsPlain true next then
          let (more, rest) := go bound next
          (if more.isEmpty then text else text ++ ' ' :: more, rest)
        else (text, rest)
      | rest => (text, rest)

mutual

def flowNode (fuel : Nat) (cs : List Char) : Option (Node × List Char) :=
  match fuel with
  | 0 => none
  | fuel + 1 =>
    match cs with
    | '[' :: cs => (flowItems fuel (skipFlow cs)).map fun (items, cs) => (.sequence items, cs)
    | '\x7b' :: cs => (flowEntries fuel (skipFlow cs)).map fun (entries, cs) => (.mapping entries, cs)
    | c :: _ =>
      if c == '\'' || c == '"' then (quoted? cs).map fun (text, cs) => (.scalar false text, cs)
      else if startsPlain true cs then
        let (text, cs) := flowPlain cs
        some (.scalar true (String.ofList text), cs)
      else none
    | [] => none

/-- A node and, after a colon, its value; what is left out is absent. -/
def flowPair (fuel : Nat) (cs : List Char) : Option (Node × Option Node × List Char) :=
  match fuel with
  | 0 => none
  | fuel + 1 => do
    let (key, cs) ← match cs with
      | ':' :: _ => if startsPlain true cs then flowNode fuel cs else some (.absent, cs)
      | cs => flowNode fuel cs
    match skipFlow cs with
    | ':' :: cs =>
      match skipFlow cs with
      | ',' :: cs => some (key, some .absent, ',' :: cs)
      | ']' :: cs => some (key, some .absent, ']' :: cs)
      | '\x7d' :: cs => some (key, some .absent, '\x7d' :: cs)
      | cs =>
        let (value, cs) ← flowNode fuel cs
        return (key, some value, skipFlow cs)
    | cs => some (key, none, cs)

def flowItems (fuel : Nat) (cs : List Char) : Option (List Node × List Char) :=
  match fuel with
  | 0 => none
  | fuel + 1 =>
    match cs with
    | ']' :: cs => some ([], cs)
    | cs => do
      let (key, value, cs) ← flowPair fuel cs
      let item := match value with
        | none => key
        | some value => .mapping [(key, value)]
      match cs with
      | ',' :: cs => (flowItems fuel (skipFlow cs)).map fun (items, cs) => (item :: items, cs)
      | ']' :: cs => some ([item], cs)
      | _ => none

def flowEntries (fuel : Nat) (cs : List Char) : Option (List (Node × Node) × List Char) :=
  match fuel with
  | 0 => none
  | fuel + 1 =>
    match cs with
    | '\x7d' :: cs => some ([], cs)
    | cs => do
      let (key, value, cs) ← flowPair fuel cs
      let entry := (key, value.getD .absent)
      match cs with
      | ',' :: cs => (flowEntries fuel (skipFlow cs)).map fun (entries, cs) => (entry :: entries, cs)
      | '\x7d' :: cs => some ([entry], cs)
      | _ => none

end

/-- A text and the lines after it as one text again. -/
def joinLines (cs : List Char) (lines : List Line) : List Char :=
  lines.foldl (fun text l => text ++ '\n' :: (List.replicate l.indent ' ' ++ l.content)) cs

/-- After something that ends within a line, only blanks and a comment may follow in it. -/
def resume? (cs : List Char) : Option (List Line) :=
  match splitLines cs with
  | [] => some []
  | line :: lines => if Line.isEmptyRest line then some (lines.map Line.ofChars) else none

def skipProperties (cs : List Char) : List Char :=
  match cs with
  | c :: rest =>
    if c == '&' || c == '!' then
      let after := Line.skipBlanks (rest.dropWhile (!Line.isBlankChar ·))
      match after with
      | d :: more =>
        if d == '&' || d == '!' then Line.skipBlanks (more.dropWhile (!Line.isBlankChar ·)) else after
      | [] => []
    else cs
  | [] => []

/-- The key at the front of a line and what comes after its colon. -/
def key? (cs : List Char) : Option (Node × List Char) :=
  match cs with
  | [] => none
  | c :: _ =>
    if c == '\'' || c == '"' then
      match quoted? cs with
      | some (text, rest) =>
        match Line.skipBlanks rest with
        | ':' :: rest => if Line.atBlankOrEnd rest then some (.scalar false text, rest) else none
        | _ => none
      | none => none
    else if startsPlain false cs then
      match plainPart false cs with
      | (text, ':' :: rest) => some (.scalar true (String.ofList (trimBlanksRight text)), rest)
      | _ => none
    else none

def isItem : List Char → Bool
  | '-' :: cs => Line.atBlankOrEnd cs
  | _ => false

/-- Plain text of a line with the deeper lines that go on with it, up to a line with a key or a comment. -/
def blockPlain? (parent : Int) (cs : List Char) (lines : List Line) : Option (String × List Line) :=
  let (text, rest) := plainPart false cs
  match rest with
  | ':' :: _ => none
  | _ :: _ => if Line.isEmptyRest rest then some (String.ofList (trimBlanksRight text), lines) else none
  | [] =>
    let isMore (l : Line) := l.content.isEmpty || (parent < l.indent && (l.content.head?.any (· != '#')))
    let more := lines.takeWhile isMore
    let kept := (more.reverse.dropWhile (·.content.isEmpty)).reverse
    let parts := kept.map fun l => plainPart false l.content
    if parts.any fun (_, rest) => rest.head?.any (· == ':') then none
    else
      let bodies := parts.map fun (text, _) => trimBlanksRight text
      let ends := parts.dropLast.any fun (_, rest) => !rest.isEmpty
      if ends then none
      else some (String.ofList (foldLines (trimBlanksRight text :: bodies)), lines.drop kept.length)

/-- How a block scalar treats the breaks at its end. -/
inductive Chomping where
  | clip
  | strip
  | keep
  deriving DecidableEq

def header? (cs : List Char) : Option (Chomping × Option Nat) :=
  let mark := cs.takeWhile fun c => c == '+' || c == '-' || c.isDigit
  if !Line.isEmptyRest (cs.dropWhile fun c => c == '+' || c == '-' || c.isDigit) then none
  else
    let chomping := if mark.contains '+' then .keep else if mark.contains '-' then .strip else .clip
    match mark.filter Char.isDigit with
    | [] => if mark.length ≤ 1 then some (chomping, none) else none
    | [d] => if mark.length ≤ 2 && d != '0' then some (chomping, some (d.toNat - '0'.toNat)) else none
    | _ => none

/-- Joins the lines of a folded block scalar: a single break between lines that begin with text is a space. -/
def foldBlock : List (List Char) → List Char
  | [] => []
  | [line] => line
  | line :: next :: lines =>
    let spaced (l : List Char) := l.head?.any Line.isBlankChar
    let rest := foldBlock (next :: lines)
    if line.isEmpty then '\n' :: rest
    else if next.isEmpty && !spaced line then
      line ++ rest
    else if spaced line || spaced next then line ++ '\n' :: rest
    else line ++ ' ' :: rest

/-- A block scalar: the deeper lines, without their common indentation. -/
def blockScalar? (folded : Bool) (parent : Int) (head : List Char) (lines : List Line) :
    Option (String × List Line) := do
  let (chomping, given) ← header? head
  let base : Nat := (parent + 1).toNat
  let first := (lines.find? (!·.content.isEmpty)).elim base (·.indent)
  let indent := match given with
    | some n => (max parent 0).toNat + n
    | none => max first base
  let mine := lines.takeWhile fun l => l.content.isEmpty || indent ≤ l.indent
  let bodies := mine.map fun l => List.replicate (l.indent - indent) ' ' ++ l.content
  let kept := (bodies.reverse.dropWhile (·.isEmpty)).reverse
  let text := if folded then foldBlock kept else List.intercalate ['\n'] kept
  let breaks := match chomping with
    | .strip => 0
    | .clip => if kept.isEmpty then 0 else 1
    | .keep => if kept.isEmpty then bodies.length else 1 + (bodies.length - kept.length)
  return (String.ofList (text ++ List.replicate breaks '\n'), lines.drop mine.length)

mutual

/-- The node that a value begins, where `parent` is the indentation it must exceed. -/
def inlineNode (fuel : Nat) (parent : Int) (cs : List Char) (lines : List Line) : Option (Node × List Line) :=
  match fuel with
  | 0 => none
  | fuel + 1 =>
    match skipProperties cs with
    | [] => blockNode fuel parent lines
    | '|' :: head => (blockScalar? false parent head lines).map fun (text, lines) => (.scalar false text, lines)
    | '>' :: head => (blockScalar? true parent head lines).map fun (text, lines) => (.scalar false text, lines)
    | c :: cs =>
      if c == '[' || c == '\x7b' then do
        let text := joinLines (c :: cs) lines
        let (node, rest) ← flowNode (2 * text.length + 2) text
        return (node, ← resume? rest)
      else if c == '\'' || c == '"' then do
        let (text, rest) ← quoted? (joinLines (c :: cs) lines)
        return (.scalar false text, ← resume? rest)
      else if startsPlain false (c :: cs) then
        (blockPlain? parent (c :: cs) lines).map fun (text, lines) => (.scalar true text, lines)
      else none

/-- The node on the lines that are indented more than `parent`; absent if there is none. -/
def blockNode (fuel : Nat) (parent : Int) (lines : List Line) : Option (Node × List Line) :=
  match fuel with
  | 0 => none
  | fuel + 1 =>
    match nextLines lines with
    | [] => some (.absent, [])
    | l :: lines =>
      if parent < l.indent then
        if isItem l.content then (items fuel l.indent (l :: lines)).map fun (xs, lines) => (.sequence xs, lines)
        else
          match key? l.content with
          | some _ => (entries fuel l.indent (l :: lines)).map fun (es, lines) => (.mapping es, lines)
          | none => inlineNode fuel parent l.content lines
      else some (.absent, l :: lines)

/-- The items of a block sequence with its dashes at `indent`. -/
def items (fuel : Nat) (indent : Nat) (lines : List Line) : Option (List Node × List Line) :=
  match fuel with
  | 0 => none
  | fuel + 1 =>
    match nextLines lines with
    | [] => some ([], [])
    | l :: lines =>
      if l.indent == indent && isItem l.content then do
        let rest := l.content.drop 1
        let inner := Line.skipBlanks rest
        let (node, lines) ←
          if Line.isEmptyRest rest then blockNode fuel indent lines
          else blockNode fuel indent (⟨indent + 1 + (rest.length - inner.length), inner⟩ :: lines)
        let (more, lines) ← items fuel indent lines
        return (node :: more, lines)
      else if indent < l.indent then none
      else some ([], l :: lines)

/-- The entries of a block mapping with its keys at `indent`. -/
def entries (fuel : Nat) (indent : Nat) (lines : List Line) : Option (List (Node × Node) × List Line) :=
  match fuel with
  | 0 => none
  | fuel + 1 =>
    match nextLines lines with
    | [] => some ([], [])
    | l :: lines =>
      if l.indent == indent then do
        if isItem l.content then none
        else
          let (key, rest) ← key? l.content
          let (value, lines) ←
            if Line.isEmptyRest (skipProperties (Line.skipBlanks rest)) then
              match nextLines lines with
              | next :: _ =>
                if next.indent == indent && isItem next.content then
                  (items fuel indent lines).map fun (xs, lines) => (.sequence xs, lines)
                else blockNode fuel indent lines
              | [] => some (.absent, [])
            else inlineNode fuel indent (Line.skipBlanks rest) lines
          let (more, lines) ← entries fuel indent lines
          return ((key, value) :: more, lines)
      else if indent < l.indent then none
      else some ([], l :: lines)

end

def isMarker (mark : String) (l : Line) : Bool :=
  l.indent == 0 && mark.toList.isPrefixOf l.content && Line.atBlankOrEnd (l.content.drop mark.length)

/-- The only document of a text; `none` inside if the text holds nothing at all. -/
def document? (text : String) : Option (Option Node) :=
  let cs := match text.toList with
    | c :: cs => if c.toNat == 0xFEFF then cs else c :: cs
    | [] => []
  if !cs.all isAllowed then none
  else
    let lines := nextLines ((splitLines cs).map Line.ofChars)
    let started := lines.head?.any (isMarker "---")
    let body := match lines with
      | l :: rest =>
        if started then
          (if Line.isEmptyRest (l.content.drop 3) then [] else [(⟨4, Line.skipBlanks (l.content.drop 3)⟩ : Line)]) ++ rest
        else l :: rest
      | [] => []
    let mine := body.takeWhile fun l => !isMarker "---" l && !isMarker "..." l
    let after := (body.drop mine.length).dropWhile (isMarker "...")
    if !(nextLines after).isEmpty then none
    else if !started && (nextLines mine).isEmpty then some none
    else
      match blockNode (4 * cs.length + 8) (-1) mine with
      | some (node, rest) => if (nextLines rest).isEmpty then some (some node) else none
      | none => none

end QueryGateway.Yaml
