import QueryGateway.Sql.Grammar
import QueryGateway.Sql.Lexeme

namespace QueryGateway.Sql

/-- What a rule took from a text, and what the rules in it took from that. -/
structure Pair where
  rule : Rule
  text : List Char
  inner : List Pair

def Pair.string (p : Pair) : String :=
  String.ofList p.text

/-- What a pattern finds at the front of a text, if it matches there, and the rest. -/
abbrev Reading := List Char → Option (List Pair × List Char)

namespace Reading

/-- Takes some of the text by no rule of its own. -/
def fromOption (next : List Char → Option (List Char)) : Reading :=
  fun cs => (next cs).map ([], ·)

def andThen (a b : Reading) : Reading := fun cs => do
  let (found, cs) ← a cs
  let (more, cs) ← b cs
  return (found ++ more, cs)

def orElse (a b : Reading) : Reading := fun cs =>
  (a cs).or (b cs)

def optional (a : Reading) : Reading := fun cs =>
  (a cs).or (some ([], cs))

/-- As often as `a` matches and moves on, at most `bound` times. -/
def repeated (a : Reading) : Nat → Reading
  | 0 => fun cs => some ([], cs)
  | bound + 1 => fun cs =>
    match a cs with
    | none => some ([], cs)
    | some (found, rest) =>
      if rest.length < cs.length then (repeated a bound rest).map fun (more, rest) => (found ++ more, rest)
      else some ([], cs)

def refute (a : Reading) : Reading := fun cs =>
  match a cs with
  | none => some ([], cs)
  | some _ => none

def taken (cs rest : List Char) : List Char :=
  cs.take (cs.length - rest.length)

def paired (r : Rule) (a : Reading) : Reading := fun cs =>
  (a cs).map fun (inner, rest) => ([⟨r, taken cs rest, inner⟩], rest)

end Reading

/-- How the parts of a rule of the spacing `inner` stand together inside one of the spacing `outer`. -/
def Spacing.within : Spacing → Spacing → Spacing
  | .spaced, outer => outer
  | inner, _ => inner

namespace Pattern

/-- What may stand between the parts of a rule of the given spacing. -/
def between : Spacing → Reading
  | .spaced => Reading.fromOption fun cs => some (skipSpaces cs)
  | _ => Reading.fromOption some

/-- Reads a pattern that stands in a rule of the given spacing. A rule inside a solid one is no part of its own. -/
def read : Pattern → Spacing → Reading
  | text s, _ => .fromOption fun cs => if s.toList.isPrefixOf cs then some (cs.drop s.length) else none
  | word s, _ => .fromOption fun cs =>
    if s.toList.isPrefixOf ((cs.take s.length).map Char.toLower) then some (cs.drop s.length) else none
  | char p, _ => .fromOption fun cs => if cs.head?.any p then some (cs.drop 1) else none
  | finish, _ => .fromOption fun cs => if cs.isEmpty then some cs else none
  | seq a b, s => (read a s).andThen ((between s).andThen (read b s))
  | alt a b, s => (read a s).orElse (read b s)
  | opt a, s => (read a s).optional
  | star a, s => fun cs =>
    Reading.optional ((read a s).andThen (Reading.repeated ((between s).andThen (read a s)) cs.length)) cs
  | absent a, s => (read a s).refute
  | rule r inner a, outer =>
    let inside := read a (inner.within outer)
    if outer = .solid then inside else inside.paired r

end Pattern

end QueryGateway.Sql
