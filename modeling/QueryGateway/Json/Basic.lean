namespace QueryGateway

inductive Json where
  | null
  | bool (b : Bool)
  | int (n : Int)
  | float (x : Float)
  | string (s : String)
  | array (items : List Json)
  | object (members : List (String × Json))
  deriving Inhabited

namespace Json

/-- Puts a value under a name: in the place of the member of that name, else at the end. -/
def putMember (name : String) (value : α) : List (String × α) → List (String × α)
  | [] => [(name, value)]
  | (n, v) :: members => if n == name then (n, value) :: members else (n, v) :: putMember name value members

/-- One member for each name: the last value in the first place. -/
def lastWins (members : List (String × α)) : List (String × α) :=
  members.foldl (fun done (name, value) => putMember name value done) []

mutual

/-- The value with `lastWins` applied to every object in it. -/
def merged : Json → Json
  | array items => array (mergedItems items)
  | object members => object (lastWins (mergedMembers members))
  | v => v

def mergedItems : List Json → List Json
  | [] => []
  | v :: items => merged v :: mergedItems items

def mergedMembers : List (String × Json) → List (String × Json)
  | [] => []
  | (name, v) :: members => (name, merged v) :: mergedMembers members

end

def members : Json → List (String × Json)
  | object members => members
  | _ => []

def member? (v : Json) (name : String) : Option Json :=
  v.members.lookup name

def isNull : Json → Bool
  | null => true
  | _ => false

def string? : Json → Option String
  | string s => some s
  | _ => none

def array? : Json → Option (List Json)
  | array items => some items
  | _ => none

def object? : Json → Option (List (String × Json))
  | object members => some members
  | _ => none

def number? : Json → Option Float
  | int n => some (if n < 0 then -Float.ofScientific n.natAbs false 0 else Float.ofScientific n.natAbs false 0)
  | float x => some x
  | _ => none

def vector? (v : Json) : Option (List Float) := do
  (← v.array?).mapM number?

def ofOption (f : α → Json) : Option α → Json
  | none => null
  | some a => f a

end Json

end QueryGateway
