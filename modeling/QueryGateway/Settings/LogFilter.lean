import QueryGateway.Text.Blank
import QueryGateway.Text.Hidden
import QueryGateway.Decimal.Numeral

namespace QueryGateway.Settings

inductive LogFormat where
  | pretty
  | json
  | compact
  deriving DecidableEq, Repr

/-- A name that is not known means `pretty`. -/
def LogFormat.ofName (name : String) : LogFormat :=
  match Text.lower (Text.trim name) with
  | "json" => json
  | "compact" => compact
  | _ => pretty

inductive LogOutput where
  | stdout
  | file
  | both
  deriving DecidableEq, Repr

/-- A name that is not known means `stdout`. -/
def LogOutput.ofName (name : String) : LogOutput :=
  match Text.lower (Text.trim name) with
  | "file" => file
  | "both" => both
  | _ => stdout

/-- From the quietest to the most verbose. -/
inductive Level where
  | off
  | error
  | warn
  | info
  | debug
  | trace
  deriving DecidableEq, Repr

namespace Level

def all : List Level :=
  [off, error, warn, info, debug, trace]

def name : Level → String
  | off => "off"
  | error => "error"
  | warn => "warn"
  | info => "info"
  | debug => "debug"
  | trace => "trace"

def rank : Level → Nat
  | off => 0
  | error => 1
  | warn => 2
  | info => 3
  | debug => 4
  | trace => 5

/-- A name in any case, or the number of a level. -/
def ofText? (s : String) : Option Level :=
  let digits := match s.toList with
    | '+' :: cs => cs
    | cs => cs
  if Decimal.isDigits digits then all[Decimal.digitsValue digits]?
  else all.find? (Text.sameName ·.name s)

end Level

/-- A level for a target and all that begins like it; without a target, for everything. -/
structure Directive where
  target : Option String
  level : Level
  deriving DecidableEq, Repr

namespace Directive

def text (d : Directive) : String :=
  match d.target with
  | none => d.level.name
  | some target => target ++ "=" ++ d.level.name

/-- What a target may begin with: a letter or digit, a dash, a colon or an underscore. Beyond ASCII any
character counts that is shown. -/
def isTargetStart (c : Char) : Bool :=
  c.isAlphanum || c == '-' || c == ':' || c == '_' || (0x7f < c.toNat && !Text.isHidden c)

/-- A level alone, a target alone, or both with an equals sign between them; a target alone is logged in full. -/
def ofChars? (cs : List Char) : Option Directive :=
  if !((Text.trimLeft cs).head?.any isTargetStart) then none
  else if cs.contains '=' then
    let target := String.ofList (cs.takeWhile (· != '='))
    let level := String.ofList ((cs.dropWhile (· != '=')).drop 1)
    if cs.head?.any Text.isBlank then none
    else if level.isEmpty then some ⟨some target, .trace⟩
    else (Level.ofText? level).map (⟨some target, ·⟩)
  else
    match Level.ofText? (String.ofList cs) with
    | some level => some ⟨none, level⟩
    | none => some ⟨some (String.ofList cs), .trace⟩

/-- More specific first: longer targets, of equal length the later in the alphabet, then no target. -/
def precedes (a b : Directive) : Bool :=
  match a.target, b.target with
  | some s, some t =>
    t.utf8ByteSize < s.utf8ByteSize || (s.utf8ByteSize == t.utf8ByteSize && t < s)
  | some _, none => true
  | none, _ => false

def covers (d : Directive) (target : String) : Bool :=
  match d.target with
  | none => true
  | some t => t.toList.isPrefixOf target.toList

end Directive

/-- Directives for different targets, the most specific first. -/
structure LogFilter where
  directives : List Directive
  deriving DecidableEq, Repr

namespace LogFilter

def insert (d : Directive) : List Directive → List Directive
  | [] => [d]
  | e :: es =>
    if d.target = e.target then d :: es
    else if d.precedes e then d :: e :: es
    else e :: insert d es

def add (f : LogFilter) (d : Directive) : LogFilter :=
  ⟨insert d f.directives⟩

def text (f : LogFilter) : String :=
  String.intercalate "," (f.directives.map Directive.text)

/-- The most verbose level that is let through for a target, if any directive covers it. -/
def level? (f : LogFilter) (target : String) : Option Level :=
  (f.directives.find? (·.covers target)).map (·.level)

def ofText? (text : String) : Option LogFilter := do
  let pieces := (Text.splitOn (· == ',') text.toList).filter (!·.isEmpty)
  return (← pieces.mapM Directive.ofChars?).foldl add ⟨[]⟩

/-- Dependencies that say too much. -/
def quiet : List Directive :=
  [⟨some "hyper", .warn⟩, ⟨some "h2", .warn⟩, ⟨some "tokio", .warn⟩, ⟨some "runtime", .warn⟩]

/-- The filter for a configured text; one that is no filter counts as `info`. -/
def configured (text : String) : LogFilter :=
  quiet.foldl add ((ofText? text).getD ⟨[⟨none, .info⟩]⟩)

end LogFilter

end QueryGateway.Settings
