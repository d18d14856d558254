import QueryGateway.Settings.Basic
import QueryGateway.Yaml.Reader
import QueryGateway.Text.Blank
import QueryGateway.Decimal.Numeral

namespace QueryGateway.Settings

-- Powers are the core library's, whatever else is imported.
attribute [local instance (high)] instPowNat

inductive LoadError where
  /-- The file is not text. -/
  | unreadable
  /-- The file is no document, or one that does not say settings. -/
  | document
  | badVariable (name value : String)
  deriving DecidableEq, Repr

def LoadError.message : LoadError → String
  | unreadable => "Failed to read config file"
  | document => "Failed to parse YAML"
  | badVariable name value => s!"Invalid value for {name}: {value}"

/-- A whole number of the given base below `2 ^ 64`. -/
def radix? (base : Nat) (cs : List Char) : Option Nat := do
  if cs.isEmpty then none
  let digits ← cs.mapM Json.hexDigit?
  if digits.any (base ≤ ·) then none
  let n := digits.foldl (fun n d => base * n + d) 0
  if n < 2 ^ (64 : Nat) then some n else none

/-- A plain whole number: decimal without zeros in front, or with a prefix that names its base. -/
def wholeNumber? : Yaml.Node → Option Nat
  | .scalar true text =>
    let cs := match text.toList with
      | '+' :: cs => cs
      | cs => cs
    let prefixed := match cs with
      | '0' :: 'x' :: cs => radix? 16 cs
      | '0' :: 'o' :: cs => radix? 8 cs
      | '0' :: 'b' :: cs => radix? 2 cs
      | _ => none
    match prefixed, cs with
    | some n, _ => some n
    | none, '0' :: c :: _ => if c.isDigit && cs.all Char.isDigit then none else radix? 10 cs
    | none, cs => radix? 10 cs
  | _ => none

/-- The values of the named keys; a key given twice is refused, others are passed over, but each must be a
scalar. -/
def fields? (names : List String) (node : Yaml.Node) : Option (List (Option Yaml.Node)) := do
  let entries ← (← node.entries?).mapM fun (key, value) => do return (← key.text?, value)
  if names.any fun n => 1 < entries.countP (·.1 == n) then none
  return names.map fun n => entries.lookup n

/-- The value that is given, or else the one there is. -/
def override (there : α) (read : Yaml.Node → Option α) : Option Yaml.Node → Option α
  | none => some there
  | some node => read node

def optionalText? (node : Yaml.Node) : Option (Option String) :=
  if node.isNull then some none else node.text?.map some

def portNumber? (node : Yaml.Node) : Option Nat :=
  (wholeNumber? node).filter (· < 2 ^ (16 : Nat))

def server? (s : ServerSettings) (node : Yaml.Node) : Option ServerSettings := do
  match ← fields? ["host", "port"] node with
  | [host, number] => return ⟨← override s.host (·.written?) host, ← override s.portNumber portNumber? number⟩
  | _ => none

def store? (s : StoreSettings) (node : Yaml.Node) : Option StoreSettings := do
  match ← fields? ["database", "schema", "health_table"] node with
  | [database, schema, table] =>
    return ⟨← override s.database (·.written?) database, ← override s.schema (·.written?) schema,
      ← override s.healthTable optionalText? table⟩
  | _ => none

def execution? (s : ExecutionSettings) (node : Yaml.Node) : Option ExecutionSettings := do
  match ← fields? ["native_vector_ordering", "max_vector_candidates", "transaction_idle_timeout_secs"] node with
  | [native, most, timeout] =>
    return ⟨← override s.nativeVectorOrdering (·.bool?) native, ← override s.maxVectorCandidates wholeNumber? most,
      ← override s.transactionIdleTimeoutSecs wholeNumber? timeout⟩
  | _ => none

def logging? (s : LoggingSettings) (node : Yaml.Node) : Option LoggingSettings := do
  match ← fields? ["level", "format", "output", "directory"] node with
  | [level, format, output, directory] =>
    return ⟨← override s.level (·.written?) level, ← override s.format (·.written?) format,
      ← override s.output (·.written?) output, ← override s.directory (·.written?) directory⟩
  | _ => none

def ofNode? (s : Settings) (node : Yaml.Node) : Option Settings := do
  match ← fields? ["server", "store", "execution", "logging"] node with
  | [server, store, execution, logging] =>
    return ⟨← override s.server (server? s.server) server, ← override s.store (store? s.store) store,
      ← override s.execution (execution? s.execution) execution, ← override s.logging (logging? s.logging) logging⟩
  | _ => none

def ofText? (text : String) : Option Settings :=
  match Yaml.document? text with
  | none => none
  | some none => some byDefault
  | some (some node) => ofNode? byDefault node

abbrev Environment := List (String × String)

/-- A whole number up to `most`, with an optional plus sign. -/
def numberUpTo (most : Nat) (text : String) : Option Nat :=
  let cs := match text.toList with
    | '+' :: cs => cs
    | cs => cs
  if Decimal.isDigits cs && Decimal.digitsValue cs ≤ most then some (Decimal.digitsValue cs) else none

def truth? : String → Option Bool
  | "true" => some true
  | "false" => some false
  | _ => none

/-- The value of a variable without the blanks around it, if the variable is set. -/
def parsed (env : Environment) (name : String) (read : String → Option α) : Except LoadError (Option α) :=
  match env.lookup name with
  | none => .ok none
  | some value =>
    match read (Text.trim value) with
    | some a => .ok (some a)
    | none => .error (.badVariable name value)

/-- Variables are looked at in a fixed order, which decides which bad one is reported. -/
def withEnvironment (s : Settings) (env : Environment) : Except LoadError Settings := do
  let verbatim (name there : String) := (env.lookup name).getD there
  let number ← parsed env "SIDECAR_PORT" (numberUpTo (2 ^ (16 : Nat) - 1))
  let native ← parsed env "SIDECAR_NATIVE_VECTOR_ORDERING" truth?
  let most ← parsed env "SIDECAR_MAX_VECTOR_CANDIDATES" (numberUpTo (2 ^ (64 : Nat) - 1))
  let timeout ← parsed env "SIDECAR_TRANSACTION_IDLE_TIMEOUT_SECS" (numberUpTo (2 ^ (64 : Nat) - 1))
  let table := match env.lookup "SIDECAR_HEALTH_TABLE" with
    | none => s.store.healthTable
    | some "" => none
    | some name => some name
  return {
    server := ⟨verbatim "SIDECAR_HOST" s.server.host, number.getD s.server.portNumber⟩
    store := ⟨verbatim "SIDECAR_DATABASE" s.store.database, verbatim "SIDECAR_SCHEMA" s.store.schema, table⟩
    execution := ⟨native.getD s.execution.nativeVectorOrdering, most.getD s.execution.maxVectorCandidates,
      timeout.getD s.execution.transactionIdleTimeoutSecs⟩
    logging := ⟨verbatim "RUST_LOG" s.logging.level, verbatim "LOG_FORMAT" s.logging.format,
      verbatim "LOG_OUTPUT" s.logging.output, verbatim "LOG_DIR" s.logging.directory⟩ }

/-- Settings from the bytes of a file, if there is one, and the environment. -/
def load (file : Option ByteArray) (env : Environment) : Except LoadError Settings := do
  let fromFile ← match file with
    | none => .ok byDefault
    | some bytes =>
      match String.fromUTF8? bytes with
      | none => .error .unreadable
      | some text =>
        match ofText? text with
        | none => .error .document
        | some s => .ok s
  withEnvironment fromFile env

def filePath (env : Environment) : String :=
  (env.lookup "SIDECAR_CONFIG").getD "config.yaml"

end QueryGateway.Settings
