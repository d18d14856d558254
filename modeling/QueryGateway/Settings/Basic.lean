namespace QueryGateway.Settings

structure ServerSettings where
  host : String
  portNumber : Nat
  deriving DecidableEq, Repr

structure StoreSettings where
  database : String
  schema : String
  /-- A table that has to exist for the server to count as healthy. -/
  healthTable : Option String
  deriving DecidableEq, Repr

structure ExecutionSettings where
  /-- Distances are left to the store where it can compute them. -/
  nativeVectorOrdering : Bool
  /-- The most rows that are ranked in process. -/
  maxVectorCandidates : Nat
  transactionIdleTimeoutSecs : Nat
  deriving DecidableEq, Repr

namespace ExecutionSettings

/-- No timeout if it is zero. -/
def idleTimeoutSecs? (e : ExecutionSettings) : Option Nat :=
  if 0 < e.transactionIdleTimeoutSecs then some e.transactionIdleTimeoutSecs else none

end ExecutionSettings

structure LoggingSettings where
  level : String
  format : String
  output : String
  directory : String
  deriving DecidableEq, Repr

end QueryGateway.Settings

namespace QueryGateway

open Settings in
structure Settings where
  server : ServerSettings
  store : StoreSettings
  execution : ExecutionSettings
  logging : LoggingSettings
  deriving DecidableEq, Repr

namespace Settings

def byDefault : Settings :=
  ⟨⟨"127.0.0.1", 5000⟩, ⟨"data/sidecar.duckdb", "main", none⟩, ⟨false, 10000, 600⟩,
    ⟨"info", "pretty", "stdout", "./logs"⟩⟩

end Settings

end QueryGateway
