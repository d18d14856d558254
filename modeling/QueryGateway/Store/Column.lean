import QueryGateway.Store.Value
import QueryGateway.Text.Blank
import QueryGateway.Decimal.Numeral

namespace QueryGateway.Store

inductive ColumnType where
  | text
  | integer (kind : IntegerKind)
  | single
  | double
  | boolean
  | timestamp
  | date
  /-- So many single-precision numbers. -/
  | vector (size : Nat)
  deriving DecidableEq, Repr

namespace IntegerKind

def typeName : IntegerKind → String
  | tiny => "TINYINT"
  | small => "SMALLINT"
  | regular => "INTEGER"
  | big => "BIGINT"
  | huge => "HUGEINT"
  | unsignedTiny => "UTINYINT"
  | unsignedSmall => "USMALLINT"
  | unsignedRegular => "UINTEGER"
  | unsignedBig => "UBIGINT"
  | unsignedHuge => "UHUGEINT"

/-- The type as messages about conversions call it. -/
def machineName (k : IntegerKind) : String :=
  (if k.isSigned then "INT" else "UINT") ++ toString k.bits

end IntegerKind

namespace ColumnType

def name : ColumnType → String
  | text => "VARCHAR"
  | integer kind => kind.typeName
  | single => "FLOAT"
  | double => "DOUBLE"
  | boolean => "BOOLEAN"
  | timestamp => "TIMESTAMP"
  | date => "DATE"
  | vector size => "FLOAT[" ++ toString size ++ "]"

def names : List (String × ColumnType) :=
  [("VARCHAR", text), ("TEXT", text), ("STRING", text), ("CHAR", text), ("BPCHAR", text),
    ("TINYINT", integer .tiny), ("INT1", integer .tiny),
    ("SMALLINT", integer .small), ("INT2", integer .small), ("SHORT", integer .small),
    ("INTEGER", integer .regular), ("INT", integer .regular), ("INT4", integer .regular), ("SIGNED", integer .regular),
    ("BIGINT", integer .big), ("INT8", integer .big), ("LONG", integer .big),
    ("HUGEINT", integer .huge), ("UTINYINT", integer .unsignedTiny), ("USMALLINT", integer .unsignedSmall),
    ("UINTEGER", integer .unsignedRegular), ("UBIGINT", integer .unsignedBig), ("UHUGEINT", integer .unsignedHuge),
    ("FLOAT", single), ("FLOAT4", single), ("REAL", single), ("DOUBLE", double), ("FLOAT8", double),
    ("BOOLEAN", boolean), ("BOOL", boolean), ("LOGICAL", boolean),
    ("TIMESTAMP", timestamp), ("DATETIME", timestamp), ("DATE", date)]

def size? (cs : List Char) : Option Nat :=
  match cs.reverse with
  | ']' :: digits => if Decimal.isDigits digits then some (Decimal.digitsValue digits.reverse) else none
  | _ => none

def ofName? (s : String) : Option ColumnType :=
  let cs := (Text.upper (Text.trim s)).toList
  let base := String.ofList (cs.takeWhile (· != '['))
  match cs.dropWhile (· != '['), names.lookup base with
  | [], some t => some t
  | _ :: rest, some single => (size? rest).map vector
  | _, _ => none

end ColumnType

structure Column where
  name : String
  type : ColumnType
  /-- No two rows have the same value, null aside. -/
  unique : Bool
  /-- No row has null. -/
  required : Bool
  deriving DecidableEq, Repr

end QueryGateway.Store
