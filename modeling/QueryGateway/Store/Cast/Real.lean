import QueryGateway.Store.Cast.Number
import QueryGateway.Text.Blank

namespace QueryGateway.Store.Cast

inductive Real where
  | numeral (x : Decimal.Numeral)
  | infinite (negative : Bool)
  | undefined

namespace Real

def toFloat : Real → Float
  | numeral x => x.toFloat
  | infinite negative => if negative then -1 / 0 else 1 / 0
  | undefined => 0 / 0

def toFloat32 : Real → Float32
  | numeral x => x.toFloat32
  | infinite negative => if negative then -1 / 0 else 1 / 0
  | undefined => 0 / 0

end Real

def realWord? (negative : Bool) (word : String) : Option Real :=
  match word with
  | "inf" => some (.infinite negative)
  | "infinity" => some (.infinite negative)
  | "nan" => some .undefined
  | _ => none

def plainExponent? : List Char → Option Int
  | [] => some 0
  | c :: cs =>
    if c == 'e' || c == 'E' then
      let (negative, digits) := Decimal.Numeral.splitSign cs
      if Decimal.isDigits digits then
        some (if negative then -(Decimal.digitsValue digits : Int) else Decimal.digitsValue digits)
      else none
    else none

/-- A numeral without a sign, or the word for infinity or for what is no number. -/
def unsignedReal? (negative : Bool) (cs : List Char) : Option Real :=
  match realWord? negative (Text.lower (String.ofList cs)) with
  | some x => some x
  | none => do
    let f ← figures? cs
    if f.whole.isEmpty && f.fraction.isEmpty then none
    return .numeral ⟨negative, f.whole, f.fraction, ← plainExponent? f.rest⟩

/-- Blanks at both ends are passed over, and one plus before the number's own sign. -/
def real? (text : String) : Option Real :=
  let cs := (dropSpaces (dropSpaces text.toList).reverse).reverse
  let cs := match cs with
    | '+' :: cs => cs
    | cs => cs
  match cs with
  | '-' :: cs => unsignedReal? true cs
  | cs => unsignedReal? false cs

def boolean? (text : String) : Option Bool :=
  let word := Text.lower text
  if ["true", "t", "yes", "y", "1"].contains word then some true
  else if ["false", "f", "no", "n", "0"].contains word then some false
  else none

end QueryGateway.Store.Cast
