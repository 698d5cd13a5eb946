import Concolic.Json.Value
import Concolic.Text.Decimal

/-!
# Values out of JSON

What a JSON value may stand for. A record is an object, whose unknown keys are passed over and whose known
keys occur at most once, or else an array of its fields in their order. A variant is its name alone, or an
object with its name as the only key.
-/

namespace Concolic

namespace Json

def bool? : Json → Option Bool
  | bool b => some b
  | _ => none

def string? : Json → Option String
  | string s => some s
  | _ => none

/-- The natural number, which must be below `bound` and be written in digits alone. -/
def natBelow? (bound : Nat) : Json → Option Nat
  | number digits => (Decimal.nat? digits.toList).filter (· < bound)
  | _ => none

def uint32? (j : Json) : Option UInt32 :=
  (j.natBelow? UInt32.size).map UInt32.ofNat

def uint64? (j : Json) : Option UInt64 :=
  (j.natBelow? UInt64.size).map UInt64.ofNat

def list? (item? : Json → Option α) : Json → Option (List α)
  | array items => items.mapM item?
  | _ => none

def map? (item? : Json → Option α) : Json → Option (List (String × α))
  | object fields => fields.mapM fun (k, v) => (item? v).map fun a => (k, a)
  | _ => none

/-- The fields of a record by name, in the given order, each with its value if it is there. -/
def record? (names : List String) : Json → Option (List (Option Json))
  | object fields =>
    names.mapM fun name =>
      match fields.filter fun field => field.1 = name with
      | [] => some none
      | [(_, v)] => some (some v)
      | _ => none
  | array items =>
    if items.length ≤ names.length then
      some (items.map some ++ List.replicate (names.length - items.length) none)
    else none
  | _ => none

/-- The fields of a record none of which may be left out. -/
def fullRecord? (names : List String) (j : Json) : Option (List Json) :=
  (j.record? names).bind fun fields => fields.mapM id

/-- A field that may be left out, in which case it is `default`. -/
def fieldOr (default : α) (read? : Json → Option α) : Option Json → Option α
  | none => some default
  | some j => read? j

/-- The name of a variant, and what is said about it. -/
def variant? : Json → Option (String × Json)
  | string name => some (name, null)
  | object [(name, v)] => some (name, v)
  | _ => none

end Json

end Concolic
