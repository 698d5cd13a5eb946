/-!
# JSON values

A value keeps the digits of its numbers and the order of its fields, so that nothing is lost between
reading and writing. One constructor stands for what JSON can spell and no text can hold: a string, or an
object with a key, in which an escape names half of a surrogate pair.
-/

namespace Concolic

inductive Json
  | null
  | bool (b : Bool)
  | number (digits : String)
  | string (s : String)
  | garbled
  | array (items : List Json)
  | object (fields : List (String × Json))
  deriving Inhabited

namespace Json

def integer (n : Int) : Json :=
  number (toString n)

def natural (n : Nat) : Json :=
  number (toString n)

end Json

end Concolic
