import Concolic.Json.Token
import Concolic.Json.Value

/-!
# Reading JSON

Tokens are read one at a time, with the containers that are still open kept on a stack. Nesting has no
limit.
-/

namespace Concolic

namespace Json

/-- A container that is still open, with what has been read of it in reverse. -/
inductive Container
  | array (items : List Json)
  | object (fields : List (Option String × Json)) (key : Option String)

/-- What the text has to go on with. -/
inductive Expected
  /-- A value, or the end of an array that has no items yet. -/
  | item (outer : List Container)
  | value (stack : List Container)
  /-- A key, or the end of an object that has no fields yet. -/
  | firstKey (outer : List Container)
  | key (fields : List (Option String × Json)) (outer : List Container)
  | colon (fields : List (Option String × Json)) (key : Option String) (outer : List Container)
  /-- A comma or an end, after a complete value. -/
  | after (v : Json) (stack : List Container)

/-- The object with these fields, in reverse; a key without a text garbles it. -/
def closeObject (fields : List (Option String × Json)) : Json :=
  match fields.reverse.mapM fun (key, v) => key.map fun k => (k, v) with
  | some fs => object fs
  | none => garbled

/-- Where a token leads that begins a value. -/
def beginValue (stack : List Container) : Token → Option Expected
  | .openBrace => some (.firstKey stack)
  | .openBracket => some (.item stack)
  | .null => some (.after null stack)
  | .bool b => some (.after (bool b) stack)
  | .number digits => some (.after (number digits) stack)
  | .string (some s) => some (.after (string s) stack)
  | .string none => some (.after garbled stack)
  | _ => none

def advance : Expected → Token → Option Expected
  | .item outer, .closeBracket => some (.after (array []) outer)
  | .item outer, t => beginValue (.array [] :: outer) t
  | .value stack, t => beginValue stack t
  | .firstKey outer, .closeBrace => some (.after (object []) outer)
  | .firstKey outer, .string k => some (.colon [] k outer)
  | .key fields outer, .string k => some (.colon fields k outer)
  | .colon fields k outer, .colon => some (.value (.object fields k :: outer))
  | .after v (.array items :: outer), .comma => some (.value (.array (v :: items) :: outer))
  | .after v (.array items :: outer), .closeBracket =>
    some (.after (array (v :: items).reverse) outer)
  | .after v (.object fields k :: outer), .comma => some (.key ((k, v) :: fields) outer)
  | .after v (.object fields k :: outer), .closeBrace =>
    some (.after (closeObject ((k, v) :: fields)) outer)
  | _, _ => none

def ofTokens? (tokens : List Token) : Option Json :=
  match tokens.foldlM advance (.value []) with
  | some (.after v []) => some v
  | _ => none

def parse? (s : String) : Option Json :=
  (Token.tokens? s).bind ofTokens?

end Json

end Concolic
