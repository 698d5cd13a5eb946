import Concolic.Text.Cut
import Concolic.Value

/-!
# Variable names

The written name of a variable is its base, then a point and the letter of its kind, then a number sign
and a hint. A base alone names a byte string. The hint keeps names apart and says nothing about the value.
-/

namespace Concolic

structure VarName where
  base : String
  kind : Kind
  hint : Option String
  deriving DecidableEq, Repr

namespace VarName

/-- The name that a text spells; the text between the first point and the number sign after it has to be
the letter of a kind. -/
def parse (raw : String) : Except Fault VarName :=
  match cut? '.' raw.toList with
  | none => .ok ⟨raw, .sequence, none⟩
  | some (base, rest) =>
    let (letter, hint) := match cut? '#' rest with
      | some (letter, hint) => (letter, some (String.ofList hint))
      | none => (rest, none)
    match Kind.ofLetter? letter with
    | some kind => .ok ⟨String.ofList base, kind, hint⟩
    | none =>
      let letter := String.ofList letter
      .error (.decoding s!"invalid kind '{letter}' in assignment name '{raw}'")

def text (name : VarName) : String :=
  let named := name.base ++ "." ++ String.ofList [name.kind.letter]
  match name.hint with
  | some hint => named ++ "#" ++ hint
  | none => named

/-- The text of a name as it is asked for. With neither kind nor hint it is the base alone. -/
def encode (base : String) : Option Kind → Option String → String
  | none, none => base
  | kind, hint => text ⟨base, kind.getD .sequence, hint⟩

def decode (raw : String) : Except Fault (String × Kind) := do
  let name ← parse raw
  return (name.base, name.kind)

def decodeEntry (name : String) (octets : Bytes) : Except Fault (String × Value) := do
  let name ← parse name
  let value ← Value.decode name.kind octets
  return (name.base, value)

end VarName

end Concolic
