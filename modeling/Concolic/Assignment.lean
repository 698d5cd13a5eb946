import Concolic.Escape
import Concolic.Keyed
import Concolic.VarName

/-!
# Assignments

The values of variables by base name, in the order in which the names first came. A name given again keeps
its place and takes the later value.
-/

namespace Concolic

/-- Values by name; no name occurs twice. -/
structure Assignment where
  entries : List (String × Value)
  nodup : (entries.map Prod.fst).Nodup
  deriving DecidableEq

namespace Assignment

def empty : Assignment := ⟨[], List.nodup_nil⟩

instance : Inhabited Assignment := ⟨empty⟩

def insert (a : Assignment) (name : String) (value : Value) : Assignment :=
  ⟨Keyed.put name value a.entries, Keyed.nodup_put a.nodup⟩

def get? (a : Assignment) (name : String) : Option Value :=
  a.entries.lookup name

def size (a : Assignment) : Nat :=
  a.entries.length

/-- The assignment of the given entries, the last of one name counting. -/
def ofList (entries : List (String × Value)) : Assignment :=
  entries.foldl (fun a e => a.insert e.1 e.2) empty

@[simp] theorem get?_empty (name : String) : empty.get? name = none := rfl

theorem get?_insert (a : Assignment) (name other : String) (value : Value) :
    (a.insert name value).get? other = if other = name then some value else a.get? other :=
  Keyed.lookup_put name other value a.entries

/-- Whether two assignments have the same names and values, in any order. -/
def agrees (a b : Assignment) : Bool :=
  a.size = b.size && a.entries.all fun e => b.get? e.1 = some e.2

/-- The assignment that entries of written names and octets decode to. -/
def decode (entries : List (String × Bytes)) : Except Fault Assignment :=
  entries.foldlM (fun a e => do
    let (base, value) ← VarName.decodeEntry e.1 e.2
    return a.insert base value) empty

/-- The assignment that a person gives by written names and escaped values. -/
def ofOverrides (overrides : List (String × String)) : Except Fault Assignment :=
  overrides.foldlM (fun a e => do
    let octets ← (Escape.unescape e.2).mapError Escape.Malformed.fault
    let (base, value) ← VarName.decodeEntry e.1 octets
    return a.insert base value) empty

instance : ToString Assignment where
  toString a :=
    let shown := a.entries.map fun (name, value) => name ++ ": " ++ toString value
    "\x7b" ++ ", ".intercalate shown ++ "\x7d"

def toJson (a : Assignment) : Json :=
  .object (a.entries.map fun (name, value) => (name, value.toJson))

end Assignment

end Concolic
