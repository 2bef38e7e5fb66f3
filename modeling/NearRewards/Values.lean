import Mathlib.Algebra.Order.Ring.Int
import Mathlib.Data.List.DropRight
import NearRewards.Client
import NearRewards.Library.Dict

/-! What the operator agent's documents, incidents and results are made of. -/

namespace NearRewards.Agent

/-- A float is given by what it prints. -/
inductive Value where
  | none
  | bool (b : Bool)
  | int (n : ℤ)
  | float (printed : String)
  | str (s : String)
  | list (items : List Value)
  | dict (fields : List (String × Value))

/-- `str` keys only, in the order in which they were first assigned. -/
abbrev Doc := Dict String Value

/-- An exception: the name of its class, and its text. -/
structure Exception where
  kind : String
  text : String
  deriving DecidableEq, Repr

namespace Value

/-- The type's name, as exceptions print it. -/
def typeName : Value → String
  | .none => "NoneType"
  | .bool _ => "bool"
  | .int _ => "int"
  | .float _ => "float"
  | .str _ => "str"
  | .list _ => "list"
  | .dict _ => "dict"

def truthy : Value → Bool
  | .none => false
  | .bool b => b
  | .int n => n ≠ 0
  | .float printed => printed ≠ "0.0" ∧ printed ≠ "-0.0"
  | .str s => s ≠ ""
  | .list items => ¬items.isEmpty
  | .dict fields => ¬fields.isEmpty

/-- `a or b`. -/
def or (value other : Value) : Value := if value.truthy then value else other

theorem dict_or (fields : List (String × Value)) : (Value.dict fields).or (.dict []) = .dict fields := by
  cases fields <;> rfl

/-- `isinstance(value, str)`, with the string. -/
def str? : Value → Option String
  | .str s => some s
  | _ => Option.none

/-- `str(value)` of what can be printed; how a container prints is left to `repr`. -/
def shown (repr : Value → String) : Value → String
  | .none => "None"
  | .bool b => if b then "True" else "False"
  | .int n => toString n
  | .float printed => printed
  | .str s => s
  | container => repr container

/-- `list(value)`: a string gives its characters, a dict its keys. -/
def toList : Value → Except Exception (List Value)
  | .list items => .ok items
  | .str s => .ok (s.toList.map fun char => .str (String.singleton char))
  | .dict fields => .ok (fields.map fun field => .str field.1)
  | value => .error ⟨"TypeError", "'" ++ value.typeName ++ "' object is not iterable"⟩

/-- Lists and dicts are no keys. -/
def hashable : Value → Bool
  | .list _ => false
  | .dict _ => false
  | _ => true

/-- An element of what `dict` is given: its key and its value. An entry under another key than
a string has no place in these documents and is left out. -/
def pair (index : ℕ) (element : Value) : Except Exception (Option (String × Value)) :=
  match element.toList with
  | .error _ => .error ⟨"TypeError", "cannot convert dictionary update sequence element #" ++ toString index ++ " to a sequence"⟩
  | .ok [.str key, value] => .ok (some (key, value))
  | .ok [key, _] => if key.hashable then .ok Option.none else .error ⟨"TypeError", "unhashable type: '" ++ key.typeName ++ "'"⟩
  | .ok items => .error ⟨"ValueError", "dictionary update sequence element #" ++ toString index ++ " has length " ++
      toString items.length ++ "; 2 is required"⟩

def pairs (index : ℕ) : List Value → Except Exception (List (String × Value))
  | [] => .ok []
  | element :: elements => do
    let field ← pair index element
    return field.toList ++ (← pairs (index + 1) elements)

/-- `dict(value)`: of a dict, or of the pairs that `value` gives. -/
def toDict : Value → Except Exception Doc
  | .dict fields => .ok (Dict.ofList fields)
  | value => do return Dict.ofList (← pairs 0 (← value.toList))

end Value

mutual

/-- Every integer in it is short enough for the interpreter to print. -/
def Value.legible (limit : ℕ) : Value → Bool
  | .int n => ¬Client.TooLong limit n
  | .list items => legibleItems limit items
  | .dict fields => legibleFields limit fields
  | _ => true

def legibleItems (limit : ℕ) : List Value → Bool
  | [] => true
  | item :: items => item.legible limit && legibleItems limit items

def legibleFields (limit : ℕ) : List (String × Value) → Bool
  | [] => true
  | (_, value) :: fields => value.legible limit && legibleFields limit fields

end

/-- What printing too long an integer raises. -/
def tooLong (limit : ℕ) : Exception := ⟨"ValueError", Client.limitMessage limit⟩

/-- `str(value)`. -/
def Value.text (limit : ℕ) (repr : Value → String) (value : Value) : Except Exception String :=
  if value.legible limit then .ok (value.shown repr) else .error (tooLong limit)

/-- `str(value) if value is not None else None`. -/
def Value.textOrNone (limit : ℕ) (repr : Value → String) : Value → Except Exception Value
  | .none => .ok .none
  | value => .str <$> value.text limit repr

/-- What `get` of something that is no dict raises. -/
def noGet (typeName : String) : Exception := ⟨"AttributeError", "'" ++ typeName ++ "' object has no attribute 'get'"⟩

/-- `json.dumps(data)`, as far as it can fail. -/
def dumps (limit : ℕ) (data : List (String × Value)) : Except Exception Unit :=
  if legibleFields limit data then .ok () else .error (tooLong limit)

theorem legible_of_mem {limit : ℕ} {fields : List (String × Value)} (legible : legibleFields limit fields = true)
    {field : String × Value} (member : field ∈ fields) : field.2.legible limit = true := by
  induction fields with
  | nil => cases member
  | cons first fields ih =>
    obtain ⟨own, others⟩ := Bool.and_eq_true_iff.mp legible
    rcases List.mem_cons.mp member with rfl | later
    · exact own
    · exact ih others later

/-- `doc.get(key)`. -/
def Doc.get (doc : Doc) (key : String) : Value := (doc.get? key).getD .none

/-- The characters `str.strip` takes away. -/
def isSpace (char : Char) : Bool :=
  char.toNat ∈ [0x9, 0xa, 0xb, 0xc, 0xd, 0x1c, 0x1d, 0x1e, 0x1f, 0x20, 0x85, 0xa0, 0x1680, 0x2000, 0x2001, 0x2002, 0x2003,
    0x2004, 0x2005, 0x2006, 0x2007, 0x2008, 0x2009, 0x200a, 0x2028, 0x2029, 0x202f, 0x205f, 0x3000]

/-- `text.strip()`. -/
def stripped (text : List Char) : List Char := (text.dropWhile isSpace).rdropWhile isSpace

end NearRewards.Agent
