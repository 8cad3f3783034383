import Orcker.Base.Numeral

/-!
# JSON values

Values as a JSON library holds them after reading. How text is read and printed is left to a
`JsonCrate`, of which no more is known than that a printed value is one line.
-/

namespace Base

/-- Numbers by the type they are held in; one that is no integer is kept as its digits. -/
inductive JsonNumber where
  | posInt (n : Nat)
  | negInt (n : Nat)
  | float (digits : Str)

/-- Keys of an object are distinct: of equal ones the last was kept. -/
inductive Json where
  | null
  | bool (b : Bool)
  | number (n : JsonNumber)
  | string (s : Str)
  | array (items : List Json)
  | object (fields : List (Str × Json))

namespace Json

/-- The value of a key; nothing in what is not an object. -/
def get (v : Json) (key : Str) : Option Json :=
  match v with
  | .object fields => (fields.find? (·.1 = key)).map Prod.snd
  | _ => none

def asStr : Json → Option Str
  | .string s => some s
  | _ => none

def asBool : Json → Option Bool
  | .bool b => some b
  | _ => none

/-- A number that is a 64-bit integer without a sign. -/
def asU64 : Json → Option Nat
  | .number (.posInt n) => some n
  | _ => none

end Json

/-- A JSON library: it reads text or says why not, and prints every value on one line. -/
structure JsonCrate where
  fromStr : Str → Except Str Json
  toString : Json → Option Str
  oneLine : ∀ v, ∃ s, toString v = some s ∧ '\n' ∉ s

/-- The library that reads the given texts, and prints every value as the line. -/
def JsonCrate.ofTexts (known : List (Str × Json)) (line : Str) (h : '\n' ∉ line) : JsonCrate where
  fromStr s :=
    match known.find? (·.1 = s) with
    | some entry => .ok entry.2
    | none => .error "expected value at line 1 column 1"
  toString _ := some line
  oneLine _ := ⟨line, rfl, h⟩

end Base
