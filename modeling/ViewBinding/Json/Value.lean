import ViewBinding.Decimal.Text

namespace ViewBinding

/-- Whole numbers are told from numbers with a fraction or an exponent, and the members of an object keep
their order. -/
inductive Json where
  | null
  | boolean (b : Bool)
  | integer (n : Int)
  | real (x : Float)
  | string (s : String)
  | array (elements : List Json)
  | object (members : List (String × Json))
  deriving Inhabited

namespace Json

/-- The value of a member; where a name is repeated, the last one. -/
def get? : Json → String → Option Json
  | .object members, key => (members.reverse.find? fun m => m.1 = key).map Prod.snd
  | _, _ => none

def hexDigit (n : Nat) : Char :=
  if n < 10 then Char.ofNat ('0'.toNat + n) else Char.ofNat ('a'.toNat + (n - 10))

def escapeChar (c : Char) : List Char :=
  if c = '"' then ['\\', '"']
  else if c = '\\' then ['\\', '\\']
  else if c = '\x08' then ['\\', 'b']
  else if c = '\x0c' then ['\\', 'f']
  else if c = '\n' then ['\\', 'n']
  else if c = '\r' then ['\\', 'r']
  else if c = '\t' then ['\\', 't']
  else if c.toNat < 0x20 then
    ['\\', 'u', '0', '0', hexDigit (c.toNat / 16), hexDigit (c.toNat % 16)]
  else [c]

def writeString (s : String) : List Char := '"' :: s.toList.flatMap escapeChar ++ ['"']

def writeInt (n : Int) : List Char :=
  if n < 0 then '-' :: Decimal.numeral n.natAbs else Decimal.numeral n.natAbs

mutual

def write : Json → List Char
  | .null => ['n', 'u', 'l', 'l']
  | .boolean true => ['t', 'r', 'u', 'e']
  | .boolean false => ['f', 'a', 'l', 's', 'e']
  | .integer n => writeInt n
  | .real x => Decimal.ofFloat x
  | .string s => writeString s
  | .array vs => '[' :: writeElements vs ++ [']']
  | .object ms => '\x7b' :: writeMembers ms ++ ['\x7d']

def writeElements : List Json → List Char
  | [] => []
  | [v] => write v
  | v :: w :: vs => write v ++ ',' :: writeElements (w :: vs)

def writeMembers : List (String × Json) → List Char
  | [] => []
  | [(key, v)] => writeString key ++ ':' :: write v
  | (key, v) :: m :: ms => writeString key ++ ':' :: write v ++ ',' :: writeMembers (m :: ms)

end

def text (v : Json) : String := String.ofList v.write

end Json

end ViewBinding
