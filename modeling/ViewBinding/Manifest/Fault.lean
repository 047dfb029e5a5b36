import ViewBinding.Json.Token
import ViewBinding.Text.Quoted
import ViewBinding.Text.Segments

namespace ViewBinding.Manifest

open Text

/-- A value found where another was expected. Of lists and objects only the kind is told. -/
inductive Found where
  | null
  | boolean (b : Bool)
  | integer (n : Int)
  | real (x : Float)
  | string (s : String)
  | list
  | object

namespace Found

def text : Found → String
  | .null => "null"
  | .boolean b => s!"boolean `{b}`"
  | .integer n => s!"integer `{String.ofList (Json.writeInt n)}`"
  | .real x => s!"floating point `{String.ofList (Decimal.ofFloat x)}`"
  | .string s => s!"string {quoted s}"
  | .list => "sequence"
  | .object => "map"

def ofJson : Json → Found
  | .null => .null
  | .boolean b => .boolean b
  | .integer n => .integer n
  | .real x => .real x
  | .string s => .string s
  | .array _ => .list
  | .object _ => .object

end Found

inductive Fault where
  | notJson (fault : Json.Fault)
  | wrongType (found : Found) (expected : String)
  | wrongValue (found : Found) (expected : String)
  | wrongLength (found : Nat) (record : String) (size : Nat)
  | unknownWord (word : String) (known : List String)
  | unknownMember (key : String) (known : List String)
  | repeatedMember (key : String)
  | missingMember (key : String)

namespace Fault

def ticked (word : String) : String := s!"`{word}`"

def choices : List String → String
  | [a, b] => s!"{ticked a} or {ticked b}"
  | [a] => ticked a
  | words => "one of " ++ join ", " (words.map ticked)

def message : Fault → String
  | .notJson fault => fault.message
  | .wrongType found expected => s!"invalid type: {found.text}, expected {expected}"
  | .wrongValue found expected => s!"invalid value: {found.text}, expected {expected}"
  | .wrongLength found record size =>
      let noun := if size = 1 then "element" else "elements"
      s!"invalid length {found}, expected struct {record} with {size} {noun}"
  | .unknownWord word known => s!"unknown variant `{word}`, expected {choices known}"
  | .unknownMember key known => s!"unknown field `{key}`, expected {choices known}"
  | .repeatedMember key => s!"duplicate field `{key}`"
  | .missingMember key => s!"missing field `{key}`"

end Fault

def ofJsonRead {α : Type} (r : Except Json.Fault α) : Except Fault α := r.mapError .notJson

end ViewBinding.Manifest
