import ViewBinding.ClassName

namespace ViewBinding

open Text

inductive Primitive where
  | boolean | byte | short | int | long | char | float | double | void
  deriving DecidableEq, Hashable, Repr

namespace Primitive

def all : List Primitive := [.boolean, .byte, .short, .int, .long, .char, .float, .double, .void]

def keyword : Primitive → String
  | .boolean => "boolean"
  | .byte => "byte"
  | .short => "short"
  | .int => "int"
  | .long => "long"
  | .char => "char"
  | .float => "float"
  | .double => "double"
  | .void => "void"

def ofKeyword? (word : String) : Option Primitive := all.find? fun p => p.keyword = word

theorem ofKeyword?_keyword (p : Primitive) : ofKeyword? p.keyword = some p := by
  cases p <;> decide

end Primitive

inductive TypeName where
  | primitive (p : Primitive)
  | ofClass (c : ClassName)
  | array (component : TypeName)
  | verbatim (text : String)
  deriving DecidableEq, Hashable, Repr

namespace TypeName

def void : TypeName := .primitive .void

def text : TypeName → String
  | .primitive p => p.keyword
  | .ofClass c => c.canonical
  | .array component => component.text ++ "[]"
  | .verbatim s => s

instance : ToString TypeName := ⟨text⟩

def class? : TypeName → Option ClassName
  | .ofClass c => some c
  | _ => none

/-- The class itself: an array of it or a subclass is another type. -/
def isClass (t : TypeName) (c : ClassName) : Bool := t.class? = some c

def isPrimitive : TypeName → Bool
  | .primitive _ => true
  | _ => false

def mentioned? : TypeName → Option ClassName
  | .ofClass c => some c
  | .array component => component.mentioned?
  | _ => none

def layers : TypeName → Nat
  | .array component => component.layers + 1
  | _ => 0

def arrays : Nat → TypeName → TypeName
  | 0, t => t
  | n + 1, t => .array (arrays n t)

/-- Takes the array suffixes `[]` and `...` off a text given from its end, and the white space
around them; the count of suffixes and what is left, still from its end. -/
def peel : List Char → Nat × List Char
  | [] => (0, [])
  | ']' :: '[' :: r => ((peel r).1 + 1, (peel r).2)
  | '.' :: '.' :: '.' :: r => ((peel r).1 + 1, (peel r).2)
  | c :: r => if isBlank c then peel r else (0, c :: r)

def ofElement (text : String) : Except NameError TypeName :=
  match Primitive.ofKeyword? text with
  | some p => .ok (.primitive p)
  | none => (ClassName.guess text).map .ofClass

def parse (text : String) : Except NameError TypeName :=
  let (layers, rest) := peel text.toList.reverse
  (ofElement (String.ofList (trimStart rest.reverse))).map (arrays layers)

/-- Any type but the empty text; one without a structure is kept as written. -/
def declared (text : String) : Except NameError TypeName :=
  match parse text with
  | .ok t => .ok t
  | .error .empty => .error .empty
  | .error _ => .ok (.verbatim (trimmed text))

end TypeName

end ViewBinding
