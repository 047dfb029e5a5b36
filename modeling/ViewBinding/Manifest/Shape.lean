import ViewBinding.Declaration
import ViewBinding.Json.Token

namespace ViewBinding.Manifest

mutual

/-- Which texts stand for a value; `Carrier` is the type of that value. -/
inductive Shape where
  | text
  | viewId
  | modifier
  | kind
  | optional (shape : Shape)
  | list (shape : Shape)
  | record (name : String) (members : Members)

/-- The members of a record in the order of declaration. One that is not `required` may be left
out, if its shape has a value to stand for nothing. -/
inductive Members where
  | nil
  | cons (key : String) (required : Bool) (shape : Shape) (rest : Members)

end

mutual

@[reducible] def Shape.Carrier : Shape → Type
  | .text => String
  | .viewId => ViewId
  | .modifier => Modifier
  | .kind => TypeKind
  | .optional shape => Option shape.Carrier
  | .list shape => List shape.Carrier
  | .record _ members => members.Carrier

@[reducible] def Members.Carrier : Members → Type
  | .nil => Unit
  | .cons _ _ shape rest => shape.Carrier × rest.Carrier

end

/-- What a list or a kind is when it is left out. -/
def Shape.default? : (shape : Shape) → Option shape.Carrier
  | .kind => some .ordinary
  | .list _ => some []
  | _ => none

def Shape.absent? : (shape : Shape) → Option shape.Carrier
  | .optional _ => some none
  | shape => shape.default?

namespace Members

def keys : Members → List String
  | .nil => []
  | .cons key _ _ rest => key :: rest.keys

def length : Members → Nat
  | .nil => 0
  | .cons _ _ _ rest => rest.length + 1

@[reducible] def Slots : Members → Type
  | .nil => Unit
  | .cons _ _ shape rest => Option shape.Carrier × rest.Slots

def noSlots : (members : Members) → members.Slots
  | .nil => ()
  | .cons _ _ _ rest => (none, rest.noSlots)

end Members

end ViewBinding.Manifest
