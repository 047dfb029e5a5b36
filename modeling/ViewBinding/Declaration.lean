import ViewBinding.Modifier
import ViewBinding.TypeName

namespace ViewBinding

open Text

abbrev ViewId := Int32

inductive TypeKind where
  | ordinary | interface | enumeration | annotationType | record
  deriving DecidableEq, Repr

namespace TypeKind

def all : List TypeKind := [.ordinary, .interface, .enumeration, .annotationType, .record]

def keyword : TypeKind → String
  | .ordinary => "class"
  | .interface => "interface"
  | .enumeration => "enum"
  | .annotationType => "annotation"
  | .record => "record"

def noun : TypeKind → String
  | .annotationType => "annotation type"
  | k => k.keyword

end TypeKind

inductive Marker where
  | viewById | onClick
  deriving DecidableEq, Repr

namespace Marker

def all : List Marker := [.viewById, .onClick]

def simple : Marker → String
  | .viewById => "ViewById"
  | .onClick => "OnClick"

def qualified (m : Marker) : String := "proxytool." ++ m.simple

def targets : Marker → String
  | .viewById => "fields"
  | .onClick => "methods"

def text (m : Marker) : String := "@" ++ m.simple

instance : ToString Marker := ⟨text⟩

end Marker

inductive Site where
  | type (owner : ClassName)
  | field (owner : ClassName) (name : String)
  | method (owner : ClassName) (name : String) (parameters : List TypeName)
  deriving DecidableEq, Hashable, Repr

namespace Site

def owner : Site → ClassName
  | .type owner => owner
  | .field owner _ => owner
  | .method owner _ _ => owner

def member? : Site → Option String
  | .type _ => none
  | .field _ name => some name
  | .method _ name _ => some name

def text : Site → String
  | .type owner => owner.canonical
  | .field owner name => s!"{owner}#{name}"
  | .method owner name parameters =>
      let types := join ", " (parameters.map TypeName.text)
      s!"{owner}#{name}({types})"

instance : ToString Site := ⟨text⟩

end Site

/-- A field; `viewId` is there when the field is marked to be bound. -/
structure FieldDecl where
  name : String
  type : TypeName
  modifiers : Modifiers
  viewId : Option ViewId
  deriving DecidableEq, Repr

def FieldDecl.site (f : FieldDecl) (owner : ClassName) : Site := .field owner f.name

structure ParameterDecl where
  name : String
  type : TypeName
  deriving DecidableEq, Repr

/-- A method; `clickIds` is there when the method is marked as a click handler. -/
structure MethodDecl where
  name : String
  modifiers : Modifiers
  parameters : List ParameterDecl
  clickIds : Option (List ViewId)
  deriving DecidableEq, Repr

def MethodDecl.site (m : MethodDecl) (owner : ClassName) : Site :=
  .method owner m.name (m.parameters.map ParameterDecl.type)

/-- A type. `enclosing` holds the modifiers of the types around it, outermost first; it may be left
empty for a nested type, whose surroundings are then unknown. -/
structure TypeDecl where
  name : ClassName
  kind : TypeKind
  modifiers : Modifiers
  enclosing : List Modifiers
  fields : List FieldDecl
  methods : List MethodDecl
  deriving DecidableEq, Repr

namespace TypeDecl

def site (t : TypeDecl) : Site := .type t.name

def enclosingKnown (t : TypeDecl) : Bool := t.enclosing.length = t.name.inner.length

/-- Whether code of other packages can name the type. -/
def visibleOutside (t : TypeDecl) : Bool :=
  t.modifiers.contains .publicAccess && t.enclosingKnown && t.enclosing.all (·.contains .publicAccess)

def knownEnclosing (t : TypeDecl) : List Modifiers := if t.enclosingKnown then t.enclosing else []

/-- The outermost private type among this one and the known types around it. -/
def privateScope (t : TypeDecl) : Option ClassName :=
  match t.knownEnclosing.findIdx? (·.contains .privateAccess) with
  | some depth => some (t.name.enclosing depth)
  | none => if t.modifiers.contains .privateAccess then some t.name else none

end TypeDecl

end ViewBinding
