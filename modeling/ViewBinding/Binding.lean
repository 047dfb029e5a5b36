import ViewBinding.Diagnostic.Basic
import ViewBinding.Round

namespace ViewBinding

/-- A field to which a view is assigned. That its type is a view is left to the compiler. -/
structure FieldBinding where
  site : Site
  id : ViewId
  name : String
  type : TypeName
  deriving DecidableEq, Repr

def FieldBinding.ofField (host : TypeDecl) (f : FieldDecl) (id : ViewId) : FieldBinding :=
  ⟨f.site host.name, id, f.name, f.type⟩

/-- A method called when one of the views is clicked. A handler may take the view; `parameter` is
then its name. -/
structure MethodBinding where
  site : Site
  name : String
  ids : List ViewId
  parameter : Option String
  deriving DecidableEq, Repr

inductive HandlerFault where
  | manyParameters (method : Site) (count : Nat)
  | notView (method : Site) (parameter : String) (found : TypeName) (expected : ClassName)
  deriving DecidableEq, Repr

namespace HandlerFault

def message : HandlerFault → String
  | .manyParameters .. => "The method annotated with @OnClick must have at most one parameter"
  | .notView _ _ _ expected => s!"The method parameter must be {expected} type"

def code : HandlerFault → Code
  | .manyParameters .. => .manyParameters
  | .notView .. => .notView

def method : HandlerFault → Site
  | .manyParameters method _ => method
  | .notView method .. => method

def diagnostic (e : HandlerFault) : Diagnostic :=
  let d := Diagnostic.error e.code e.message
  match e with
  | .manyParameters method count =>
      ((d.about method s!"declares {count} parameters").note
        "the click listener only receives the clicked view").suggest
          "declare no parameter, or a single `View` parameter"
  | .notView method parameter found expected =>
      (d.about method s!"`{parameter}` has type `{found}`").suggest
        s!"declare `{parameter}` as `{expected.simple}` and cast inside the method"

end HandlerFault

namespace MethodBinding

/-- A handler takes nothing, or one parameter of exactly the view type. -/
def ofMethod (viewType : ClassName) (host : TypeDecl) (m : MethodDecl) (ids : List ViewId) :
    Except HandlerFault MethodBinding :=
  let site := m.site host.name
  match m.parameters with
  | [] => .ok ⟨site, m.name, ids, none⟩
  | [p] =>
      if p.type.isClass viewType then .ok ⟨site, m.name, ids, some p.name⟩
      else .error (.notView site p.name p.type viewType)
  | ps => .error (.manyParameters site ps.length)

end MethodBinding

end ViewBinding
