import ViewBinding.Java.CodeBlock
import ViewBinding.Modifier

namespace ViewBinding.Java

structure AnnotationUse where
  type : ClassName
  value : Option String
  deriving BEq, Repr

namespace AnnotationUse

def override : AnnotationUse := ⟨.ofTopLevel "java.lang" "Override", none⟩

def suppressWarnings (warning : String) : AnnotationUse :=
  ⟨.ofTopLevel "java.lang" "SuppressWarnings", some ("\"" ++ warning ++ "\"")⟩

end AnnotationUse

structure Parameter where
  modifiers : Modifiers
  type : TypeExpr
  name : String
  deriving BEq, Repr

/-- A method; a constructor is one without a name. -/
structure Method where
  name : String
  annotations : List AnnotationUse := []
  modifiers : Modifiers := ∅
  typeVariables : List String := []
  returns : TypeExpr := .void
  parameters : List Parameter := []
  body : CodeBlock := .empty
  deriving BEq, Repr

namespace Method

def isConstructor (m : Method) : Bool := m.name.isEmpty

def classes (m : Method) : List ClassName :=
  m.annotations.map AnnotationUse.type ++ m.returns.classes
    ++ m.parameters.flatMap (fun p => p.type.classes) ++ m.body.classes

end Method

structure Class where
  name : String
  modifiers : Modifiers
  interfaces : List TypeExpr
  methods : List Method
  deriving BEq, Repr

def Class.classes (c : Class) : List ClassName :=
  c.interfaces.flatMap TypeExpr.classes ++ c.methods.flatMap Method.classes

end ViewBinding.Java
