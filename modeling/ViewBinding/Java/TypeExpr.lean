import ViewBinding.TypeName

namespace ViewBinding.Java

open Text

inductive TypeExpr where
  | declared (type : TypeName)
  | generic (raw : ClassName) (arguments : List TypeExpr)
  | variable (name : String)
  deriving BEq, Repr

namespace TypeExpr

def void : TypeExpr := .declared .void

def ofClass (c : ClassName) : TypeExpr := .declared (.ofClass c)

def isVoid : TypeExpr → Bool
  | .declared type => type = .void
  | _ => false

mutual

/-- The type as written where a class is written as `name` says. -/
def write (name : ClassName → String) : TypeExpr → String
  | .declared type => writeDeclared name type
  | .generic raw arguments => name raw ++ "<" ++ join ", " (writeAll name arguments) ++ ">"
  | .variable v => v

def writeAll (name : ClassName → String) : List TypeExpr → List String
  | [] => []
  | t :: ts => write name t :: writeAll name ts

def writeDeclared (name : ClassName → String) : TypeName → String
  | .primitive p => p.keyword
  | .ofClass c => name c
  | .array component => writeDeclared name component ++ "[]"
  | .verbatim text => text

end

def text (t : TypeExpr) : String := t.write ClassName.canonical

mutual

def classes : TypeExpr → List ClassName
  | .declared type => type.mentioned?.toList
  | .generic raw arguments => raw :: classesOfAll arguments
  | .variable _ => []

def classesOfAll : List TypeExpr → List ClassName
  | [] => []
  | t :: ts => classes t ++ classesOfAll ts

end

end TypeExpr

end ViewBinding.Java
