import ViewBinding.Java.TypeExpr

namespace ViewBinding.Java

/-- The owners of simple names, in the order of their claims. -/
structure ImportTable where
  package : String
  owners : List ClassName
  deriving DecidableEq, Repr

namespace ImportTable

def owner? (t : ImportTable) (simple : String) : Option ClassName :=
  t.owners.find? fun c => c.outermost = simple

def claim (t : ImportTable) (c : ClassName) : ImportTable :=
  if (t.owner? c.outermost).isSome then t else { t with owners := t.owners ++ [c.topLevel] }

def collect (package ownType : String) (classes : List ClassName) : ImportTable :=
  (ClassName.ofTopLevel package ownType :: classes).foldl claim ⟨package, []⟩

/-- Whether an owner has to be imported: it is neither in the default package, nor in the file's own,
nor in `java.lang`. -/
def needsImport (t : ImportTable) (c : ClassName) : Bool :=
  !c.package.isEmpty && c.package ≠ t.package && c.package ≠ "java.lang"

def imports (t : ImportTable) : List ClassName :=
  (t.owners.filter t.needsImport).mergeSort fun c d => decide (c.canonical ≤ d.canonical)

def className (t : ImportTable) (c : ClassName) : String :=
  if t.owner? c.outermost = some c.topLevel then c.dotted else c.canonical

def typeName (t : ImportTable) (e : TypeExpr) : String := e.write t.className

end ImportTable

end ViewBinding.Java
