import ViewBinding.Declaration

namespace ViewBinding

structure Round where
  types : List TypeDecl
  deriving DecidableEq, Repr

structure MarkedField where
  host : TypeDecl
  field : FieldDecl
  id : ViewId
  deriving DecidableEq, Repr

structure MarkedMethod where
  host : TypeDecl
  method : MethodDecl
  ids : List ViewId
  deriving DecidableEq, Repr

namespace TypeDecl

def markedFields (t : TypeDecl) : List MarkedField :=
  t.fields.filterMap fun f => f.viewId.map fun id => ⟨t, f, id⟩

def markedMethods (t : TypeDecl) : List MarkedMethod :=
  t.methods.filterMap fun m => m.clickIds.map fun ids => ⟨t, m, ids⟩

end TypeDecl

namespace Round

def isEmpty (r : Round) : Bool := r.types.isEmpty

def markedFields (r : Round) : List MarkedField := r.types.flatMap TypeDecl.markedFields

def markedMethods (r : Round) : List MarkedMethod := r.types.flatMap TypeDecl.markedMethods

end Round

def MarkedField.site (f : MarkedField) : Site := f.field.site f.host.name

def MarkedMethod.site (m : MarkedMethod) : Site := m.method.site m.host.name

end ViewBinding
