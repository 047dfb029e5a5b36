import ViewBinding.Manifest.Reader
import ViewBinding.Round

namespace ViewBinding.Manifest

inductive Place where
  | type (name : String)
  | field (owner : ClassName) (name : String)
  | parameter (owner : ClassName) (method name : String)
  deriving DecidableEq, Repr

def Place.text : Place → String
  | .type name => s!"type `{name}`"
  | .field owner name => s!"field `{owner}#{name}`"
  | .parameter owner method name => s!"parameter `{name}` of `{owner}#{method}`"

inductive Error where
  | malformed (fault : Fault)
  | badName (place : Place) (source : NameError)
  | enclosingCount (name : String) (expected found : Nat)

def Error.message : Error → String
  | .malformed fault => "malformed manifest: " ++ fault.message
  | .badName place source => s!"invalid name in {place.text}: {source.message}"
  | .enclosingCount name expected found =>
      s!"type `{name}` has {expected} enclosing types but `enclosing` lists {found}"

@[reducible] def parameterShape : Shape :=
  .record "ParameterDef" (.cons "name" true .text (.cons "type" true .text .nil))

@[reducible] def methodShape : Shape :=
  .record "MethodDef" (.cons "name" true .text (.cons "modifiers" false (.list .modifier)
    (.cons "parameters" false (.list parameterShape)
      (.cons "on_click" false (.optional (.list .viewId)) .nil))))

@[reducible] def fieldShape : Shape :=
  .record "FieldDef" (.cons "name" true .text (.cons "type" true .text
    (.cons "modifiers" false (.list .modifier) (.cons "view_by_id" false (.optional .viewId) .nil))))

@[reducible] def typeShape : Shape :=
  .record "TypeDef" (.cons "name" true .text (.cons "package" false (.optional .text)
    (.cons "kind" false .kind (.cons "modifiers" false (.list .modifier)
      (.cons "enclosing" false (.list (.list .modifier)) (.cons "fields" false (.list fieldShape)
        (.cons "methods" false (.list methodShape) .nil)))))))

@[reducible] def roundShape : Shape :=
  .record "RoundDef" (.cons "types" false (.list typeShape) .nil)

@[reducible] def shape : Shape := .record "ManifestDef" (.cons "rounds" true (.list roundShape) .nil)

def declaredType (place : Place) (text : String) : Except Error TypeName :=
  (TypeName.declared text).mapError (.badName place)

def parameterDecl (owner : ClassName) (method : String) :
    parameterShape.Carrier → Except Error ParameterDecl
  | (name, type, ()) => do
      let type ← declaredType (.parameter owner method name) type
      .ok { name, type }

def methodDecl (owner : ClassName) : methodShape.Carrier → Except Error MethodDecl
  | (name, modifiers, parameters, clickIds, ()) => do
      let parameters ← parameters.mapM (parameterDecl owner name)
      .ok { name, modifiers := .ofList modifiers, parameters, clickIds }

def fieldDecl (owner : ClassName) : fieldShape.Carrier → Except Error FieldDecl
  | (name, type, modifiers, viewId, ()) => do
      let type ← declaredType (.field owner name) type
      .ok { name, type, modifiers := .ofList modifiers, viewId }

/-- A name is guessed by its capitalization unless its package is given. -/
def typeName (name : String) : Option String → Except NameError ClassName
  | some package => ClassName.within package name
  | none => ClassName.guess name

def typeDecl : typeShape.Carrier → Except Error TypeDecl
  | (name, package, kind, modifiers, enclosing, fields, methods, ()) => do
      let c ← (typeName name package).mapError (.badName (.type name))
      if !enclosing.isEmpty && enclosing.length ≠ c.inner.length then
        .error (.enclosingCount name c.inner.length enclosing.length)
      let fields ← fields.mapM (fieldDecl c)
      let methods ← methods.mapM (methodDecl c)
      .ok {
        name := c, kind, modifiers := .ofList modifiers, enclosing := enclosing.map .ofList,
        fields, methods }

def round : roundShape.Carrier → Except Error Round
  | (types, ()) => do
      let types ← types.mapM typeDecl
      .ok ⟨types⟩

/-- Reads the whole text first and then gives the names in it a meaning, in document order. -/
def parse (text : String) : Except Error (List Round) := do
  let (rounds, ()) ← (shape.parse text.toList).mapError .malformed
  rounds.mapM round

end ViewBinding.Manifest
