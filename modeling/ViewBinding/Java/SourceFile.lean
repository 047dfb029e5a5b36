import ViewBinding.Java.Declaration
import ViewBinding.Java.ImportTable
import ViewBinding.Java.Page
import ViewBinding.Path

namespace ViewBinding.Java

open Text

structure SourceFile where
  package : String
  comment : Option String
  type : Class
  deriving BEq, Repr

abbrev Layout := List (List Fragment)

def indentation (level : Nat) : Fragment := .text (String.ofList (List.replicate (4 * level) ' '))

def separated (separator : List Fragment) : Layout → List Fragment
  | [] => []
  | [part] => part
  | part :: next :: parts => part ++ separator ++ separated separator (next :: parts)

def modifierFragments (ms : Modifiers) : List Fragment :=
  ms.toList.map fun m => .text (m.keyword ++ " ")

def AnnotationUse.layout (level : Nat) (a : AnnotationUse) : List Fragment :=
  [indentation level, .text "@", .type (.ofClass a.type)]
    ++ match a.value with
      | some value => [.text "(", .text value, .text ")"]
      | none => []

def Parameter.layout (p : Parameter) : List Fragment :=
  modifierFragments p.modifiers ++ [.type p.type, .text " ", .text p.name]

def CodeBlock.layout (level : Nat) (b : CodeBlock) : Layout :=
  b.lines.toList.map fun l => indentation (level + l.depth) :: l.snippet.fragments

def Method.header (typeName : String) (level : Nat) (m : Method) : List Fragment :=
  indentation level :: modifierFragments m.modifiers
    ++ (if m.typeVariables.isEmpty then [] else [.text ("<" ++ join ", " m.typeVariables ++ "> ")])
    ++ (if m.isConstructor then [.text typeName] else [.type m.returns, .text " ", .text m.name])
    ++ .text "(" :: separated [.text ", "] (m.parameters.map Parameter.layout)
    ++ [.text ") \x7b"]

def Method.layout (typeName : String) (level : Nat) (m : Method) : Layout :=
  m.annotations.map (AnnotationUse.layout level) ++ [m.header typeName level]
    ++ m.body.layout (level + 1) ++ [[indentation level, .text "\x7d"]]

def methodsLayout (typeName : String) : List Method → Layout
  | [] => []
  | [m] => m.layout typeName 1
  | m :: n :: ms => m.layout typeName 1 ++ [[]] ++ methodsLayout typeName (n :: ms)

def Class.header (c : Class) : List Fragment :=
  modifierFragments c.modifiers ++ [.text "class ", .text c.name]
    ++ (if c.interfaces.isEmpty then []
      else .text " implements " :: separated [.text ", "] (c.interfaces.map fun i => [.type i]))
    ++ [.text " \x7b"]

def Class.layout (c : Class) : Layout :=
  c.header :: methodsLayout c.name c.methods ++ [[.text "\x7d"]]

namespace SourceFile

def className (f : SourceFile) : ClassName := .ofTopLevel f.package f.type.name

/-- The place of the file below a source root. -/
def path (f : SourceFile) : Path :=
  (((split '.' f.package).filter fun s => !s.isEmpty).foldl Path.push ⟨""⟩).push
    (f.type.name ++ ".java")

def table (f : SourceFile) : ImportTable := .collect f.package f.type.name f.type.classes

def commentLine (line : String) : String := if line.isEmpty then "//" else "// " ++ line

def commentLines (f : SourceFile) : List String :=
  match f.comment with
  | some comment => (lines comment).map commentLine
  | none => []

def packageLines (f : SourceFile) : List String :=
  if f.package.isEmpty then [] else ["package " ++ f.package ++ ";", ""]

def importLines (f : SourceFile) : List String :=
  let imports := f.table.imports
  if imports.isEmpty then [] else imports.map (fun c => "import " ++ c.canonical ++ ";") ++ [""]

def writeLine (name : ClassName → String) (line : List Fragment) : String :=
  String.join (line.map (Fragment.write name))

theorem writeLine_nil (name : ClassName → String) : writeLine name [] = "" := rfl

theorem writeLine_cons (name : ClassName → String) (f : Fragment) (line : List Fragment) :
    writeLine name (f :: line) = f.write name ++ writeLine name line := by
  rw [writeLine, List.map_cons, String.join_cons, writeLine]

theorem writeLine_append (name : ClassName → String) (x y : List Fragment) :
    writeLine name (x ++ y) = writeLine name x ++ writeLine name y := by
  rw [writeLine, List.map_append, String.join_append, writeLine, writeLine]

def typeLines (f : SourceFile) : List String := f.type.layout.map (writeLine f.table.className)

def sourceLines (f : SourceFile) : List String :=
  f.commentLines ++ f.packageLines ++ f.importLines ++ f.typeLines

def render (f : SourceFile) : String :=
  (f.sourceLines.foldl (fun p line => (p.write line).newline) Page.empty).trim.endLine.toString

end SourceFile

def generated (name : ClassName) (type : Class) : SourceFile where
  package := name.package
  comment := some "Generated by proxyc. Do not modify."
  type := type

end ViewBinding.Java
