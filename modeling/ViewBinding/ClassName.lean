import ViewBinding.Text.Identifier
import ViewBinding.Text.Segments

namespace ViewBinding

open Text

inductive NameError where
  | empty
  | noClassSegment (name : String)
  | invalidIdentifier (name segment : String)
  | generic (name : String)
  | packageMismatch (name package : String)
  deriving DecidableEq, Repr

def NameError.message : NameError → String
  | .empty => "empty type name"
  | .noClassSegment name =>
      s!"`{name}` does not name a class (no segment starts with an uppercase letter)"
  | .invalidIdentifier name segment => s!"`{segment}` in `{name}` is not a valid Java identifier"
  | .generic name => s!"generic type `{name}` is not supported"
  | .packageMismatch name package => s!"`{name}` is not inside package `{package}`"

/-- The outermost simple name is held apart, so a class always has one. -/
structure ClassName where
  package : String
  outermost : String
  inner : List String
  deriving DecidableEq, Hashable, Repr

namespace ClassName

def ofTopLevel (package simple : String) : ClassName := ⟨package, simple, []⟩

def nested (c : ClassName) (simple : String) : ClassName := { c with inner := c.inner ++ [simple] }

def names (c : ClassName) : List String := c.outermost :: c.inner

theorem names_ne_nil (c : ClassName) : c.names ≠ [] := by simp [names]

theorem ext_names {c d : ClassName} (hp : c.package = d.package) (hn : c.names = d.names) : c = d := by
  cases c; cases d; simp_all [names]

/-- The simple names up to one position inside the outermost; all of them if there are fewer. -/
def enclosing (c : ClassName) (depth : Nat) : ClassName := { c with inner := c.inner.take depth }

def topLevel (c : ClassName) : ClassName := { c with inner := [] }

def simple (c : ClassName) : String := c.inner.getLast?.getD c.outermost

def isNested (c : ClassName) : Bool := !c.inner.isEmpty

def dotted (c : ClassName) : String := join "." c.names

def binary (c : ClassName) : String := join "$" c.names

def qualify (package name : String) : String := if package.isEmpty then name else package ++ "." ++ name

/-- The name written in source code, `a.b.Outer.Inner`. -/
def canonical (c : ClassName) : String := qualify c.package c.dotted

/-- The name a class loader looks up, `a.b.Outer$Inner`. -/
def reflection (c : ClassName) : String := qualify c.package c.binary

/-- Whether the canonical name starts so; a namespace is given with its final dot. -/
def inNamespace (c : ClassName) (namespaceStart : String) : Bool := startsWith namespaceStart c.canonical

instance : ToString ClassName := ⟨canonical⟩

def compare (c d : ClassName) : Ordering :=
  (compareOfLessAndEq c.package d.package).then (compareOfLessAndEq c.names d.names)

def startsUpper (segment : String) : Bool := segment.toList.head?.any Char.isUpper

/-- Reads a dotted name by the usual capitalization: the class begins at the first segment that
starts with an ASCII uppercase letter, and what stands before it is the package. -/
def guess (text : String) : Except NameError ClassName :=
  let name := trimmed text
  let segments := split '.' name
  if name.isEmpty then .error .empty
  else if name.toList.contains '<' then .error (.generic name)
  else match segments.find? fun s => !isIdentifier s.toList with
    | some bad => .error (.invalidIdentifier name bad)
    | none =>
        match segments.dropWhile fun s => !startsUpper s with
        | [] => .error (.noClassSegment name)
        | outermost :: inner =>
            .ok ⟨join "." (segments.takeWhile fun s => !startsUpper s), outermost, inner⟩

def afterPackage? (package name : String) : Option String :=
  if package.isEmpty then some name
  else (dropStart? (package ++ ".").toList name.toList).map String.ofList

def within (packageText text : String) : Except NameError ClassName :=
  let package := trimmed packageText
  let name := trimmed text
  if name.isEmpty then .error .empty
  else match afterPackage? package name with
    | none => .error (.packageMismatch name package)
    | some rest =>
        let segments := split '.' rest
        let packageSegments := if package.isEmpty then [] else split '.' package
        match (packageSegments ++ segments).find? fun s => !isIdentifier s.toList with
        | some bad => .error (.invalidIdentifier name bad)
        | none =>
            match segments with
            | [] => .error .empty
            | outermost :: inner => .ok ⟨package, outermost, inner⟩

end ClassName

end ViewBinding
