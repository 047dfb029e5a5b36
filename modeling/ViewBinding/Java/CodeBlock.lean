import ViewBinding.Java.Snippet

namespace ViewBinding.Java

/-- The depth is the number of braces open around the line. -/
structure CodeLine where
  depth : Nat
  snippet : Snippet
  deriving BEq, Repr

structure CodeBlock where
  lines : Array CodeLine
  depth : Nat
  deriving BEq, Repr

namespace CodeBlock

def empty : CodeBlock := ⟨#[], 0⟩

def line (b : CodeBlock) (x : Snippet) : CodeBlock :=
  { b with lines := b.lines.push ⟨b.depth, x⟩ }

def statement (b : CodeBlock) (x : Snippet) : CodeBlock := b.line (x.text ";")

def opening (b : CodeBlock) (x : Snippet) : CodeBlock :=
  let b := b.line (x.text " \x7b")
  { b with depth := b.depth + 1 }

def closing (b : CodeBlock) (suffix : String) : CodeBlock :=
  { b with depth := b.depth - 1 }.line ((Snippet.ofText "\x7d").text suffix)

def isEmpty (b : CodeBlock) : Bool := b.lines.isEmpty

def isBalanced (b : CodeBlock) : Bool := b.depth = 0

def classes (b : CodeBlock) : List ClassName :=
  b.lines.toList.flatMap fun l => l.snippet.classes

section Lines

variable (b : CodeBlock) (x : Snippet)

@[simp] theorem depth_empty : empty.depth = 0 := rfl

@[simp] theorem depth_statement : (b.statement x).depth = b.depth := rfl

@[simp] theorem depth_opening : (b.opening x).depth = b.depth + 1 := rfl

@[simp] theorem depth_closing (suffix : String) : (b.closing suffix).depth = b.depth - 1 := rfl

@[simp] theorem classes_line : (b.line x).classes = b.classes ++ x.classes := by
  simp [classes, line]

@[simp] theorem classes_statement : (b.statement x).classes = b.classes ++ x.classes := by
  rw [statement, classes_line, Snippet.classes_text]

@[simp] theorem classes_opening : (b.opening x).classes = b.classes ++ x.classes := by
  have hline := classes_line b (x.text " \x7b")
  rwa [Snippet.classes_text] at hline

@[simp] theorem classes_closing (suffix : String) : (b.closing suffix).classes = b.classes := by
  have hline := classes_line ⟨b.lines, b.depth - 1⟩ ((Snippet.ofText "\x7d").text suffix)
  rwa [Snippet.classes_text, Snippet.classes_ofText, List.append_nil] at hline

end Lines

end CodeBlock

end ViewBinding.Java
