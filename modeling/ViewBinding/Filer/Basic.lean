import ViewBinding.Diagnostic.Code
import ViewBinding.Java.SourceFile

namespace ViewBinding

open Java

inductive WriteFault where
  | recreated (className : String)
  | failed (path : Path) (reason : String)
  deriving DecidableEq, Repr

namespace WriteFault

def message : WriteFault → String
  | .recreated className => s!"Attempt to recreate a file for type {className}"
  | .failed path reason => s!"failed to write {path}: {reason}"

def code : WriteFault → Code
  | .recreated _ => .alreadyWritten
  | .failed .. => .writeFailure

end WriteFault

/-- Creates a file, with the effects of `m`, and tells where it went. -/
abbrev Filer (m : Type → Type) := SourceFile → m (Except WriteFault Path)

namespace Filer

/-- Fails for the types of the given names as if their places could not be written. -/
def refusing {m : Type → Type} [Monad m] (names : List String) (create : Filer m) : Filer m := fun f =>
  if names.contains f.type.name then pure (.error (.failed f.path "read-only")) else create f

end Filer

structure MemoryFiles where
  entries : List (Path × String)
  deriving DecidableEq, Repr

namespace MemoryFiles

def empty : MemoryFiles := ⟨[]⟩

def get? (files : MemoryFiles) (path : Path) : Option String :=
  (files.entries.find? fun e => e.1.same path).map Prod.snd

def size (files : MemoryFiles) : Nat := files.entries.length

def sorted (files : MemoryFiles) : List (Path × String) :=
  files.entries.mergeSort fun a b => (a.1.compare b.1).isLE

def create : Filer (StateM MemoryFiles) := fun f files =>
  if (files.get? f.path).isSome then (.error (.recreated f.className.canonical), files)
  else (.ok f.path, ⟨files.entries ++ [(f.path, f.render)]⟩)

end MemoryFiles

end ViewBinding
