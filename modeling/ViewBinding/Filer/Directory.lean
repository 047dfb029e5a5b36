import ViewBinding.Filer.Basic

namespace ViewBinding

open Java

inductive DiskFault where
  | notFound
  | alreadyExists
  | notDirectory
  | isDirectory
  | nameTooLong
  | notText
  | other (text : String)
  deriving DecidableEq, Repr

def DiskFault.message : DiskFault → String
  | .notFound => "No such file or directory (os error 2)"
  | .alreadyExists => "File exists (os error 17)"
  | .notDirectory => "Not a directory (os error 20)"
  | .isDirectory => "Is a directory (os error 21)"
  | .nameTooLong => "File name too long (os error 36)"
  | .notText => "stream did not contain valid UTF-8"
  | .other text => text

/-- The operations of a disk. `makeDirectory` makes one directory in another that is there. -/
structure Disk (m : Type → Type) where
  readText : Path → m (Except DiskFault String)
  isDirectory : Path → m Bool
  makeDirectory : Path → m (Except DiskFault Unit)
  writeText : Path → String → m (Except DiskFault Unit)

abbrev Created := List Path

namespace Disk

variable {m : Type → Type} [Monad m]

/-- Makes sure that a directory is there, with those around it, which are given after it. -/
def makeDirectories (disk : Disk m) : List Path → m (Except DiskFault Unit)
  | [] => pure (.ok ())
  | path :: around => do
      match ← disk.makeDirectory path with
      | .ok () => pure (.ok ())
      | .error .notFound =>
          match ← makeDirectories disk around with
          | .error fault => pure (.error fault)
          | .ok () => disk.makeDirectory path >>= accept disk path
      | .error fault => accept disk path (.error fault)
where
  /-- A directory that is there already is as good as a new one. -/
  accept (disk : Disk m) (path : Path) : Except DiskFault Unit → m (Except DiskFault Unit)
    | .ok () => pure (.ok ())
    | .error fault => do
        if ← disk.isDirectory path then pure (.ok ()) else pure (.error fault)

def place (disk : Disk m) (path : Path) (text : String) : m (Except DiskFault Unit) := do
  match ← disk.makeDirectories (path.ancestry.drop 1) with
  | .error fault => pure (.error fault)
  | .ok () => disk.writeText path text

/-- Files that were there before are overwritten; only those created by the filer count as created. -/
def filer (disk : Disk m) (root : Path) : Filer (StateT Created m) := fun f created => do
  let path := root.join f.path
  if created.any path.same then pure (.error (.recreated f.className.canonical), created)
  else
    match ← disk.place path f.render with
    | .error fault => pure (.error (.failed path fault.message), created)
    | .ok () => pure (.ok path, created ++ [path])

end Disk

end ViewBinding
