import ViewBinding.Filer.Directory

namespace ViewBinding

open Text

mutual

inductive Node where
  | file (content : ByteArray)
  | directory (entries : Directory)

inductive Directory where
  | nil
  | cons (name : String) (node : Node) (rest : Directory)

end

namespace Directory

def find? : Directory → String → Option Node
  | .nil, _ => none
  | .cons own node rest, name => if own = name then some node else rest.find? name

def put : Directory → String → Node → Directory
  | .nil, name, node => .cons name node .nil
  | .cons own old rest, name, node =>
      if own = name then .cons own node rest else .cons own old (rest.put name node)

def inner (d : Directory) (name : String) : Directory :=
  match d.find? name with
  | some (.directory entries) => entries
  | _ => .nil

/-- Changes the directory to which the names lead. -/
def change (d : Directory) (f : Directory → Directory) : List String → Directory
  | [] => f d
  | name :: names => d.put name (.directory ((d.inner name).change f names))

end Directory

/-- `working` holds the names from the root to the working directory. -/
structure FileTree where
  root : Directory
  working : List String

namespace FileTree

inductive Step where
  | stay
  | up
  | down (name : String)
  deriving DecidableEq, Repr

def Step.ofPiece : List Char → Step
  | [] => .stay
  | ['.'] => .stay
  | ['.', '.'] => .up
  | w => .down (String.ofList w)

/-- The steps that a path asks for. A slash at its end asks to stay where it leads, which only a
directory allows. -/
def steps (p : Path) : List Step := (cut '/' p.text.toList).map Step.ofPiece

def nameLimit : Nat := 255

def pathLimit : Nat := 4095

def checkLength (limit : Nat) (s : String) : Except DiskFault Unit :=
  if s.utf8ByteSize ≤ limit then .ok () else .error .nameTooLong

/-- The directories entered since the root with their names, the innermost first. -/
abbrev Trail := List (String × Directory)

def Trail.names (trail : Trail) : List String := (trail.map Prod.fst).reverse

def innermost (t : FileTree) : Trail → Directory
  | [] => t.root
  | (_, d) :: _ => d

/-- Takes steps from one directory to another. Above the root is the root. -/
def walk (t : FileTree) : Trail → List Step → Except DiskFault Trail
  | trail, [] => .ok trail
  | trail, .stay :: rest => walk t trail rest
  | trail, .up :: rest => walk t trail.tail rest
  | trail, .down name :: rest => do
      checkLength nameLimit name
      match (t.innermost trail).find? name with
      | none => .error .notFound
      | some (.file _) => .error .notDirectory
      | some (.directory d) => walk t ((name, d) :: trail) rest

/-- Where a path leads: the directory in which its last name stands and that name, or a directory
alone when the path does not end in a name. -/
def resolve (t : FileTree) (p : Path) : Except DiskFault (Trail × Option String) :=
  if p.text.isEmpty then .error .notFound
  else do
    checkLength pathLimit p.text
    let start ← t.walk [] (if p.text.startsWith '/' then [] else t.working.map .down)
    match (steps p).reverse with
    | .down name :: around => do
        let trail ← t.walk start around.reverse
        checkLength nameLimit name
        .ok (trail, some name)
    | around => do
        let trail ← t.walk start around.reverse
        .ok (trail, none)

def read (t : FileTree) (p : Path) : Except DiskFault ByteArray := do
  match ← t.resolve p with
  | (_, none) => .error .isDirectory
  | (trail, some name) =>
      match (t.innermost trail).find? name with
      | none => .error .notFound
      | some (.directory _) => .error .isDirectory
      | some (.file content) => .ok content

def readText (t : FileTree) (p : Path) : Except DiskFault String := do
  let content ← t.read p
  match String.fromUTF8? content with
  | some text => .ok text
  | none => .error .notText

def isDirectory (t : FileTree) (p : Path) : Bool :=
  match t.resolve p with
  | .ok (_, none) => true
  | .ok (trail, some name) =>
      match (t.innermost trail).find? name with
      | some (.directory _) => true
      | _ => false
  | .error _ => false

def put (t : FileTree) (trail : Trail) (name : String) (node : Node) : FileTree :=
  { t with root := t.root.change (·.put name node) trail.names }

def makeDirectory (t : FileTree) (p : Path) : Except DiskFault FileTree := do
  match ← t.resolve p with
  | (_, none) => .error .alreadyExists
  | (trail, some name) =>
      match (t.innermost trail).find? name with
      | none => .ok (t.put trail name (.directory .nil))
      | some _ => .error .alreadyExists

def write (t : FileTree) (p : Path) (content : ByteArray) : Except DiskFault FileTree := do
  match ← t.resolve p with
  | (_, none) => .error .isDirectory
  | (trail, some name) =>
      match (t.innermost trail).find? name with
      | some (.directory _) => .error .isDirectory
      | _ => .ok (t.put trail name (.file content))

def change (operation : FileTree → Except DiskFault FileTree) :
    StateM FileTree (Except DiskFault Unit) := fun t =>
  match operation t with
  | .ok t => (.ok (), t)
  | .error fault => (.error fault, t)

def disk : Disk (StateM FileTree) where
  readText p := do return (← get).readText p
  isDirectory p := do return (← get).isDirectory p
  makeDirectory p := change (·.makeDirectory p)
  writeText p text := change (·.write p text.toUTF8)

end FileTree

end ViewBinding
