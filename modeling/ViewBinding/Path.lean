import ViewBinding.Text.Segments

namespace ViewBinding

open Text

/-- A path is shown as it was put together; two are the `same` when their components are. -/
structure Path where
  text : String
  deriving DecidableEq, Repr

namespace Path

inductive Component where
  | root
  | current
  | parent
  | name (s : String)
  deriving DecidableEq, Repr

namespace Component

def rank : Component → Nat
  | .root => 0
  | .current => 1
  | .parent => 2
  | .name _ => 3

def compare : Component → Component → Ordering
  | .name s, .name t => compareOfLessAndEq s t
  | a, b => compareOfLessAndEq a.rank b.rank

end Component

def ofPiece : List Char → Option Component
  | [] => none
  | ['.'] => none
  | ['.', '.'] => some .parent
  | w => some (.name (String.ofList w))

/-- The pieces between slashes. Empty pieces and single dots are left out, but for a dot or a slash
at the start. -/
def components (p : Path) : List Component :=
  let pieces := cut '/' p.text.toList
  let start := match pieces with
    | [] :: _ :: _ => [Component.root]
    | ['.'] :: _ => [Component.current]
    | _ => []
  start ++ pieces.filterMap ofPiece

def same (p q : Path) : Bool := p.components = q.components

def compareComponents : List Component → List Component → Ordering
  | [], [] => .eq
  | [], _ :: _ => .lt
  | _ :: _, [] => .gt
  | a :: as, b :: bs => (a.compare b).then (compareComponents as bs)

def compare (p q : Path) : Ordering := compareComponents p.components q.components

/-- Goes on from a path; a text that starts with a slash starts anew. -/
def push (p : Path) (s : String) : Path :=
  if s.startsWith '/' then ⟨s⟩
  else if p.text.isEmpty || p.text.endsWith '/' then ⟨p.text ++ s⟩
  else ⟨p.text ++ "/" ++ s⟩

def isIdle (w : List Char) : Bool := w = [] || w = ['.']

/-- The paths that the given pieces end in, from the last piece on. No first piece is the root. -/
def endingAt : List (List Char) → List Path
  | [] => []
  | [[]] => [⟨"/"⟩]
  | [w] => [⟨String.ofList w⟩]
  | w :: ws =>
      if isIdle w then endingAt ws
      else ⟨String.ofList (glue ['/'] (w :: ws).reverse)⟩ :: endingAt ws

def ancestry (p : Path) : List Path :=
  if p.text.isEmpty then [] else endingAt (cut '/' p.text.toList).reverse

def join (p q : Path) : Path := p.push q.text

instance : ToString Path := ⟨text⟩

end Path

end ViewBinding
