namespace ViewBinding.Java

/-- Kept from the end on, where it grows. -/
structure Page where
  reversed : List Char
  deriving DecidableEq, Repr

namespace Page

def text (p : Page) : List Char := p.reversed.reverse

def empty : Page := ⟨[]⟩

def append (p : Page) (s : List Char) : Page := ⟨s.reverse ++ p.reversed⟩

def write (p : Page) (s : String) : Page := p.append s.toList

def newline (p : Page) : Page := p.append ['\n']

def space (p : Page) : Page := p.append [' ']

def indent (p : Page) (level : Nat) : Page := p.append (List.replicate (4 * level) ' ')

def endLine (p : Page) : Page := if p.reversed.head? = some '\n' then p else p.newline

/-- Takes line feeds off the end of a text given from its end, as long as a line feed or a space
comes before them. -/
def trimReversed : List Char → List Char
  | '\n' :: '\n' :: r => trimReversed ('\n' :: r)
  | '\n' :: ' ' :: r => ' ' :: r
  | s => s

def trim (p : Page) : Page := ⟨trimReversed p.reversed⟩

def toString (p : Page) : String := String.ofList p.text

@[simp] theorem text_empty : empty.text = [] := rfl

@[simp] theorem text_append (p : Page) (s : List Char) : (p.append s).text = p.text ++ s := by
  simp [append, text]

theorem text_foldl (ls : List String) (p : Page) :
    (ls.foldl (fun p line => (p.write line).newline) p).text =
      p.text ++ (String.join (ls.map (· ++ "\n"))).toList := by
  induction ls generalizing p with
  | nil => exact (List.append_nil _).symm
  | cons l ls ih =>
      rw [List.foldl_cons, ih, List.map_cons, String.join_cons, String.toList_append, String.toList_append,
        newline, text_append, write, text_append, List.append_assoc, List.append_assoc, List.append_assoc]
      rfl

theorem trim_closed (p : Page) : ((p.write "\x7d").newline).trim = (p.write "\x7d").newline := rfl

theorem endLine_newline (p : Page) : p.newline.endLine = p.newline := rfl

end Page

end ViewBinding.Java
