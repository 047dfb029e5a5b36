import ViewBinding.Java.TypeExpr

namespace ViewBinding.Java

inductive Fragment where
  | text (s : String)
  | type (t : TypeExpr)
  deriving BEq, Repr

namespace Fragment

def classes : Fragment → List ClassName
  | .text _ => []
  | .type t => t.classes

def write (name : ClassName → String) : Fragment → String
  | .text s => s
  | .type t => t.write name

end Fragment

/-- Pieces of one line. Texts that meet become one, and empty texts vanish, so that equal code is equal
as data. -/
structure Snippet where
  fragments : List Fragment
  deriving BEq, Repr

namespace Snippet

def empty : Snippet := ⟨[]⟩

def appendText : List Fragment → String → List Fragment
  | [], s => if s.isEmpty then [] else [.text s]
  | [.text t], s => [.text (t ++ s)]
  | f :: fs, s => f :: appendText fs s

def text (x : Snippet) (s : String) : Snippet := ⟨appendText x.fragments s⟩

def type (x : Snippet) (t : TypeExpr) : Snippet := ⟨x.fragments ++ [.type t]⟩

def cls (x : Snippet) (c : ClassName) : Snippet := x.type (.ofClass c)

def ofText (s : String) : Snippet := empty.text s

instance : Coe String Snippet := ⟨ofText⟩

def isEmpty (x : Snippet) : Bool := x.fragments.isEmpty

def classes (x : Snippet) : List ClassName := x.fragments.flatMap Fragment.classes

def write (name : ClassName → String) (x : Snippet) : String :=
  String.join (x.fragments.map (Fragment.write name))

theorem write_appendText (name : ClassName → String) (fs : List Fragment) (s : String) :
    String.join ((appendText fs s).map (Fragment.write name)) =
      String.join (fs.map (Fragment.write name)) ++ s := by
  fun_induction appendText fs s with
  | case1 s h => simp [String.isEmpty_iff.mp h]
  | case2 s h => simp [Fragment.write]
  | case3 t s => simp [Fragment.write]
  | case4 f fs s h ih => simp [String.join_cons, ih, String.append_assoc]

theorem classes_appendText (fs : List Fragment) (s : String) :
    (appendText fs s).flatMap Fragment.classes = fs.flatMap Fragment.classes := by
  fun_induction appendText fs s with
  | case1 s h => rfl
  | case2 s h => rfl
  | case3 t s => rfl
  | case4 f fs s h ih => rw [List.flatMap_cons, List.flatMap_cons, ih]

section Parts

variable (name : ClassName → String) (x : Snippet)

@[simp] theorem write_text (s : String) : (x.text s).write name = x.write name ++ s :=
  write_appendText name x.fragments s

@[simp] theorem write_type (t : TypeExpr) : (x.type t).write name = x.write name ++ t.write name := by
  simp [write, type, Fragment.write]

@[simp] theorem write_cls (c : ClassName) : (x.cls c).write name = x.write name ++ name c :=
  write_type name x (.ofClass c)

@[simp] theorem write_ofText (s : String) : (ofText s).write name = s := by
  rw [ofText, write_text]
  rfl

@[simp] theorem classes_text (s : String) : (x.text s).classes = x.classes :=
  classes_appendText x.fragments s

@[simp] theorem classes_type (t : TypeExpr) : (x.type t).classes = x.classes ++ t.classes := by
  simp [classes, type, Fragment.classes]

@[simp] theorem classes_cls (c : ClassName) : (x.cls c).classes = x.classes ++ [c] :=
  classes_type x (.ofClass c)

@[simp] theorem classes_ofText (s : String) : (ofText s).classes = [] := classes_text empty s

end Parts

end Snippet

end ViewBinding.Java
