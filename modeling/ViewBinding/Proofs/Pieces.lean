import Mathlib.Data.List.Basic
import ViewBinding.ClassName
import ViewBinding.Text.Segments

namespace ViewBinding.Proofs.Pieces

open Text

/-- A text for each way to write classes. -/
abbrev Wording := (ClassName → String) → String

inductive Piece where
  | text (s : String)
  | name (c : ClassName)

namespace Piece

def write (name : ClassName → String) : Piece → String
  | .text s => s
  | .name c => name c

def class? : Piece → Option ClassName
  | .text _ => none
  | .name c => some c

end Piece

def wording (ps : List Piece) : Wording := fun name => String.join (ps.map (Piece.write name))

def mentioned (ps : List Piece) : List ClassName := ps.filterMap Piece.class?

def fixed : List Piece → Nat
  | [] => 0
  | .text s :: ps => s.length + fixed ps
  | .name _ :: ps => fixed ps

section Cons

variable (s : String) (c : ClassName) (ps : List Piece) (name : ClassName → String)

@[simp] theorem wording_nil : wording [] name = "" := rfl

@[simp] theorem wording_text_cons : wording (.text s :: ps) name = s ++ wording ps name := by
  rw [wording, List.map_cons, String.join_cons, wording, Piece.write]

@[simp] theorem wording_name_cons : wording (.name c :: ps) name = name c ++ wording ps name := by
  rw [wording, List.map_cons, String.join_cons, wording, Piece.write]

@[simp] theorem mentioned_text_cons : mentioned (.text s :: ps) = mentioned ps := rfl

@[simp] theorem mentioned_name_cons : mentioned (.name c :: ps) = c :: mentioned ps := rfl

@[simp] theorem fixed_text_cons : fixed (.text s :: ps) = s.length + fixed ps := rfl

@[simp] theorem fixed_name_cons : fixed (.name c :: ps) = fixed ps := rfl

end Cons

/-- The wording has these classes in it, in reading order, and nothing else that depends on how classes
are written. -/
def Mentions (r : Wording) (cs : List ClassName) : Prop := ∃ ps, mentioned ps = cs ∧ r = wording ps

section Parts

variable {r r' : Wording} {cs cs' : List ClassName}

theorem wording_append (ps qs : List Piece) (name : ClassName → String) :
    wording (ps ++ qs) name = wording ps name ++ wording qs name := by
  rw [wording, List.map_append, String.join_append, wording, wording]

theorem mentioned_append (ps qs : List Piece) : mentioned (ps ++ qs) = mentioned ps ++ mentioned qs :=
  List.filterMap_append

theorem mentions_text (s : String) : Mentions (fun _ => s) [] := by
  refine ⟨[.text s], rfl, ?_⟩
  funext name
  rw [wording_text_cons, wording_nil, String.append_empty]

theorem mentions_name (c : ClassName) : Mentions (fun name => name c) [c] := by
  refine ⟨[.name c], rfl, ?_⟩
  funext name
  rw [wording_name_cons, wording_nil, String.append_empty]

theorem Mentions.append (h : Mentions r cs) (h' : Mentions r' cs') :
    Mentions (fun name => r name ++ r' name) (cs ++ cs') := by
  obtain ⟨ps, rfl, rfl⟩ := h
  obtain ⟨qs, rfl, rfl⟩ := h'
  refine ⟨ps ++ qs, mentioned_append ps qs, ?_⟩
  funext name
  rw [wording_append]

theorem Mentions.append_text (h : Mentions r cs) (s : String) : Mentions (fun name => r name ++ s) cs := by
  have happend := h.append (mentions_text s)
  rwa [List.append_nil] at happend

variable {α : Type} {word : α → Wording} {classesOf : α → List ClassName}

theorem mentions_join (h : ∀ a, Mentions (word a) (classesOf a)) (as : List α) :
    Mentions (fun name => String.join (as.map fun a => word a name)) (as.flatMap classesOf) := by
  induction as with
  | nil => exact mentions_text ""
  | cons a as ih =>
      simp only [List.map_cons, String.join_cons, List.flatMap_cons]
      exact (h a).append ih

end Parts

section Reading

variable {name : ClassName → String} {k : Nat} (hname : ∀ c, (name c).length = k)

include hname

theorem length_wording (ps : List Piece) :
    (wording ps name).length = fixed ps + k * (mentioned ps).length := by
  induction ps with
  | nil => rfl
  | cons p ps ih =>
      cases p with
      | text s =>
          rw [wording_text_cons, String.length_append, ih, fixed_text_cons, mentioned_text_cons, Nat.add_assoc]
      | name c =>
          rw [wording_name_cons, String.length_append, ih, hname, fixed_name_cons, mentioned_name_cons,
            List.length_cons, Nat.mul_succ]
          omega

theorem exists_place {ps : List Piece} {before after : List ClassName} {c : ClassName}
    (h : mentioned ps = before ++ c :: after) :
    ∃ s t, (wording ps name).toList = s ++ (name c).toList ++ t ∧ k * before.length ≤ s.length ∧
      s.length ≤ fixed ps + k * before.length := by
  -- over the pieces: a text leaves the classes before the place as they are, a class is one of them
  induction ps generalizing before with
  | nil => cases before <;> cases h
  | cons p ps ih =>
      cases p with
      | text w =>
          obtain ⟨s, t, htext, hlow, hhigh⟩ := ih h
          refine ⟨w.toList ++ s, t, ?_, ?_, ?_⟩
          · rw [wording_text_cons, String.toList_append, htext, List.append_assoc, List.append_assoc,
              List.append_assoc]
          · rw [List.length_append]
            omega
          · rw [List.length_append, String.length_toList, fixed_text_cons]
            omega
      | name d =>
          cases before with
          | nil =>
              obtain ⟨rfl, -⟩ := List.cons.inj h
              exact ⟨[], (wording ps name).toList, by simp, Nat.le_refl _, Nat.zero_le _⟩
          | cons b before =>
              obtain ⟨rfl, hrest⟩ := List.cons.inj h
              obtain ⟨s, t, htext, hlow, hhigh⟩ := ih hrest
              have hd := hname d
              refine ⟨(name d).toList ++ s, t, ?_, ?_, ?_⟩
              · rw [wording_name_cons, String.toList_append, htext, List.append_assoc, List.append_assoc,
                  List.append_assoc]
              · rw [List.length_append, String.length_toList, List.length_cons, Nat.mul_succ]
                omega
              · rw [List.length_append, String.length_toList, List.length_cons, Nat.mul_succ,
                  fixed_name_cons]
                omega

end Reading

/-- Two long blocks that start near to each other in one text are of one letter. -/
theorem eq_of_blocks {x y : Char} {k : Nat} {s t s' t' : List Char}
    (h : s ++ List.replicate k x ++ t = s' ++ List.replicate k y ++ t')
    (hs : s.length < s'.length + k) (hs' : s'.length < s.length + k) : x = y := by
  have hinside {z : Char} {u v : List Char} {i : Nat} (hlow : u.length ≤ i) (hhigh : i < u.length + k) :
      (u ++ List.replicate k z ++ v)[i]? = some z := by
    rw [List.append_assoc, List.getElem?_append_right hlow,
      List.getElem?_append_left (by rw [List.length_replicate]; omega), List.getElem?_replicate,
      if_pos (by omega)]
  have hplace := congrArg (fun w : List Char => w[max s.length s'.length]?) h
  rw [hinside (Nat.le_max_left _ _) (by omega), hinside (Nat.le_max_right _ _) (by omega)] at hplace
  exact Option.some.inj hplace

theorem length_block (k : Nat) (a : Char) : (String.ofList (List.replicate k a)).length = k := by
  rw [String.length_ofList, List.length_replicate]

theorem Mentions.unique {r : Wording} {cs cs' : List ClassName} (h : Mentions r cs) (h' : Mentions r cs') :
    cs = cs' := by
  obtain ⟨ps, rfl, rfl⟩ := h
  obtain ⟨qs, rfl, heq⟩ := h'
  -- blocks longer than all that is fixed, so that the same places are seen in both readings
  obtain ⟨k, hk⟩ : ∃ k, k = fixed ps + fixed qs + 1 := ⟨_, rfl⟩
  have hcount : (mentioned ps).length = (mentioned qs).length := by
    have hblock : ∀ _ : ClassName, (String.ofList (List.replicate k 'x')).length = k :=
      fun _ => length_block k 'x'
    have htotal := length_wording hblock ps
    rw [heq, length_wording hblock qs] at htotal
    have hquotient := congrArg (· / k) htotal
    rw [Nat.add_mul_div_left _ _ (by omega), Nat.add_mul_div_left _ _ (by omega),
      Nat.div_eq_of_lt (by omega), Nat.div_eq_of_lt (by omega), Nat.zero_add, Nat.zero_add] at hquotient
    exact hquotient.symm
  refine List.ext_getElem hcount fun i hi hi' => ?_
  have hsplit {l : List ClassName} (hl : i < l.length) : l = l.take i ++ l[i] :: l.drop (i + 1) := by
    rw [List.getElem_cons_drop, List.take_append_drop]
  let letter (d : ClassName) : Char := if d = (mentioned ps)[i] then 'x' else 'y'
  have hblock (d : ClassName) : (String.ofList (List.replicate k (letter d))).length = k :=
    length_block k (letter d)
  obtain ⟨s, t, htext, hlow, hhigh⟩ := exists_place hblock (hsplit hi)
  obtain ⟨s', t', htext', hlow', hhigh'⟩ := exists_place hblock (hsplit hi')
  rw [heq, htext', String.toList_ofList, String.toList_ofList] at htext
  rw [List.length_take, Nat.min_eq_left (Nat.le_of_lt hi)] at hlow hhigh
  rw [List.length_take, Nat.min_eq_left (Nat.le_of_lt hi')] at hlow' hhigh'
  have hletter : letter (mentioned qs)[i] = letter (mentioned ps)[i] :=
    eq_of_blocks htext (by omega) (by omega)
  by_contra hne
  simp [letter, Ne.symm hne] at hletter

end ViewBinding.Proofs.Pieces
