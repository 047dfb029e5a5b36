import Mathlib.Data.List.Chain
import ViewBinding.Java.CodeBlock

namespace ViewBinding.Proofs.Merging

open Java

def type? : Fragment → Option TypeExpr
  | .text _ => none
  | .type t => some t

def text : Fragment → String
  | .text s => s
  | .type _ => ""

def isType (f : Fragment) : Bool := (type? f).isSome

def types (fs : List Fragment) : List TypeExpr := fs.filterMap type?

/-- The text before the first type, between any two, and after the last. -/
def gaps (fs : List Fragment) : List String :=
  (fs.splitOnP isType).map fun part => String.join (part.map text)

/-- The same types in the same order, with the same text in each gap. -/
def Alike (fs gs : List Fragment) : Prop := types fs = types gs ∧ gaps fs = gaps gs

/-- No text is empty, and no text follows another. -/
structure Canonical (fs : List Fragment) : Prop where
  filled : .text "" ∉ fs
  apart : fs.IsChain fun f g => isType f ∨ isType g

@[simp] theorem gaps_nil : gaps [] = [""] := rfl

@[simp] theorem gaps_type (t : TypeExpr) (fs : List Fragment) : gaps (.type t :: fs) = "" :: gaps fs := rfl

theorem gaps_text (s : String) (fs : List Fragment) :
    gaps (.text s :: fs) = (gaps fs).modifyHead (s ++ ·) := by
  have hsplit : (Fragment.text s :: fs).splitOnP isType =
      (fs.splitOnP isType).modifyHead (.text s :: ·) :=
    List.splitOnP_cons_eq_if_modifyHead _ _
  rw [gaps, gaps, hsplit]
  cases fs.splitOnP isType with
  | nil => rfl
  | cons part parts => simp [String.join_cons, text]

theorem exists_gaps (fs : List Fragment) : ∃ g gs, gaps fs = g :: gs := by
  induction fs with
  | nil => exact ⟨_, _, rfl⟩
  | cons f fs ih =>
      obtain ⟨g, gs, hgaps⟩ := ih
      cases f with
      | text s => exact ⟨_, _, by rw [gaps_text, hgaps, List.modifyHead_cons]⟩
      | type t => exact ⟨_, _, rfl⟩

namespace Alike

theorem refl (fs : List Fragment) : Alike fs fs := ⟨rfl, rfl⟩

theorem symm {fs gs : List Fragment} (h : Alike fs gs) : Alike gs fs := ⟨h.1.symm, h.2.symm⟩

theorem trans {fs gs hs : List Fragment} (h : Alike fs gs) (h' : Alike gs hs) : Alike fs hs :=
  ⟨h.1.trans h'.1, h.2.trans h'.2⟩

theorem cons (f : Fragment) {fs gs : List Fragment} (h : Alike fs gs) : Alike (f :: fs) (f :: gs) := by
  obtain ⟨htypes, hgaps⟩ := h
  refine ⟨?_, ?_⟩
  · rw [types, List.filterMap_cons, ← types, htypes]
    rfl
  · cases f with
    | text s => rw [gaps_text, gaps_text, hgaps]
    | type t => rw [gaps_type, gaps_type, hgaps]

theorem text_empty (fs : List Fragment) : Alike fs (.text "" :: fs) := by
  obtain ⟨g, gs, hgaps⟩ := exists_gaps fs
  exact ⟨rfl, by rw [gaps_text, hgaps, List.modifyHead_cons, String.empty_append]⟩

theorem text_append (s t : String) (fs : List Fragment) :
    Alike (.text (s ++ t) :: fs) (.text s :: .text t :: fs) := by
  obtain ⟨g, gs, hgaps⟩ := exists_gaps fs
  refine ⟨rfl, ?_⟩
  rw [gaps_text, gaps_text, gaps_text, hgaps]
  simp only [List.modifyHead_cons, String.append_assoc]

end Alike

def add (x : Snippet) : Fragment → Snippet
  | .text s => x.text s
  | .type t => x.type t

def snippet (given : List Fragment) : Snippet := given.foldl add .empty

theorem alike_appendText (fs : List Fragment) (s : String) (rest : List Fragment) :
    Alike (Snippet.appendText fs s ++ rest) (fs ++ .text s :: rest) := by
  fun_induction Snippet.appendText fs s with
  | case1 s h =>
      rw [String.isEmpty_iff.mp h]
      exact Alike.text_empty rest
  | case2 s h => exact Alike.refl _
  | case3 t s => exact Alike.text_append t s rest
  | case4 f fs s h ih => exact ih.cons f

theorem alike_foldl (given : List Fragment) (x : Snippet) :
    Alike (given.foldl add x).fragments (x.fragments ++ given) := by
  induction given generalizing x with
  | nil =>
      rw [List.append_nil]
      exact Alike.refl _
  | cons f given ih =>
      refine (ih (add x f)).trans ?_
      cases f with
      | text s => exact alike_appendText x.fragments s given
      | type t =>
          rw [add, Snippet.type, List.append_assoc]
          exact Alike.refl _

theorem alike_snippet (given : List Fragment) : Alike (snippet given).fragments given :=
  alike_foldl given .empty

theorem snippet_append_singleton (given : List Fragment) (f : Fragment) :
    snippet (given ++ [f]) = add (snippet given) f := List.foldl_append

theorem canonical_nil : Canonical [] := ⟨List.not_mem_nil, .nil⟩

theorem canonical_append_singleton {fs : List Fragment} {f : Fragment} :
    Canonical (fs ++ [f]) ↔
      Canonical fs ∧ f ≠ .text "" ∧ ∀ g ∈ fs.getLast?, isType g ∨ isType f := by
  constructor
  · rintro ⟨hfilled, hapart⟩
    rw [List.mem_append, List.mem_singleton, not_or] at hfilled
    obtain ⟨hleft, -, hmeet⟩ := List.isChain_append.mp hapart
    exact ⟨⟨hfilled.1, hleft⟩, fun hf => hfilled.2 hf.symm, fun g hg => hmeet g hg f rfl⟩
  · rintro ⟨⟨hfilled, hapart⟩, hf, hmeet⟩
    refine ⟨?_, List.isChain_append.mpr ⟨hapart, .singleton f, ?_⟩⟩
    · rw [List.mem_append, List.mem_singleton, not_or]
      exact ⟨hfilled, fun hempty => hf hempty.symm⟩
    · intro g hg k hk
      obtain rfl : f = k := Option.some.inj hk
      exact hmeet g hg

theorem appendText_append (fs : List Fragment) {gs : List Fragment} (h : gs ≠ []) (s : String) :
    Snippet.appendText (fs ++ gs) s = fs ++ Snippet.appendText gs s := by
  induction fs with
  | nil => rfl
  | cons f fs ih =>
      have hmore : fs ++ gs ≠ [] := List.append_ne_nil_of_right_ne_nil fs h
      rw [List.cons_append, Snippet.appendText, ih, List.cons_append]
      exact fun _ _ hnone => hmore hnone

theorem canonical_appendText {fs : List Fragment} (h : Canonical fs) (s : String) :
    Canonical (Snippet.appendText fs s) := by
  rcases List.eq_nil_or_concat fs with rfl | ⟨before, last, rfl⟩
  · rw [Snippet.appendText]
    split
    · exact h
    · next hs => exact canonical_append_singleton.mpr ⟨h, by simpa using hs, nofun⟩
  · rw [List.concat_eq_append] at h ⊢
    rw [appendText_append before (List.cons_ne_nil last []) s]
    cases last with
    | text t =>
        obtain ⟨hbefore, ht, hmeet⟩ := canonical_append_singleton.mp h
        have hmerged : t ++ s ≠ "" := by
          rw [Ne, String.append_eq_empty_iff]
          exact fun hempty => ht (congrArg Fragment.text hempty.1)
        exact canonical_append_singleton.mpr ⟨hbefore, by simpa using hmerged, hmeet⟩
    | type t =>
        have hlast : Snippet.appendText [.type t] s = [.type t] ++ if s.isEmpty then [] else [.text s] := rfl
        rw [hlast, ← List.append_assoc]
        split
        · rwa [List.append_nil]
        · next hs =>
            refine canonical_append_singleton.mpr ⟨h, by simpa using hs, fun g hg => .inl ?_⟩
            obtain rfl : Fragment.type t = g := by simpa using hg
            rfl

theorem canonical_add {x : Snippet} (h : Canonical x.fragments) (f : Fragment) :
    Canonical (add x f).fragments := by
  cases f with
  | text s => exact canonical_appendText h s
  | type t => exact canonical_append_singleton.mpr ⟨h, nofun, fun _ _ => .inr rfl⟩

theorem canonical_snippet (given : List Fragment) : Canonical (snippet given).fragments := by
  induction given using List.reverseRecOn with
  | nil => exact canonical_nil
  | append_singleton given f ih =>
      rw [snippet_append_singleton]
      exact canonical_add ih f

theorem Canonical.tail {f : Fragment} {fs : List Fragment} (h : Canonical (f :: fs)) : Canonical fs :=
  ⟨fun hmem => h.filled (List.mem_cons_of_mem _ hmem), h.apart.tail⟩

theorem Canonical.ne_empty {s : String} {fs : List Fragment} (h : Canonical (.text s :: fs)) : s ≠ "" :=
  fun hempty => h.filled (hempty ▸ List.mem_cons_self)

theorem head?_gaps {f : Fragment} {fs : List Fragment} (h : Canonical (f :: fs)) :
    (gaps (f :: fs)).head? = some (text f) := by
  cases f with
  | type t => rfl
  | text s =>
      cases fs with
      | nil => simp [gaps_text, text]
      | cons g fs =>
          cases g with
          | text t => simpa [isType, type?] using h.apart.rel
          | type t => simp [gaps_text, text]

theorem Alike.of_cons {f : Fragment} {fs gs : List Fragment} (h : Alike (f :: fs) (f :: gs)) :
    Alike fs gs := by
  obtain ⟨htypes, hgaps⟩ := h
  cases f with
  | type t => exact ⟨(List.cons.inj htypes).2, (List.cons.inj hgaps).2⟩
  | text s =>
      obtain ⟨g, gaps₁, hfs⟩ := exists_gaps fs
      obtain ⟨k, gaps₂, hgs⟩ := exists_gaps gs
      rw [gaps_text, gaps_text, hfs, hgs, List.modifyHead_cons, List.modifyHead_cons] at hgaps
      obtain ⟨hhead, htail⟩ := List.cons.inj hgaps
      refine ⟨htypes, ?_⟩
      rw [hfs, hgs, htail, String.append_right_inj s |>.mp hhead]

theorem Alike.head_eq {f g : Fragment} {fs gs : List Fragment} (hf : Canonical (f :: fs))
    (hg : Canonical (g :: gs)) (h : Alike (f :: fs) (g :: gs)) : f = g := by
  have htext : text f = text g := by
    have hhead := congrArg List.head? h.2
    rw [head?_gaps hf, head?_gaps hg] at hhead
    exact Option.some.inj hhead
  cases f <;> cases g
  case text.text s t => exact congrArg Fragment.text htext
  case text.type s t => exact absurd htext hf.ne_empty
  case type.text t s => exact absurd htext.symm hg.ne_empty
  case type.type t u => exact congrArg Fragment.type (List.cons.inj h.1).1

theorem not_alike_nil {f : Fragment} {fs : List Fragment} (hf : Canonical (f :: fs)) :
    ¬ Alike [] (f :: fs) := by
  rintro ⟨htypes, hgaps⟩
  cases f with
  | type t => cases htypes
  | text s =>
      have hhead := congrArg List.head? hgaps
      rw [head?_gaps hf] at hhead
      exact hf.ne_empty (Option.some.inj hhead).symm

theorem eq_of_alike {fs gs : List Fragment} (hfs : Canonical fs) (hgs : Canonical gs)
    (h : Alike fs gs) : fs = gs := by
  induction fs generalizing gs with
  | nil =>
      cases gs with
      | nil => rfl
      | cons g gs => exact absurd h (not_alike_nil hgs)
  | cons f fs ih =>
      cases gs with
      | nil => exact absurd h.symm (not_alike_nil hfs)
      | cons g gs =>
          obtain rfl := Alike.head_eq hfs hgs h
          rw [ih hfs.tail hgs.tail h.of_cons]

theorem snippet_eq_iff {given other : List Fragment} :
    snippet given = snippet other ↔ Alike given other := by
  constructor
  · intro h
    have hgiven := (alike_snippet given).symm
    rw [h] at hgiven
    exact hgiven.trans (alike_snippet other)
  · intro h
    have hsame := ((alike_snippet given).trans h).trans (alike_snippet other).symm
    exact congrArg Snippet.mk (eq_of_alike (canonical_snippet given) (canonical_snippet other) hsame)

/-- However a snippet is put together, none of its texts is empty and none follows another, its types are
those given, in this order, and in each gap it has the texts given there, joined. Two snippets are equal
exactly if the same types are given with the same text in each gap. The line of a statement, or of an
opening, holds a snippet of this form too, with the end of the line in its last gap. -/
theorem snippet_canonical (given : List Fragment) :
    Canonical (snippet given).fragments ∧ Alike (snippet given).fragments given ∧
    (∀ other, snippet given = snippet other ↔ types given = types other ∧ gaps given = gaps other) ∧
    ∀ code : CodeBlock,
      (∃ x, (code.statement (snippet given)).lines = code.lines.push ⟨code.depth, x⟩ ∧
        Canonical x.fragments ∧ Alike x.fragments (given ++ [.text ";"])) ∧
      ∃ x, (code.opening (snippet given)).lines = code.lines.push ⟨code.depth, x⟩ ∧
        Canonical x.fragments ∧ Alike x.fragments (given ++ [.text " \x7b"]) := by
  have hended (s : String) : Canonical ((snippet given).text s).fragments ∧
      Alike ((snippet given).text s).fragments (given ++ [.text s]) := by
    have hadd : (snippet given).text s = snippet (given ++ [.text s]) :=
      (snippet_append_singleton given (.text s)).symm
    rw [hadd]
    exact ⟨canonical_snippet _, alike_snippet _⟩
  refine ⟨canonical_snippet given, alike_snippet given, fun other => snippet_eq_iff, fun code => ⟨?_, ?_⟩⟩
  · exact ⟨_, rfl, hended ";"⟩
  · exact ⟨_, rfl, hended " \x7b"⟩

end ViewBinding.Proofs.Merging
