import Mathlib.Data.List.DropRight
import ViewBinding.Proofs.Outline

namespace ViewBinding.Proofs.Ending

open Java Outline

inductive Step where
  | write (s : String)
  | newline
  | indent (level : Nat)
  | space

def Step.text : Step → List Char
  | .write s => s.toList
  | .newline => ['\n']
  | .indent level => List.replicate (4 * level) ' '
  | .space => [' ']

def Step.run (p : Page) : Step → Page
  | .write s => p.write s
  | .newline => p.newline
  | .indent level => p.indent level
  | .space => p.space

def page (steps : List Step) : Page := steps.foldl Step.run .empty

/-- The text of a page after its end is tidied. -/
def tidied (steps : List Step) : List Char := (page steps).trim.endLine.text

theorem text_run (p : Page) (s : Step) : (s.run p).text = p.text ++ s.text := by
  cases s <;> exact Page.text_append p _

theorem text_page (steps : List Step) : (page steps).text = steps.flatMap Step.text := by
  induction steps using List.reverseRecOn with
  | nil => rfl
  | append_singleton steps s ih =>
      rw [page, List.foldl_append, List.foldl_cons, List.foldl_nil, ← page, text_run, ih,
        List.flatMap_append, List.flatMap_singleton]

theorem reversed_tidied (s : List Char) :
    (Page.trim ⟨s⟩).endLine.reversed = '\n' :: s.dropWhile (· = '\n') := by
  rw [Page.trim]
  fun_induction Page.trimReversed s with
  | case1 r ih => simpa using ih
  | case2 r => rfl
  | case3 s hfeeds _ =>
      -- nothing is taken off, so there is at most one line feed
      cases s with
      | nil => rfl
      | cons c r =>
          by_cases hc : c = '\n'
          · subst hc
            have hone : r.dropWhile (· = '\n') = r := by
              cases r with
              | nil => rfl
              | cons d r =>
                  have hd : d ≠ '\n' := fun hd => hfeeds r (congrArg ('\n' :: · :: r) hd)
                  exact List.dropWhile_cons_of_neg (by simpa using hd)
            simp [Page.endLine, hone]
          · simp [Page.endLine, Page.newline, Page.append, hc]

theorem tidied_eq (steps : List Step) :
    tidied steps = (steps.flatMap Step.text).rdropWhile (· = '\n') ++ ['\n'] := by
  rw [← text_page, tidied, Page.text, reversed_tidied, List.reverse_cons, Page.text, List.rdropWhile,
    List.reverse_reverse]

/-- Only spaces and line feeds are lost, and one line feed is written again, behind something else. -/
def Tidy (before after : List Char) : Prop :=
  ∃ kept lost, before = kept ++ lost ∧ (∀ c ∈ lost, c = ' ' ∨ c = '\n') ∧ after = kept ++ ['\n'] ∧
    kept.getLast? ≠ some ' ' ∧ kept.getLast? ≠ some '\n'

theorem tidy_iff {before kept feeds : List Char} (hbefore : before = kept ++ feeds)
    (hfeeds : ∀ c ∈ feeds, c = '\n') (hkept : kept.getLast? ≠ some '\n') :
    Tidy before (kept ++ ['\n']) ↔ kept.getLast? ≠ some ' ' := by
  constructor
  · rintro ⟨kept', lost, -, -, hafter, hspace, -⟩
    rwa [List.append_cancel_right hafter]
  · intro hspace
    exact ⟨kept, feeds, hbefore, fun c hc => .inr (hfeeds c hc), rfl, hspace, hkept⟩

theorem getLast?_rdropWhile (s : List Char) :
    (s.rdropWhile (· = '\n')).getLast? ≠ some '\n' := by
  intro hlast
  have hne : s.rdropWhile (· = '\n') ≠ [] := by
    rintro hnil
    rw [hnil] at hlast
    cases hlast
  rw [List.getLast?_eq_some_getLast hne] at hlast
  exact List.rdropWhile_last_not _ _ hne (decide_eq_true (Option.some.inj hlast))

theorem tidy_render (f : SourceFile) : Tidy (untidied f).text f.render.toList := by
  obtain ⟨p, hp⟩ := untidied_closed f
  have htext : (untidied f).text = (p.text ++ ['\x7d']) ++ ['\n'] := by
    rw [hp, Page.newline, Page.text_append, Page.write, Page.text_append]
    rfl
  have hrender : f.render.toList = (untidied f).text := by
    rw [render_untidied, Page.toString, String.toList_ofList]
  rw [hrender, htext, tidy_iff rfl (by simp) (by simp)]
  simp

/-- Whatever is written on a page, tidying takes line feeds and nothing else off the end of the text, all of
them, and writes one again. The end is then as it should be exactly if the text without its last line
feeds does not end in a space; so it is in every source file, which ends in a brace. -/
theorem tidied_drops_feeds (steps : List Step) (f : SourceFile) :
    (∃ kept feeds, steps.flatMap Step.text = kept ++ feeds ∧ (∀ c ∈ feeds, c = '\n') ∧
      kept.getLast? ≠ some '\n' ∧ tidied steps = kept ++ ['\n'] ∧
      (Tidy (steps.flatMap Step.text) (tidied steps) ↔ kept.getLast? ≠ some ' ')) ∧
    Tidy (untidied f).text f.render.toList := by
  refine ⟨?_, tidy_render f⟩
  generalize htext : steps.flatMap Step.text = text
  have hparts : text = text.rdropWhile (· = '\n') ++ text.rtakeWhile (· = '\n') :=
    List.rdropWhile_append_rtakeWhile.symm
  have hfeeds : ∀ c ∈ text.rtakeWhile (· = '\n'), c = '\n' := fun c hc => by
    simpa using List.mem_rtakeWhile_imp hc
  have hkept := getLast?_rdropWhile text
  have htidied := tidied_eq steps
  rw [htext] at htidied
  refine ⟨_, _, hparts, hfeeds, hkept, htidied, ?_⟩
  rw [htidied]
  exact tidy_iff hparts hfeeds hkept

/-- A space at the end of a line is kept: only the line feed after it is taken off, and written again. -/
theorem tidied_keeps_space :
    tidied [.write "return; ", .newline] = "return; \n".toList ∧
    ¬ Tidy "return; \n".toList (tidied [.write "return; ", .newline]) := by
  have hkeeps : tidied [.write "return; ", .newline] = "return; ".toList ++ ['\n'] := by decide
  have hwritten : "return; \n".toList = "return; ".toList ++ ['\n'] := by decide
  refine ⟨hkeeps, fun htidy => ?_⟩
  rw [hkeeps, tidy_iff hwritten (by simp) (by decide)] at htidy
  exact htidy (by decide)

end ViewBinding.Proofs.Ending
