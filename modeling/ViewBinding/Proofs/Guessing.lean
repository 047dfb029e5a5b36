import ViewBinding.Proofs.Reading

namespace ViewBinding.Proofs.Guessing

open Text ClassName Reading

variable {text : String}

def Blank (text : String) : Prop := ∀ a ∈ text.toList, isBlank a = true

theorem isEmpty_trimmed_iff : (trimmed text).isEmpty = true ↔ Blank text := by
  rw [String.isEmpty_iff, ← String.toList_eq_nil_iff, toList_trimmed]
  constructor
  · intro h
    obtain ⟨before, after, hbefore, hafter, htext⟩ := exists_blank_around text.toList
    rw [h, List.append_nil] at htext
    rw [Blank, htext]
    exact List.forall_mem_append.mpr ⟨hbefore, hafter⟩
  · intro h
    rw [trim, trimStart, List.dropWhile_eq_nil_iff.mpr h]
    rfl

theorem mem_trimmed {a : Char} (ha : isBlank a = false) :
    a ∈ (trimmed text).toList ↔ a ∈ text.toList := by
  obtain ⟨before, after, hbefore, hafter, htext⟩ := exists_blank_around text.toList
  have hnot {s : List Char} (hs : ∀ c ∈ s, isBlank c = true) : a ∉ s := by
    intro hm
    rw [hs a hm] at ha
    cases ha
  rw [toList_trimmed]
  conv_rhs => rw [htext]
  simp [hnot hbefore, hnot hafter]

theorem contains_angle_iff : (trimmed text).toList.contains '<' = true ↔ '<' ∈ text.toList := by
  rw [List.contains_iff_mem, mem_trimmed (by decide)]

theorem plain_of_identifiers (h : ∀ s ∈ split '.' (trimmed text), isIdentifier s.toList = true) :
    ¬ Blank text ∧ '<' ∉ text.toList := by
  have hjoin := join_split (trimmed text)
  constructor
  · rw [← isEmpty_trimmed_iff, ← hjoin, String.isEmpty_iff]
    exact join_ne_empty (split_ne_nil '.' _) h
  · rw [← mem_trimmed (by decide), ← hjoin]
    intro hm
    rcases continues_or_dot h _ hm with hdot | hcontinues
    · exact absurd hdot (by decide)
    · exact absurd hcontinues (by decide +kernel)

/-- The answer to a text: its first fault, or the class in it. -/
inductive Answer (text : String) : Except NameError ClassName → Prop
  | empty (h : Blank text) : Answer text (.error .empty)
  | generic (h : ¬ Blank text) (hangle : '<' ∈ text.toList) :
      Answer text (.error (.generic (trimmed text)))
  | badSegment {before after : List String} {bad : String} (h : ¬ Blank text)
      (hangle : '<' ∉ text.toList) (hsplit : split '.' (trimmed text) = before ++ bad :: after)
      (hbefore : ∀ s ∈ before, isIdentifier s.toList = true)
      (hbad : isIdentifier bad.toList = false) :
      Answer text (.error (.invalidIdentifier (trimmed text) bad))
  | noClass (hidentifiers : ∀ s ∈ split '.' (trimmed text), isIdentifier s.toList = true)
      (hlower : ∀ s ∈ split '.' (trimmed text), startsUpper s = false) :
      Answer text (.error (.noClassSegment (trimmed text)))
  | named {c : ClassName} (hc : Conventional c)
      (hsplit : split '.' (trimmed text) = segments c.package ++ c.names) : Answer text (.ok c)

theorem answer_guess (text : String) : Answer text (guess text) := by
  cases hguess : guess text with
  | ok c =>
      obtain ⟨hsplit, hc⟩ := guess_eq_ok hguess
      exact .named hc hsplit
  | error fault =>
      rw [guess] at hguess
      split at hguess
      · next hempty =>
          cases hguess
          exact .empty (isEmpty_trimmed_iff.mp hempty)
      next hempty =>
      rw [isEmpty_trimmed_iff] at hempty
      split at hguess
      · next hangle =>
          cases hguess
          exact .generic hempty (contains_angle_iff.mp hangle)
      next hangle =>
      rw [contains_angle_iff] at hangle
      split at hguess
      · next bad hfind =>
          cases hguess
          obtain ⟨hbad, before, after, hsplit, hbefore⟩ := List.find?_eq_some_iff_append.mp hfind
          exact .badSegment hempty hangle hsplit (by simpa using hbefore) (by simpa using hbad)
      next hfind =>
      split at hguess
      · next hdrop =>
          cases hguess
          exact .noClass (by simpa using hfind) (by simpa using List.dropWhile_eq_nil_iff.mp hdrop)
      · cases hguess

theorem Answer.guess_eq {answer : Except NameError ClassName} (h : Answer text answer) :
    guess text = answer := by
  cases h with
  | empty h => rw [guess, if_pos (isEmpty_trimmed_iff.mpr h)]
  | generic h hangle =>
      rw [guess, if_neg (isEmpty_trimmed_iff.not.mpr h), if_pos (contains_angle_iff.mpr hangle)]
  | badSegment h hangle hsplit hbefore hbad =>
      have hfind : (split '.' (trimmed text)).find? (fun s => !isIdentifier s.toList) = some _ :=
        List.find?_eq_some_iff_append.mpr
          ⟨by simpa using hbad, _, _, hsplit, by simpa using hbefore⟩
      rw [guess, if_neg (isEmpty_trimmed_iff.not.mpr h), if_neg (contains_angle_iff.not.mpr hangle)]
      simp only [hfind]
  | noClass hidentifiers hlower =>
      obtain ⟨h, hangle⟩ := plain_of_identifiers hidentifiers
      have hfind : (split '.' (trimmed text)).find? (fun s => !isIdentifier s.toList) = none :=
        List.find?_eq_none.mpr fun s hs => by simp [hidentifiers s hs]
      have hdrop : (split '.' (trimmed text)).dropWhile (fun s => !startsUpper s) = [] :=
        List.dropWhile_eq_nil_iff.mpr fun s hs => by simp [hlower s hs]
      rw [guess, if_neg (isEmpty_trimmed_iff.not.mpr h), if_neg (contains_angle_iff.not.mpr hangle)]
      simp only [hfind, hdrop]
  | named hc hsplit => exact hc.guess_of_split hsplit

theorem guess_eq_iff {answer : Except NameError ClassName} :
    guess text = answer ↔ Answer text answer :=
  ⟨fun h => h ▸ answer_guess text, Answer.guess_eq⟩

theorem guess_eq_empty_iff : guess text = .error .empty ↔ Blank text := by
  rw [guess_eq_iff]
  constructor
  · rintro ⟨h⟩
    exact h
  · exact .empty

theorem exists_guess_iff : (∃ c, guess text = .ok c) ↔
    (∀ s ∈ split '.' (trimmed text), isIdentifier s.toList = true) ∧
      ∃ s ∈ split '.' (trimmed text), startsUpper s = true := by
  constructor
  · rintro ⟨c, h⟩
    obtain ⟨hsplit, hc⟩ := guess_eq_ok h
    rw [hsplit]
    exact ⟨hc.identifiers, c.outermost, List.mem_append_right _ List.mem_cons_self, hc.upper⟩
  · rintro ⟨hidentifiers, s, hs, hupper⟩
    obtain ⟨hblank, hangle⟩ := plain_of_identifiers hidentifiers
    have hanswer := answer_guess text
    generalize guess text = answer at hanswer ⊢
    cases hanswer with
    | named => exact ⟨_, rfl⟩
    | empty h => exact absurd h hblank
    | generic _ h => exact absurd h hangle
    | badSegment _ _ hsplit _ hbad =>
        rw [hidentifiers _ (hsplit ▸ List.mem_append_right _ List.mem_cons_self)] at hbad
        cases hbad
    | noClass _ hlower =>
        rw [hlower s hs] at hupper
        cases hupper

/-- A text is read as a class exactly if it consists of identifiers, with dots between them and white
space around, and one of them starts with a capital. The class is named by the first such identifier and
those after it, and its package by those before. Then the text is its canonical text, which is read as
that class again. Any other text is answered by its first fault. -/
theorem guess_answers (text : String) :
    (∀ answer, guess text = answer ↔ Answer text answer) ∧
    ((∃ c, guess text = .ok c) ↔
      (∀ s ∈ split '.' (trimmed text), isIdentifier s.toList = true) ∧
        ∃ s ∈ split '.' (trimmed text), startsUpper s = true) ∧
    ∀ c, guess text = .ok c →
      c.canonical = trimmed text ∧ toString c = trimmed text ∧ guess c.canonical = .ok c := by
  refine ⟨fun answer => guess_eq_iff, exists_guess_iff, fun c h => ?_⟩
  exact ⟨canonical_of_guess h, canonical_of_guess h, (guess_eq_ok h).2.guess_canonical⟩

end ViewBinding.Proofs.Guessing
