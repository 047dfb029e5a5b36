import ViewBinding.Proofs.Reading
import ViewBinding.TypeName

namespace ViewBinding.Proofs.TypeText

open Text ViewBinding.TypeName Reading

theorem peel_cons_blank {c : Char} (hc : isBlank c = true) (s : List Char) : peel (c :: s) = peel s := by
  rw [peel]
  · rw [if_pos hc]
  all_goals
    rintro r rfl -
    exact absurd hc (by decide)

theorem peel_blank {b : List Char} (hb : ∀ c ∈ b, isBlank c = true) (s : List Char) :
    peel (b ++ s) = peel s := by
  induction b with
  | nil => rfl
  | cons c b ih =>
      obtain ⟨hc, hb⟩ := List.forall_mem_cons.mp hb
      rw [List.cons_append, peel_cons_blank hc, ih hb]

theorem peel_append_blank (s : List Char) {b : List Char} (hb : ∀ c ∈ b, isBlank c = true) :
    peel (s ++ b) = ((peel s).1, if (peel s).2 = [] then [] else (peel s).2 ++ b) := by
  fun_induction peel s with
  | case1 =>
      have h := peel_blank hb []
      rwa [List.append_nil] at h
  | case2 r ih => simp [peel, ih]
  | case3 r ih => simp [peel, ih]
  | case4 c r _ _ hc ih => rw [List.cons_append, peel_cons_blank hc, ih]
  | case5 c r hlist hdots hc =>
    rw [List.cons_append, peel]
    · rw [if_neg hc]
      rfl
    -- no suffix reaches into the white space: it would have a bracket or a dot there
    · rintro t rfl hr
      cases r with
      | nil =>
          rw [List.nil_append] at hr
          exact absurd (hb '[' (by simp [hr])) (by decide)
      | cons d r =>
          rw [List.cons_append, List.cons.injEq] at hr
          obtain ⟨rfl, -⟩ := hr
          exact hlist r rfl rfl
    · rintro t rfl hr
      match r, hr with
      | [], hr =>
          rw [List.nil_append] at hr
          exact absurd (hb '.' (by simp [hr])) (by decide)
      | [d], hr =>
          rw [List.singleton_append, List.cons.injEq] at hr
          exact absurd (hb '.' (by simp [hr.2])) (by decide)
      | d :: e :: r, hr =>
          simp only [List.cons_append, List.cons.injEq] at hr
          obtain ⟨rfl, rfl, -⟩ := hr
          exact hdots r rfl rfl

/-- How many array suffixes a text has, and what stands before them. -/
def strip (s : List Char) : Nat × List Char := ((peel s.reverse).1, trimStart (peel s.reverse).2.reverse)

theorem parse_eq (text : String) : parse text =
    (ofElement (String.ofList (strip text.toList).2)).map (arrays (strip text.toList).1) := rfl

theorem strip_trim (s : List Char) : strip (trim s) = strip s := by
  obtain ⟨before, after, hbefore, hafter, htext⟩ := exists_blank_around s
  have hbefore' : ∀ c ∈ before.reverse, isBlank c = true :=
    fun c hc => hbefore c (List.mem_reverse.mp hc)
  have hafter' : ∀ c ∈ after.reverse, isBlank c = true := fun c hc => hafter c (List.mem_reverse.mp hc)
  have hpeel : peel s.reverse = ((peel (trim s).reverse).1,
      if (peel (trim s).reverse).2 = [] then [] else (peel (trim s).reverse).2 ++ before.reverse) := by
    conv_lhs => rw [htext]
    rw [List.reverse_append, List.reverse_append, peel_blank hafter', peel_append_blank _ hbefore']
  have hrest (r : List Char) : trimStart (if r = [] then [] else r ++ before.reverse).reverse =
      trimStart r.reverse := by
    split
    next h => rw [h]
    · rw [List.reverse_append, List.reverse_reverse, trimStart,
        List.dropWhile_append_of_pos hbefore]
      rfl
  rw [strip, strip, hpeel]
  dsimp only
  rw [hrest]

theorem parse_trimmed (text : String) : parse (trimmed text) = parse text := by
  rw [parse_eq, parse_eq, toList_trimmed, strip_trim]

theorem toList_text_arrays (n : Nat) (t : TypeName) :
    (arrays n t).text.toList.reverse = (List.replicate n [']', '[']).flatten ++ t.text.toList.reverse := by
  induction n with
  | zero => rfl
  | succ n ih => simp [arrays, text, List.replicate_succ, ih]

theorem peel_arrays (n : Nat) (s : List Char) :
    peel ((List.replicate n [']', '[']).flatten ++ s) = ((peel s).1 + n, (peel s).2) := by
  induction n with
  | zero => rfl
  | succ n ih => simp [List.replicate_succ, peel, ih, Nat.add_assoc]

theorem continues_last {parts : List String} (hne : parts ≠ [])
    (h : ∀ p ∈ parts, isIdentifier p.toList = true) :
    ∃ c r, (join "." parts).toList.reverse = c :: r ∧ continuesIdentifier c = true := by
  obtain ⟨before, p, rfl⟩ := (List.eq_nil_or_concat' parts).resolve_left hne
  have hp : isIdentifier p.toList = true := h p (by simp)
  have hend : ∃ w, (join "." (before ++ [p])).toList = w ++ p.toList := by
    by_cases hbefore : before = []
    · exact ⟨[], by rw [hbefore, List.nil_append, join_singleton, List.nil_append]⟩
    · refine ⟨(join "." before ++ ".").toList, ?_⟩
      rw [join_append "." hbefore (List.cons_ne_nil p []), join_singleton, String.toList_append]
  obtain ⟨w, hw⟩ := hend
  cases hreverse : p.toList.reverse with
  | nil =>
      rw [List.reverse_eq_nil_iff.mp hreverse] at hp
      cases hp
  | cons c r =>
      refine ⟨c, r ++ w.reverse, by rw [hw, List.reverse_append, hreverse, List.cons_append], ?_⟩
      exact continues_of_isIdentifier hp c (List.mem_reverse.mp (hreverse ▸ List.mem_cons_self))

theorem peel_join {parts : List String} (hne : parts ≠ [])
    (h : ∀ p ∈ parts, isIdentifier p.toList = true) :
    peel (join "." parts).toList.reverse = (0, (join "." parts).toList.reverse) := by
  obtain ⟨c, r, hr, hc⟩ := continues_last hne h
  have hmark {d : Char} (hd : continuesIdentifier d = false) : c ≠ d := by
    rintro rfl
    rw [hc] at hd
    cases hd
  have hblank : ¬ isBlank c = true := by
    intro hblank
    rw [not_continues_of_isBlank hblank] at hc
    cases hc
  rw [hr, peel, if_neg hblank]
  · exact fun t hbracket => absurd hbracket (hmark (by decide +kernel))
  · exact fun t hdot => absurd hdot (hmark (by decide +kernel))

/-- No class has the text of a primitive type: there is no capital in it to begin with. -/
theorem ofKeyword?_canonical {c : ClassName} (hc : Conventional c) :
    Primitive.ofKeyword? c.canonical = none := by
  cases hp : Primitive.ofKeyword? c.canonical with
  | none => rfl
  | some p =>
      have hkeyword : p.keyword = c.canonical := by simpa using List.find?_some hp
      have hidentifier : isIdentifier p.keyword.toList = true := by cases p <;> decide
      have hsplit : split '.' p.keyword = [p.keyword] := by
        have h := split_join (List.cons_ne_nil p.keyword []) (by simpa using hidentifier)
        rwa [join_singleton] at h
      have houtermost : c.outermost ∈ [p.keyword] := by
        rw [← hsplit, hkeyword, hc.split_canonical]
        exact List.mem_append_right _ List.mem_cons_self
      have hupper := hc.upper
      rw [List.mem_singleton.mp houtermost] at hupper
      revert hupper
      cases p <;> decide

theorem ofElement_canonical {c : ClassName} (hc : Conventional c) :
    ofElement c.canonical = .ok (.ofClass c) := by
  rw [ofElement, ofKeyword?_canonical hc, hc.guess_canonical]
  rfl

theorem ofElement_cases {e : String} {t : TypeName} (h : ofElement e = .ok t) :
    (∃ p : Primitive, p.keyword = e ∧ t = .primitive p) ∨
      ∃ c, ClassName.guess e = .ok c ∧ t = .ofClass c := by
  rw [ofElement] at h
  split at h
  next p hp =>
    cases h
    exact .inl ⟨p, by simpa using List.find?_some hp, rfl⟩
  next hnone =>
    cases hguess : ClassName.guess e with
    | error fault =>
        rw [hguess] at h
        cases h
    | ok c =>
        rw [hguess] at h
        cases h
        exact .inr ⟨c, rfl, rfl⟩

theorem ofElement_text {e : String} {t : TypeName} (h : ofElement e = .ok t) :
    ofElement t.text = .ok t ∧ ∃ parts, parts ≠ [] ∧ (∀ p ∈ parts, isIdentifier p.toList = true) ∧
      t.text = join "." parts := by
  rcases ofElement_cases h with ⟨p, -, rfl⟩ | ⟨c, hguess, rfl⟩
  · refine ⟨?_, [p.keyword], List.cons_ne_nil _ _, ?_, (join_singleton "." p.keyword).symm⟩
    · rw [text, ofElement, Primitive.ofKeyword?_keyword]
    · cases p <;> decide
  · have hc := conventional_of_readable ⟨e, hguess⟩
    exact ⟨ofElement_canonical hc, _, List.append_ne_nil_of_right_ne_nil _ c.names_ne_nil,
      hc.identifiers, canonical_eq_join c⟩

theorem parse_eq_ok {s : String} {t : TypeName} (h : parse s = .ok t) :
    ∃ u, ofElement (String.ofList (strip s.toList).2) = .ok u ∧ t = arrays (strip s.toList).1 u := by
  rw [parse_eq] at h
  cases he : ofElement (String.ofList (strip s.toList).2) with
  | error e =>
      rw [he] at h
      cases h
  | ok u =>
      rw [he] at h
      exact ⟨u, rfl, (Except.ok.inj h).symm⟩

theorem parse_of_toList_reverse {s text : String} {n : Nat} {parts : List String} (hne : parts ≠ [])
    (h : ∀ p ∈ parts, isIdentifier p.toList = true) (htext : text = join "." parts)
    (hs : s.toList.reverse = (List.replicate n [']', '[']).flatten ++ text.toList.reverse) :
    parse s = (ofElement text).map (arrays n) := by
  have hpeel : peel s.toList.reverse = (n, text.toList.reverse) := by
    rw [hs, peel_arrays, htext, peel_join hne h, Nat.zero_add]
  have htrim : trimStart text.toList = text.toList := by
    rw [trimStart, List.dropWhile_eq_self_iff, htext]
    exact fun hl => by simp [isBlank_join h _ (List.getElem_mem hl)]
  rw [parse, hpeel]
  dsimp only
  rw [List.reverse_reverse, htrim, String.ofList_toList]

theorem parse_text_arrays {t : TypeName} {parts : List String} (ht : ofElement t.text = .ok t)
    (hne : parts ≠ []) (h : ∀ p ∈ parts, isIdentifier p.toList = true)
    (hparts : t.text = join "." parts) (n : Nat) : parse (arrays n t).text = .ok (arrays n t) := by
  rw [parse_of_toList_reverse hne h hparts (toList_text_arrays n t), ht]
  rfl

theorem parse_text {s : String} {t : TypeName} (h : parse s = .ok t) : parse t.text = .ok t := by
  obtain ⟨u, hu, rfl⟩ := parse_eq_ok h
  obtain ⟨helement, parts, hne, hidentifiers, hparts⟩ := ofElement_text hu
  exact parse_text_arrays helement hne hidentifiers hparts _

theorem declared_text {t : TypeName} (h : ∃ text, declared text = .ok t) : declared t.text = .ok t := by
  obtain ⟨s, h⟩ := h
  rw [declared] at h
  split at h
  next u hu =>
    cases h
    rw [declared, parse_text hu]
  · cases h
  next e hne he =>
    cases h
    rw [text, declared, parse_trimmed, he, trimmed_trimmed]
    cases e <;> first | rfl | exact absurd rfl hne

theorem declared_cases {s : String} {u : TypeName} (h : declared s = .ok u) :
    (∃ n p, u = arrays n (.primitive p)) ∨
      (∃ n c, Conventional c ∧ u = arrays n (.ofClass c)) ∨ ∃ text, u = .verbatim text := by
  rw [declared] at h
  split at h
  · next v hv =>
      cases h
      obtain ⟨element, helement, rfl⟩ := parse_eq_ok hv
      rcases ofElement_cases helement with ⟨p, -, rfl⟩ | ⟨c, hguess, rfl⟩
      · exact .inl ⟨_, p, rfl⟩
      · exact .inr (.inl ⟨_, c, conventional_of_readable ⟨_, hguess⟩, rfl⟩)
  · cases h
  · cases h
    exact .inr (.inr ⟨_, rfl⟩)

theorem conventional_of_declared {s : String} {c : ClassName} (h : declared s = .ok (.ofClass c)) :
    Conventional c := by
  rcases declared_cases h with ⟨n, p, hu⟩ | ⟨n, d, hd, hu⟩ | ⟨text, hu⟩
  · cases n <;> cases hu
  · cases n with
    | zero =>
        cases hu
        exact hd
    | succ n => cases hu
  · cases hu

theorem declared_canonical {c : ClassName} (hc : Conventional c) (n : Nat) :
    declared (arrays n (.ofClass c)).text = .ok (arrays n (.ofClass c)) := by
  have hne : segments c.package ++ c.names ≠ [] := List.append_ne_nil_of_right_ne_nil _ c.names_ne_nil
  have hparse := parse_text_arrays (t := .ofClass c) (ofElement_canonical hc) hne
    hc.identifiers (canonical_eq_join c) n
  rw [declared, hparse]

theorem text_of_declared_join {parts : List String} (hne : parts ≠ [])
    (hparts : ∀ p ∈ parts, isIdentifier p.toList = true) {u : TypeName}
    (h : declared (join "." parts) = .ok u) : u.text = join "." parts := by
  have hparse : parse (join "." parts) = (ofElement (join "." parts)).map (arrays 0) :=
    parse_of_toList_reverse hne hparts rfl rfl
  rw [declared, hparse] at h
  cases helement : ofElement (join "." parts) with
  | ok v =>
      rw [helement] at h
      cases h
      rcases ofElement_cases helement with ⟨p, hp, rfl⟩ | ⟨c, hc, rfl⟩
      · exact hp
      · exact (canonical_of_guess hc).trans (trimmed_join hparts)
  | error fault =>
      rw [helement] at h
      cases fault with
      | empty => cases h
      | _ =>
          cases h
          exact trimmed_join hparts

end ViewBinding.Proofs.TypeText
