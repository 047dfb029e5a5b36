import ViewBinding.Proofs.Guessing
import ViewBinding.Proofs.TypeText

namespace ViewBinding.Proofs.Suffixes

open Text ViewBinding.TypeName Reading Guessing TypeText

def suffixes : List (List Char) := [['[', ']'], ['.', '.', '.']]

/-- Taking suffixes off a text, and the white space around it each time, ends after so many steps with
an element. -/
inductive Stripped : List Char → Nat → List Char → Prop
  | bare {s : List Char} (h : ∀ x ∈ suffixes, ¬ x <:+ trim s) : Stripped s 0 (trim s)
  | suffix {s r x e : List Char} {n : Nat} (hx : x ∈ suffixes) (hs : trim s = r ++ x)
      (h : Stripped r n e) : Stripped s (n + 1) e

theorem strip_append {x : List Char} (hx : x ∈ suffixes) (r : List Char) :
    strip (r ++ x) = ((strip r).1 + 1, (strip r).2) := by
  have hreverse : ∀ x ∈ suffixes, peel (x.reverse ++ r.reverse) =
      ((peel r.reverse).1 + 1, (peel r.reverse).2) := by
    simp [suffixes, peel]
  rw [strip, List.reverse_append, hreverse x hx, strip]

theorem not_isBlank_of_trim {s r : List Char} {c : Char} (h : (trim s).reverse = c :: r) :
    ¬ isBlank c = true := by
  have hend : trimEnd (trim s) = trim s := by
    have htrim := trim_trim s
    rwa [trim, trimStart_trim] at htrim
  have hdrop := congrArg List.reverse hend
  rw [trimEnd, List.reverse_reverse, h] at hdrop
  exact List.dropWhile_eq_self_iff.mp hdrop (Nat.succ_pos r.length)

theorem strip_bare {s : List Char} (h : ∀ x ∈ suffixes, ¬ x <:+ trim s) : strip s = (0, trim s) := by
  have hends {x r : List Char} (hr : (trim s).reverse = x.reverse ++ r) : x <:+ trim s :=
    ⟨r.reverse, by rw [← List.reverse_reverse (trim s), hr]; simp⟩
  have hpeel : peel (trim s).reverse = (0, (trim s).reverse) := by
    cases hr : (trim s).reverse with
    | nil => rfl
    | cons c r =>
        rw [peel, if_neg (not_isBlank_of_trim hr)]
        · rintro t rfl rfl
          exact h ['[', ']'] (by simp [suffixes]) (hends hr)
        · rintro t rfl rfl
          exact h ['.', '.', '.'] (by simp [suffixes]) (hends hr)
  rw [← strip_trim, strip, hpeel]
  dsimp only
  rw [List.reverse_reverse, trimStart_trim]

theorem Stripped.strip_eq {s e : List Char} {n : Nat} (h : Stripped s n e) : strip s = (n, e) := by
  induction h with
  | bare h => exact strip_bare h
  | suffix hx hs _ ih => rw [← strip_trim, hs, strip_append hx, ih]

theorem Stripped.trim_eq {s e : List Char} {n : Nat} (h : Stripped s n e) : trim e = e := by
  induction h with
  | bare => exact trim_trim _
  | suffix _ _ _ ih => exact ih

theorem length_trim_le (s : List Char) : (trim s).length ≤ s.length := by
  obtain ⟨before, after, -, -, hs⟩ := exists_blank_around s
  have hlength := congrArg List.length hs
  simp only [List.length_append] at hlength
  omega

theorem exists_stripped (s : List Char) : ∃ n e, Stripped s n e := by
  by_cases h : ∃ x ∈ suffixes, x <:+ trim s
  · obtain ⟨x, hx, r, hr⟩ := h
    have hshorter : r.length < s.length := by
      have hpositive : ∀ x ∈ suffixes, 0 < x.length := by decide
      have hlength := congrArg List.length hr
      have hle := length_trim_le s
      have hx := hpositive x hx
      rw [List.length_append] at hlength
      omega
    obtain ⟨n, e, hstripped⟩ := exists_stripped r
    exact ⟨n + 1, e, .suffix hx hr.symm hstripped⟩
  · exact ⟨0, trim s, .bare fun x hx hends => h ⟨x, hx, hends⟩⟩
termination_by s.length

theorem stripped_strip (s : List Char) : Stripped s (strip s).1 (strip s).2 := by
  obtain ⟨n, e, h⟩ := exists_stripped s
  rw [h.strip_eq]
  exact h

theorem stripped_iff {s e : List Char} {n : Nat} :
    Stripped s n e ↔ n = (strip s).1 ∧ e = (strip s).2 := by
  constructor
  · intro h
    rw [h.strip_eq]
    exact ⟨rfl, rfl⟩
  · rintro ⟨rfl, rfl⟩
    exact stripped_strip s

theorem map_eq_error_iff {α β ε : Type} {f : α → β} {x : Except ε α} {e : ε} :
    x.map f = .error e ↔ x = .error e := by
  cases x <;> simp [Except.map]

theorem blank_of_ofElement {e : String} (h : ofElement e = .error .empty) : Blank e := by
  rw [ofElement] at h
  split at h
  · cases h
  · exact guess_eq_empty_iff.mp (map_eq_error_iff.mp h)

theorem parse_eq_empty_iff {text : String} :
    parse text = .error .empty ↔ (strip text.toList).2 = [] := by
  rw [parse_eq, map_eq_error_iff]
  constructor
  · intro h
    have hempty := isEmpty_trimmed_iff.mpr (blank_of_ofElement h)
    rw [trimmed, String.toList_ofList, (stripped_strip text.toList).trim_eq] at hempty
    simpa using hempty
  · intro h
    rw [h]
    rfl

theorem declared_eq_error_iff {text : String} {fault : NameError} :
    declared text = .error fault ↔ fault = .empty ∧ (strip text.toList).2 = [] := by
  rw [← parse_eq_empty_iff, declared]
  cases parse text with
  | ok t => simp
  | error e => cases e <;> simp [eq_comm]

theorem layers_arrays (n : Nat) {u : TypeName} {e : String} (h : ofElement e = .ok u) :
    (arrays n u).layers = n := by
  induction n with
  | zero => rcases ofElement_cases h with ⟨p, -, rfl⟩ | ⟨c, -, rfl⟩ <;> rfl
  | succ n ih => rw [arrays, layers, ih]

/-- A declaration is refused exactly if nothing is left of it when its suffixes are taken off, and then as
an empty one. Any other text declares a type that its own text declares again. If the type has a structure,
it has a layer for each suffix, and its own text has the same structure. -/
theorem declared_rereads (text : String) :
    ∃ count element, (∀ n e, Stripped text.toList n e ↔ n = count ∧ e = element) ∧
      (∀ fault, declared text = .error fault ↔ fault = .empty ∧ element = []) ∧
      (element ≠ [] → ∃ t, declared text = .ok t ∧ declared t.text = .ok t) ∧
      ∀ t, parse text = .ok t →
        declared text = .ok t ∧ parse t.text = .ok t ∧ t.layers = count := by
  refine ⟨_, _, fun n e => stripped_iff, fun fault => declared_eq_error_iff, fun h => ?_, fun t ht => ?_⟩
  · cases hdeclared : declared text with
    | error fault => exact absurd (declared_eq_error_iff.mp hdeclared).2 h
    | ok t => exact ⟨t, rfl, declared_text ⟨text, hdeclared⟩⟩
  · obtain ⟨u, hu, htext⟩ := parse_eq_ok ht
    refine ⟨by rw [declared, ht], parse_text ht, ?_⟩
    rw [htext]
    exact layers_arrays _ hu

end ViewBinding.Proofs.Suffixes
