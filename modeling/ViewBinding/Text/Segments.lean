namespace ViewBinding.Text

/-- The pieces between separators; one more piece than there are separators. -/
def cut (sep : Char) : List Char → List (List Char)
  | [] => [[]]
  | c :: r =>
      if c = sep then [] :: cut sep r
      else match cut sep r with
        | [] => [[c]]
        | w :: ws => (c :: w) :: ws

def glue (sep : List Char) : List (List Char) → List Char
  | [] => []
  | [w] => w
  | w :: x :: ws => w ++ sep ++ glue sep (x :: ws)

theorem cut_ne_nil (sep : Char) (s : List Char) : cut sep s ≠ [] := by
  cases s with
  | nil => simp [cut]
  | cons c r => simp only [cut]; split <;> (try split) <;> simp

theorem glue_cut (sep : Char) (s : List Char) : glue [sep] (cut sep s) = s := by
  induction s with
  | nil => rfl
  | cons c r ih =>
      simp only [cut]
      split
      · next h =>
          cases hr : cut sep r with
          | nil => exact absurd hr (cut_ne_nil sep r)
          | cons w ws => rw [hr] at ih; simp [glue, ih, h]
      · cases hr : cut sep r with
        | nil => exact absurd hr (cut_ne_nil sep r)
        | cons w ws =>
            rw [hr] at ih
            cases ws with
            | nil => simpa [glue] using ih
            | cons x xs => simpa [glue] using ih

theorem cut_of_notMem {sep : Char} {w : List Char} (h : sep ∉ w) : cut sep w = [w] := by
  induction w with
  | nil => rfl
  | cons c w ih =>
      obtain ⟨hc, hw⟩ := List.ne_and_not_mem_of_not_mem_cons h
      rw [cut, if_neg (Ne.symm hc), ih hw]

theorem cut_append_sep (sep : Char) (w s : List Char) :
    cut sep (w ++ sep :: s) = cut sep w ++ cut sep s := by
  induction w with
  | nil => exact if_pos rfl
  | cons c w ih =>
      rw [List.cons_append, cut, cut, ih]
      split
      · rfl
      · cases hw : cut sep w with
        | nil => exact absurd hw (cut_ne_nil sep w)
        | cons x xs => rfl

theorem cut_append {sep : Char} {w : List Char} (s : List Char) (h : sep ∉ w) :
    cut sep (w ++ sep :: s) = w :: cut sep s := by
  rw [cut_append_sep, cut_of_notMem h, List.singleton_append]

theorem cut_glue {sep : Char} {ws : List (List Char)} (hne : ws ≠ []) (h : ∀ w ∈ ws, sep ∉ w) :
    cut sep (glue [sep] ws) = ws := by
  induction ws with
  | nil => exact absurd rfl hne
  | cons w ws ih =>
      obtain ⟨hw, hws⟩ := List.forall_mem_cons.mp h
      cases ws with
      | nil => exact cut_of_notMem hw
      | cons x ws =>
          rw [glue, List.append_assoc, List.singleton_append, cut_append _ hw,
            ih (List.cons_ne_nil x ws) hws]

theorem notMem_of_mem_cut {sep : Char} {s w : List Char} (h : w ∈ cut sep s) : sep ∉ w := by
  induction s generalizing w with
  | nil =>
      rw [List.mem_singleton.mp h]
      exact List.not_mem_nil
  | cons c r ih =>
      simp only [cut] at h
      split at h
      · rcases List.mem_cons.mp h with rfl | h
        · exact List.not_mem_nil
        · exact ih h
      · next hc =>
          cases hr : cut sep r with
          | nil => exact absurd hr (cut_ne_nil sep r)
          | cons x xs =>
              rw [hr] at h ih
              rcases List.mem_cons.mp h with rfl | h
              · exact List.not_mem_cons_of_ne_of_not_mem (Ne.symm hc) (ih List.mem_cons_self)
              · exact ih (List.mem_cons_of_mem x h)

theorem cut_ended {sep : Char} {ws : List (List Char)} (h : ∀ w ∈ ws, sep ∉ w) :
    cut sep (ws.flatMap (· ++ [sep])) = ws ++ [[]] := by
  induction ws with
  | nil => rfl
  | cons w ws ih =>
      obtain ⟨hw, hws⟩ := List.forall_mem_cons.mp h
      rw [List.flatMap_cons, List.append_assoc, List.singleton_append, cut_append _ hw, ih hws,
        List.cons_append]

theorem glue_append (sep : List Char) {ws xs : List (List Char)} (hws : ws ≠ []) (hxs : xs ≠ []) :
    glue sep (ws ++ xs) = glue sep ws ++ sep ++ glue sep xs := by
  induction ws with
  | nil => exact absurd rfl hws
  | cons w ws ih =>
      cases ws with
      | nil =>
          cases xs with
          | nil => exact absurd rfl hxs
          | cons x xs => rfl
      | cons y ws =>
          have hrest := ih (List.cons_ne_nil y ws)
          simp only [List.cons_append, glue, List.append_assoc] at hrest ⊢
          rw [hrest]

theorem mem_glue {sep : List Char} {ws : List (List Char)} {a : Char} (h : a ∈ glue sep ws) :
    a ∈ sep ∨ ∃ w ∈ ws, a ∈ w := by
  induction ws with
  | nil => cases h
  | cons w ws ih =>
      cases ws with
      | nil => exact .inr ⟨w, List.mem_singleton.mpr rfl, h⟩
      | cons x ws =>
          rw [glue, List.mem_append, List.mem_append] at h
          rcases h with (h | h) | h
          · exact .inr ⟨w, List.mem_cons_self, h⟩
          · exact .inl h
          · exact (ih h).imp_right fun ⟨v, hv, ha⟩ => ⟨v, List.mem_cons_of_mem w hv, ha⟩

def split (sep : Char) (s : String) : List String := (cut sep s.toList).map String.ofList

def join (sep : String) (parts : List String) : String :=
  String.ofList (glue sep.toList (parts.map String.toList))

theorem join_nil (sep : String) : join sep [] = "" := rfl

theorem join_singleton (sep s : String) : join sep [s] = s := by simp [join, glue]

theorem join_cons_cons (sep s t : String) (parts : List String) :
    join sep (s :: t :: parts) = s ++ sep ++ join sep (t :: parts) := by
  apply String.toList_inj.mp
  simp [join, glue]

theorem join_append (sep : String) {ps qs : List String} (hps : ps ≠ []) (hqs : qs ≠ []) :
    join sep (ps ++ qs) = join sep ps ++ sep ++ join sep qs := by
  apply String.toList_inj.mp
  simp [join, glue_append, hps, hqs]

theorem mem_join {sep : String} {parts : List String} {a : Char} (h : a ∈ (join sep parts).toList) :
    a ∈ sep.toList ∨ ∃ p ∈ parts, a ∈ p.toList := by
  rw [join, String.toList_ofList] at h
  refine (mem_glue h).imp_right fun ⟨w, hw, ha⟩ => ?_
  obtain ⟨p, hp, rfl⟩ := List.mem_map.mp hw
  exact ⟨p, hp, ha⟩

theorem split_join_of_notMem {sep : Char} {text : String} (htext : text.toList = [sep])
    {parts : List String} (hne : parts ≠ []) (h : ∀ p ∈ parts, sep ∉ p.toList) :
    split sep (join text parts) = parts := by
  have hcut : cut sep (glue [sep] (parts.map String.toList)) = parts.map String.toList := by
    refine cut_glue (fun hnil => hne (List.map_eq_nil_iff.mp hnil)) ?_
    rw [List.forall_mem_map]
    exact h
  simp [join, split, htext, hcut, Function.comp_def]

def dropStart? : List Char → List Char → Option (List Char)
  | [], s => some s
  | _ :: _, [] => none
  | p :: ps, c :: s => if p = c then dropStart? ps s else none

theorem dropStart?_eq_some_iff {p s r : List Char} : dropStart? p s = some r ↔ s = p ++ r := by
  induction p generalizing s with
  | nil => simp [dropStart?]
  | cons a p ih =>
      cases s with
      | nil => simp [dropStart?]
      | cons c s =>
          by_cases h : a = c
          · simp [dropStart?, h, ih]
          · simp [dropStart?, h, Ne.symm h]

def startsWith (p s : String) : Bool := (dropStart? p.toList s.toList).isSome

theorem startsWith_iff {p s : String} : startsWith p s = true ↔ p.toList <+: s.toList := by
  simp only [startsWith, Option.isSome_iff_exists, dropStart?_eq_some_iff]
  exact ⟨fun ⟨r, h⟩ => ⟨r, h.symm⟩, fun ⟨r, h⟩ => ⟨r, h.symm⟩⟩

/-- The lines of a text: a line feed ends each, a carriage return before it goes with it, and an
empty piece after the last line feed is no line. -/
def lines (s : String) : List String :=
  let pieces := cut '\n' s.toList
  let last := pieces.getLast?.getD []
  let ended := pieces.dropLast.map fun w => if w.getLast? = some '\r' then w.dropLast else w
  (if last.isEmpty then ended else ended ++ [last]).map String.ofList

end ViewBinding.Text
