import Mathlib.Data.Set.Card
import ViewBinding.Companion
import ViewBinding.Registry

namespace ViewBinding.Proofs.Nesting

open Java

inductive Step where
  | line (x : Snippet)
  | statement (x : Snippet)
  | opening (x : Snippet)
  | closing (suffix : String)

namespace Step

def run (b : CodeBlock) : Step → CodeBlock
  | .line x => b.line x
  | .statement x => b.statement x
  | .opening x => b.opening x
  | .closing suffix => b.closing suffix

def opens : Step → Bool
  | .opening _ => true
  | _ => false

def closes : Step → Bool
  | .closing _ => true
  | _ => false

@[simp] theorem opens_opening (x : Snippet) : (opening x).opens = true := rfl

@[simp] theorem closes_opening (x : Snippet) : (opening x).closes = false := rfl

@[simp] theorem opens_closing (suffix : String) : (closing suffix).opens = false := rfl

@[simp] theorem closes_closing (suffix : String) : (closing suffix).closes = true := rfl

def snippet : Step → Snippet
  | .line x => x
  | .statement x => x.text ";"
  | .opening x => x.text " \x7b"
  | .closing suffix => (Snippet.ofText "\x7d").text suffix

end Step

def block (steps : List Step) : CodeBlock := steps.foldl Step.run .empty

def openings (steps : List Step) : Nat := steps.countP Step.opens

def closings (steps : List Step) : Nat := steps.countP Step.closes

/-- Nothing is closed that is not open. -/
def Nested (steps : List Step) : Prop := ∀ n, closings (steps.take n) ≤ openings (steps.take n)

def Balanced (steps : List Step) : Prop := Nested steps ∧ openings steps = closings steps

def between (steps : List Step) (i j : Nat) : List Step := (steps.drop (i + 1)).take (j - (i + 1))

/-- The closing at `j` closes what is opened at `i`: whatever is opened between them is closed between
them. -/
structure Matches (steps : List Step) (i j : Nat) : Prop where
  before : i < j
  opening : ∃ x, steps[i]? = some (.opening x)
  closing : ∃ suffix, steps[j]? = some (.closing suffix)
  balanced : Balanced (between steps i j)

/-- The block opened at `i` is around the line at `n`: it is opened before, and not closed before or by this
line. -/
def Around (steps : List Step) (n i : Nat) : Prop :=
  i < n ∧ (∃ x, steps[i]? = some (.opening x)) ∧ ∀ j ≤ n, ¬ Matches steps i j

section Counts

variable (xs ys : List Step) (s : Step)

@[simp] theorem openings_nil : openings [] = 0 := rfl

@[simp] theorem closings_nil : closings [] = 0 := rfl

@[simp] theorem openings_append : openings (xs ++ ys) = openings xs + openings ys := List.countP_append

@[simp] theorem closings_append : closings (xs ++ ys) = closings xs + closings ys := List.countP_append

@[simp] theorem openings_singleton : openings [s] = s.opens.toNat := by cases s <;> rfl

@[simp] theorem closings_singleton : closings [s] = s.closes.toNat := by cases s <;> rfl

end Counts

theorem nested_nil : Nested [] := fun n => by simp

theorem Nested.le {steps : List Step} (h : Nested steps) : closings steps ≤ openings steps := by
  simpa using h steps.length

theorem Nested.take {steps : List Step} (h : Nested steps) (n : Nat) : Nested (steps.take n) := by
  intro m
  rw [List.take_take]
  exact h _

theorem nested_append_singleton {steps : List Step} {s : Step} :
    Nested (steps ++ [s]) ↔ Nested steps ∧ closings (steps ++ [s]) ≤ openings (steps ++ [s]) := by
  constructor
  · intro h
    have htake := h.take steps.length
    rw [List.take_left] at htake
    exact ⟨htake, h.le⟩
  · rintro ⟨hsteps, hall⟩ n
    rcases Nat.lt_or_ge steps.length n with hn | hn
    · rwa [List.take_of_length_le (by simpa using hn)]
    · rw [List.take_append_of_le_length hn]
      exact hsteps n

theorem nested_iff_upTo_length {steps : List Step} :
    (∀ n ≤ steps.length, closings (steps.take n) ≤ openings (steps.take n)) ↔ Nested steps := by
  refine ⟨fun h n => ?_, fun h n _ => h n⟩
  rcases Nat.le_total n steps.length with hn | hn
  · exact h n hn
  · rw [List.take_of_length_le hn]
    simpa using h steps.length le_rfl

instance (steps : List Step) : Decidable (Nested steps) := decidable_of_iff _ nested_iff_upTo_length

theorem Nested.append {xs ys : List Step} (hxs : Nested xs) (hys : Nested ys) : Nested (xs ++ ys) := by
  intro n
  rw [List.take_append, closings_append, openings_append]
  exact Nat.add_le_add (hxs n) (hys _)

theorem nested_singleton {s : Step} (h : s.closes = false) : Nested [s] :=
  nested_append_singleton.mpr ⟨nested_nil, by simp [h]⟩

theorem nested_take_iff (steps : List Step) (n : Nat) :
    Nested (steps.take n) ↔
      ∀ k < n, ¬ (Balanced (steps.take k) ∧ ∃ suffix, steps[k]? = some (.closing suffix)) := by
  induction n with
  | zero => simp [nested_nil]
  | succ n ih =>
      rw [Nat.forall_lt_succ_right, ← ih, List.take_add_one]
      cases hn : steps[n]? with
      | none => simp
      | some s =>
          rw [Option.toList_some, nested_append_singleton]
          refine and_congr_right fun hnested => ?_
          have hle := hnested.le
          cases s <;> simp [Balanced, hnested, Step.opens, Step.closes] <;> omega

def lineOf (b : CodeBlock) (s : Step) : CodeLine :=
  ⟨if s.closes then b.depth - 1 else b.depth, s.snippet⟩

theorem lines_run (b : CodeBlock) (s : Step) : (s.run b).lines = b.lines.push (lineOf b s) := by
  cases s <;> rfl

theorem block_append_singleton (steps : List Step) (s : Step) :
    block (steps ++ [s]) = s.run (block steps) := List.foldl_append

theorem depth_block {steps : List Step} (h : Nested steps) :
    (block steps).depth = openings steps - closings steps := by
  induction steps using List.reverseRecOn with
  | nil => rfl
  | append_singleton steps s ih =>
      obtain ⟨hsteps, hall⟩ := nested_append_singleton.mp h
      have hle := hsteps.le
      have hdepth := ih hsteps
      rw [block_append_singleton]
      cases s <;> simp [Step.run, hdepth, Step.opens, Step.closes, CodeBlock.line] at hall ⊢ <;> omega

/-- The block opened at `i` is open after the last step. -/
def Pending (steps : List Step) (i : Nat) : Prop :=
  (∃ x, steps[i]? = some (.opening x)) ∧ Nested (steps.drop (i + 1))

/-- The positions at which the open blocks are opened, the innermost first. As many blocks are open inside
one of them as come before it. -/
structure Stack (steps : List Step) (blocks : List Nat) : Prop where
  pending : ∀ i, i ∈ blocks ↔ Pending steps i
  inside : ∀ k i, blocks[k]? = some i → openings (steps.drop (i + 1)) = closings (steps.drop (i + 1)) + k
  length : openings steps = closings steps + blocks.length

theorem pending_append_singleton {steps : List Step} {s : Step} {i : Nat} :
    Pending (steps ++ [s]) i ↔ (i = steps.length ∧ s.opens) ∨
      Pending steps i ∧ closings (steps.drop (i + 1) ++ [s]) ≤ openings (steps.drop (i + 1) ++ [s]) := by
  rcases Nat.lt_trichotomy i steps.length with hi | rfl | hi
  · have hother : ¬ i = steps.length := Nat.ne_of_lt hi
    rw [Pending, List.getElem?_append_left hi, List.drop_append_of_le_length hi, nested_append_singleton,
      Pending, and_assoc]
    simp only [hother, false_and, false_or]
  · have hopens : (∃ x, s = .opening x) ↔ s.opens := by cases s <;> simp [Step.opens]
    simp [Pending, nested_nil, hopens]
  · have hother : ¬ i = steps.length := Nat.ne_of_gt hi
    have hnone : (steps ++ [s])[i]? = none := by simp; omega
    have hnone' : steps[i]? = none := by simp; omega
    simp [Pending, hnone, hnone', hother]

theorem Pending.lt {steps : List Step} {i : Nat} (h : Pending steps i) : i < steps.length :=
  have ⟨_, hx⟩ := h.1
  (List.getElem?_eq_some_iff.mp hx).1

theorem Pending.drop_append {steps : List Step} {i : Nat} (h : Pending steps i) (s : Step) :
    (steps ++ [s]).drop (i + 1) = steps.drop (i + 1) ++ [s] := List.drop_append_of_le_length h.lt

namespace Stack

variable {steps : List Step} {blocks : List Nat} (h : Stack steps blocks)

include h

theorem plain {s : Step} (hopens : s.opens = false) (hcloses : s.closes = false) :
    Stack (steps ++ [s]) blocks where
  pending i := by
    rw [h.pending, pending_append_singleton]
    simp only [hopens, Bool.false_eq_true, and_false, false_or]
    refine (and_iff_left_of_imp fun hi => ?_).symm
    simpa [hopens, hcloses] using hi.2.le
  inside k i hk := by
    have hi := (h.pending i).mp (List.mem_of_getElem? hk)
    simpa [hi.drop_append, hopens, hcloses] using h.inside k i hk
  length := by simpa [hopens, hcloses] using h.length

theorem opening (x : Snippet) : Stack (steps ++ [.opening x]) (steps.length :: blocks) where
  pending i := by
    rw [List.mem_cons, h.pending, pending_append_singleton]
    refine or_congr (by simp) (and_iff_left_of_imp fun hi => ?_).symm
    have hle := hi.2.le
    simp
    omega
  inside k i hk := by
    cases k with
    | zero =>
        obtain rfl : steps.length = i := by simpa using hk
        simp
    | succ k =>
        rw [List.getElem?_cons_succ] at hk
        have hi := (h.pending i).mp (List.mem_of_getElem? hk)
        have hinside := h.inside k i hk
        simp [hi.drop_append]
        omega
  length := by
    have hlength := h.length
    simp
    omega

theorem closing (suffix : String) (hclosed : closings steps < openings steps) :
    Stack (steps ++ [.closing suffix]) blocks.tail where
  pending i := by
    rw [pending_append_singleton]
    simp only [Step.opens_closing, Bool.false_eq_true, and_false, false_or]
    constructor
    · intro hmem
      obtain ⟨k, hk⟩ := List.mem_iff_getElem?.mp hmem
      rw [List.getElem?_tail] at hk
      have hinside := h.inside (k + 1) i hk
      refine ⟨(h.pending i).mp (List.mem_of_getElem? hk), ?_⟩
      simp
      omega
    · rintro ⟨hi, hcount⟩
      obtain ⟨k, hk⟩ := List.mem_iff_getElem?.mp ((h.pending i).mpr hi)
      have hinside := h.inside k i hk
      cases k with
      | zero =>
          simp at hcount
          omega
      | succ k => exact List.mem_of_getElem? (by rwa [List.getElem?_tail])
  inside k i hk := by
    rw [List.getElem?_tail] at hk
    have hi := (h.pending i).mp (List.mem_of_getElem? hk)
    have hinside := h.inside (k + 1) i hk
    simp [hi.drop_append]
    omega
  length := by
    have hlength := h.length
    simp
    omega

end Stack

theorem exists_stack {steps : List Step} (h : Nested steps) : ∃ blocks, Stack steps blocks := by
  induction steps using List.reverseRecOn with
  | nil => exact ⟨[], by simp [Pending], by simp, rfl⟩
  | append_singleton steps s ih =>
      obtain ⟨hsteps, hall⟩ := nested_append_singleton.mp h
      obtain ⟨blocks, hstack⟩ := ih hsteps
      cases s with
      | line x => exact ⟨blocks, hstack.plain rfl rfl⟩
      | statement x => exact ⟨blocks, hstack.plain rfl rfl⟩
      | opening x => exact ⟨_, hstack.opening x⟩
      | closing suffix => exact ⟨_, hstack.closing suffix (by simpa using hall)⟩

theorem Stack.nodup {steps : List Step} {blocks : List Nat} (h : Stack steps blocks) : blocks.Nodup := by
  rw [List.nodup_iff_getElem?_ne_getElem?]
  intro k l hkl hl heq
  have hk := h.inside k _ (heq.trans (List.getElem?_eq_getElem hl))
  have hl := h.inside l _ (List.getElem?_eq_getElem hl)
  omega

theorem ncard_pending {steps : List Step} (h : Nested steps) :
    {i | Pending steps i}.ncard = openings steps - closings steps := by
  obtain ⟨blocks, hstack⟩ := exists_stack h
  have hset : {i | Pending steps i} = (blocks.toFinset : Set Nat) := by
    ext i
    simp [hstack.pending]
  have hlength := hstack.length
  rw [hset, Set.ncard_coe_finset, List.toFinset_card_of_nodup hstack.nodup]
  omega

theorem nested_iff_unmatched {steps : List Step} {i : Nat} (hi : ∃ x, steps[i]? = some (.opening x))
    (n : Nat) : Nested ((steps.take n).drop (i + 1)) ↔ ∀ j < n, ¬ Matches steps i j := by
  rw [List.drop_take, nested_take_iff]
  constructor
  · intro h j hj hmatch
    obtain ⟨hij, -, ⟨suffix, hclosing⟩, hbalanced⟩ := hmatch
    have hplace : i + 1 + (j - (i + 1)) = j := by omega
    exact h (j - (i + 1)) (by omega) ⟨hbalanced, suffix, by rw [List.getElem?_drop, hplace, hclosing]⟩
  · rintro h k hk ⟨hbalanced, suffix, hclosing⟩
    have hplace : i + 1 + k - (i + 1) = k := by omega
    rw [List.getElem?_drop] at hclosing
    exact h (i + 1 + k) (by omega) ⟨by omega, hi, ⟨suffix, hclosing⟩, by rwa [between, hplace]⟩

/-- The steps that decide how deep the line of a step stands: a closing acts on its own line already, an
opening only on the lines after it. -/
def reach (n : Nat) (s : Step) : Nat := if s.closes then n + 1 else n

theorem reach_opening (n : Nat) (x : Snippet) : reach n (.opening x) = n := rfl

theorem reach_closing (n : Nat) (suffix : String) : reach n (.closing suffix) = n + 1 := rfl

theorem around_iff {steps : List Step} {n : Nat} {s : Step} (hs : steps[n]? = some s) (i : Nat) :
    Around steps n i ↔ Pending (steps.take (reach n s)) i := by
  constructor
  · rintro ⟨hin, hopening, hopen⟩
    have hi : i < reach n s := by
      rw [reach]
      split <;> omega
    refine ⟨by simpa only [List.getElem?_take_of_lt hi] using hopening, ?_⟩
    refine (nested_iff_unmatched hopening _).mpr fun j hj => hopen j ?_
    rw [reach] at hj
    split at hj <;> omega
  · rintro ⟨⟨x, hx⟩, hnested⟩
    obtain ⟨hi, hopening⟩ : i < reach n s ∧ steps[i]? = some (.opening x) := by
      rw [List.getElem?_take] at hx
      split at hx
      · next hi => exact ⟨hi, hx⟩
      · cases hx
    have hopen := (nested_iff_unmatched ⟨x, hopening⟩ _).mp hnested
    have hn (t : Step) (ht : steps[n]? = some t) : s = t := Option.some.inj (hs.symm.trans ht)
    -- the step of the line itself is not both: a closing opens nothing, and no other step closes
    cases hcloses : s.closes with
    | true =>
        simp only [reach, hcloses, if_true] at hi hopen
        have hother : i ≠ n := by
          rintro rfl
          rw [hn _ hopening] at hcloses
          cases hcloses
        exact ⟨by omega, ⟨x, hopening⟩, fun j hj => hopen j (by omega)⟩
    | false =>
        simp only [reach, hcloses, Bool.false_eq_true, if_false] at hi hopen
        refine ⟨hi, ⟨x, hopening⟩, fun j hj hmatch => ?_⟩
        obtain ⟨suffix, hclosing⟩ := hmatch.closing
        have hother : j ≠ n := by
          rintro rfl
          rw [hn _ hclosing] at hcloses
          cases hcloses
        exact hopen j (by omega) hmatch

theorem ncard_around {steps : List Step} (h : Nested steps) {n : Nat} {s : Step} (hs : steps[n]? = some s) :
    {i | Around steps n i}.ncard =
      openings (steps.take (reach n s)) - closings (steps.take (reach n s)) := by
  have hset : {i | Around steps n i} = {i | Pending (steps.take (reach n s)) i} := by
    ext i
    exact around_iff hs i
  rw [hset, ncard_pending (h.take _)]

theorem size_lines (steps : List Step) : (block steps).lines.size = steps.length := by
  induction steps using List.reverseRecOn with
  | nil => rfl
  | append_singleton steps s ih =>
      rw [block_append_singleton, lines_run, Array.size_push, ih, List.length_append]
      rfl

theorem getElem?_lines {steps : List Step} {n : Nat} {s : Step} (hs : steps[n]? = some s) :
    (block steps).lines[n]? = some (lineOf (block (steps.take n)) s) := by
  induction steps using List.reverseRecOn with
  | nil => cases hs
  | append_singleton steps t ih =>
      rw [block_append_singleton, lines_run, Array.getElem?_push, size_lines]
      rcases Nat.lt_trichotomy n steps.length with hn | rfl | hn
      · rw [List.getElem?_append_left hn] at hs
        rw [if_neg (Nat.ne_of_lt hn), ih hs, List.take_append_of_le_length hn.le]
      · obtain rfl : t = s := by simpa using hs
        rw [if_pos rfl, List.take_left]
      · have hnone : (steps ++ [t])[n]? = none := by simp; omega
        cases hnone.symm.trans hs

def depth? (steps : List Step) (n : Nat) : Option Nat := (block steps).lines[n]?.map CodeLine.depth

theorem depth_lineOf {steps : List Step} (h : Nested steps) {n : Nat} {s : Step} (hs : steps[n]? = some s) :
    (lineOf (block (steps.take n)) s).depth =
      openings (steps.take (reach n s)) - closings (steps.take (reach n s)) := by
  rw [lineOf, depth_block (h.take n), reach]
  split
  · next hcloses =>
      have hopens : s.opens = false := by cases s <;> simp_all [Step.opens, Step.closes]
      rw [List.take_add_one, hs]
      simp [hcloses, hopens]
      omega
  · rfl

theorem depth?_eq {steps : List Step} (h : Nested steps) {n : Nat} {s : Step} (hs : steps[n]? = some s) :
    depth? steps n = some (openings (steps.take (reach n s)) - closings (steps.take (reach n s))) := by
  rw [depth?, getElem?_lines hs, Option.map_some, depth_lineOf h hs]

theorem Matches.counts {steps : List Step} {i j : Nat} (h : Matches steps i j) {m : Nat} (hi : i < m)
    (hj : m ≤ j) :
    ∃ opened closed, openings (steps.take m) = openings (steps.take i) + 1 + opened ∧
      closings (steps.take m) = closings (steps.take i) + closed ∧ closed ≤ opened ∧
      (m = j → closed = opened) := by
  obtain ⟨-, ⟨x, hx⟩, -, hnested, hcounts⟩ := h
  have hprefix : (between steps i j).take (m - (i + 1)) = (steps.drop (i + 1)).take (m - (i + 1)) := by
    rw [between, List.take_take, Nat.min_eq_left (by omega)]
  have hparts : steps.take m =
      steps.take i ++ [.opening x] ++ (steps.drop (i + 1)).take (m - (i + 1)) := by
    have hm : i + 1 + (m - (i + 1)) = m := by omega
    rw [← hm, List.take_add, List.take_add_one, hx, hm]
    rfl
  refine ⟨openings ((steps.drop (i + 1)).take (m - (i + 1))),
    closings ((steps.drop (i + 1)).take (m - (i + 1))), ?_, ?_, hprefix ▸ hnested _, ?_⟩
  · rw [hparts, openings_append, openings_append]
    rfl
  · rw [hparts, closings_append, closings_append]
    rfl
  · rintro rfl
    exact hcounts.symm

theorem Matches.deeper {steps : List Step} (h : Nested steps) {i j : Nat} (hmatch : Matches steps i j) :
    ∃ d, depth? steps i = some d ∧ depth? steps j = some d ∧
      ∀ k, i < k → k < j → ∃ e, depth? steps k = some e ∧ d < e := by
  obtain ⟨x, hx⟩ := hmatch.opening
  obtain ⟨suffix, hsuffix⟩ := hmatch.closing
  have hle := h i
  refine ⟨_, depth?_eq h hx, ?_, fun k hik hkj => ?_⟩
  · obtain ⟨opened, closed, hopenings, hclosings, -, hequal⟩ := hmatch.counts hmatch.before le_rfl
    have hlast := hequal rfl
    rw [depth?_eq h hsuffix, reach_opening, reach_closing, List.take_add_one, hsuffix]
    simp
    omega
  · have hk : k < steps.length := hkj.trans (List.getElem?_eq_some_iff.mp hsuffix).1
    refine ⟨_, depth?_eq h (List.getElem?_eq_getElem hk), ?_⟩
    have hreach : i < reach k steps[k] ∧ reach k steps[k] ≤ j := by
      rw [reach]
      split <;> omega
    obtain ⟨opened, closed, hopenings, hclosings, hless, -⟩ := hmatch.counts hreach.1 hreach.2
    rw [hopenings, hclosings, reach_opening]
    omega

theorem exists_matches {steps : List Step} (h : Nested steps) {j : Nat} {suffix : String}
    (hj : steps[j]? = some (.closing suffix)) : ∃ i, Matches steps i j := by
  have hclosed : closings (steps.take j) < openings (steps.take j) := by
    have hnext := h (j + 1)
    rw [List.take_add_one, hj] at hnext
    simpa using hnext
  obtain ⟨blocks, hstack⟩ := exists_stack (h.take j)
  -- the match is the innermost block that is open before the closing: nothing is left open inside it
  cases blocks with
  | nil => exact absurd hstack.length (Nat.ne_of_gt hclosed)
  | cons i blocks =>
      obtain ⟨⟨x, hx⟩, hnested⟩ := (hstack.pending i).mp List.mem_cons_self
      have hcounts := hstack.inside 0 i rfl
      rw [List.drop_take] at hnested hcounts
      rw [List.getElem?_take] at hx
      split at hx
      · next hij => exact ⟨i, hij, ⟨x, hx⟩, ⟨suffix, hj⟩, hnested, hcounts⟩
      · cases hx

/-- A closing closes one block and no other: another match would open in the block, and deeper. -/
theorem existsUnique_matches {steps : List Step} (h : Nested steps) {j : Nat} {suffix : String}
    (hj : steps[j]? = some (.closing suffix)) : ∃! i, Matches steps i j := by
  have hnot {i k : Nat} (hi : Matches steps i j) (hk : Matches steps k j) : ¬ i < k := by
    intro hik
    obtain ⟨d, -, hdepth, hinside⟩ := hi.deeper h
    obtain ⟨e, hopening, hclosing, -⟩ := hk.deeper h
    obtain ⟨e', hdeeper, hlt⟩ := hinside k hik hk.before
    have hde : d = e := Option.some.inj (hdepth.symm.trans hclosing)
    have hee : e = e' := Option.some.inj (hopening.symm.trans hdeeper)
    omega
  obtain ⟨i, hi⟩ := exists_matches h hj
  refine ⟨i, hi, fun k hk => ?_⟩
  exact Nat.le_antisymm (Nat.not_lt.mp (hnot hi hk)) (Nat.not_lt.mp (hnot hk hi))

/-- The block comes from the other by steps that close what they open. -/
def Extends (before after : CodeBlock) : Prop :=
  ∃ steps, Balanced steps ∧ after = steps.foldl Step.run before

namespace Extends

theorem refl (b : CodeBlock) : Extends b b := ⟨[], ⟨nested_nil, rfl⟩, rfl⟩

theorem trans {a b c : CodeBlock} (hab : Extends a b) (hbc : Extends b c) : Extends a c := by
  obtain ⟨xs, ⟨hxs, hxs'⟩, rfl⟩ := hab
  obtain ⟨ys, ⟨hys, hys'⟩, rfl⟩ := hbc
  exact ⟨xs ++ ys, ⟨hxs.append hys, by simp [hxs', hys']⟩, List.foldl_append.symm⟩

theorem plain (b : CodeBlock) {s : Step} (hopens : s.opens = false) (hcloses : s.closes = false) :
    Extends b (s.run b) :=
  ⟨[s], ⟨nested_singleton hcloses, by simp [hopens, hcloses]⟩, rfl⟩

theorem line (b : CodeBlock) (x : Snippet) : Extends b (b.line x) := plain b (s := .line x) rfl rfl

theorem statement (b : CodeBlock) (x : Snippet) : Extends b (b.statement x) :=
  plain b (s := .statement x) rfl rfl

theorem enclosed {b inner : CodeBlock} {x : Snippet} (h : Extends (b.opening x) inner) (suffix : String) :
    Extends b (inner.closing suffix) := by
  obtain ⟨steps, ⟨hnested, hcounts⟩, rfl⟩ := h
  have hopened : Nested ([.opening x] ++ steps) := (nested_singleton rfl).append hnested
  have hequal : openings ([.opening x] ++ steps ++ [.closing suffix]) =
      closings ([.opening x] ++ steps ++ [.closing suffix]) := by
    rw [openings_append, openings_append, closings_append, closings_append, hcounts]
    change 1 + closings steps + 0 = 0 + closings steps + 1
    omega
  refine ⟨[.opening x] ++ steps ++ [.closing suffix], ⟨?_, hequal⟩, ?_⟩
  · exact nested_append_singleton.mpr ⟨hopened, hequal.ge⟩
  · rw [List.foldl_append, List.foldl_append]
    rfl

theorem foldl {α : Type} {f : CodeBlock → α → CodeBlock} (h : ∀ b a, Extends b (f b a)) (as : List α)
    (b : CodeBlock) : Extends b (as.foldl f b) := by
  induction as generalizing b with
  | nil => exact refl b
  | cons a as ih => exact (h b a).trans (ih (f b a))

end Extends

/-- Steps that close nothing that is not open make the block, and in the end nothing is open. -/
def Finished (b : CodeBlock) : Prop := ∃ steps, Nested steps ∧ b = block steps ∧ b.isBalanced

theorem isBalanced_iff {steps : List Step} (h : Nested steps) :
    (block steps).isBalanced ↔ openings steps = closings steps := by
  have hle := h.le
  rw [CodeBlock.isBalanced, decide_eq_true_iff, depth_block h]
  omega

theorem Extends.finished {b : CodeBlock} (h : Extends .empty b) : Finished b := by
  obtain ⟨steps, ⟨hnested, hcounts⟩, rfl⟩ := h
  exact ⟨steps, hnested, rfl, (isBalanced_iff hnested).mpr hcounts⟩

section Bodies

variable (options : Options)

theorem extends_addListener (b : MethodBinding) (code : CodeBlock) :
    Extends code (Companion.addListener options b code) :=
  .enclosed ((Extends.line _ _).trans (.enclosed (.statement _ _) _)) _

theorem extends_addHandler (code : CodeBlock) (b : MethodBinding) :
    Extends code (Companion.addHandler options code b) :=
  (extends_addListener options b code).trans (.foldl (fun _ _ => .statement _ _) _ _)

theorem extends_body (c : Companion) : Extends .empty (c.body options) := by
  have hassigned : Extends .empty
      (c.fields.foldl (fun code b => code.statement (Companion.assignment b)) CodeBlock.empty) :=
    .foldl (fun _ _ => .statement _ _) _ _
  rw [Companion.body]
  split
  · exact hassigned
  · exact (hassigned.trans (.statement _ _)).trans (.foldl (extends_addHandler options) _ _)

theorem extends_search (entries : List RegistryEntry) : Extends .empty (Registry.body options entries) := by
  have hentry (code : CodeBlock) (e : RegistryEntry) : Extends code (Registry.addEntry options code e) :=
    .enclosed (.statement _ _) _
  exact (Extends.foldl hentry entries .empty).trans (.statement _ _)

end Bodies

/-- In a block made by these steps each line stands as deep as there are blocks around it, and each closing
closes one block: it stands under its opening, and what is between them stands deeper. -/
structure Laid (steps : List Step) : Prop where
  balanced : (block steps).isBalanced ↔ openings steps = closings steps
  size : (block steps).lines.size = steps.length
  line : ∀ n s, steps[n]? = some s →
    (block steps).lines[n]? = some (CodeLine.mk {i | Around steps n i}.ncard s.snippet)
  closed : ∀ j suffix, steps[j]? = some (.closing suffix) → ∃! i, Matches steps i j
  deeper : ∀ i j, Matches steps i j → ∃ d, depth? steps i = some d ∧ depth? steps j = some d ∧
    ∀ k, i < k → k < j → ∃ e, depth? steps k = some e ∧ d < e

/-- Every step adds one line and leaves those before it. If no step closes what is not open, all lines stand
where their blocks want them, and in the end nothing is open exactly if as much is closed as is
opened. The methods of companions and of tables are made in this way, and nothing in them stays open. -/
theorem blocks_laid :
    (∀ steps s, ∃ line, (block (steps ++ [s])).lines = (block steps).lines.push line) ∧
    (∀ steps, Nested steps → Laid steps) ∧
    (∀ options (c : Companion), ∀ m ∈ (c.file options).type.methods, Finished m.body) ∧
    ∀ options name entries, ∀ m ∈ (Registry.file options name entries).type.methods, Finished m.body := by
  refine ⟨fun steps s => ?_, fun steps h => ?_, fun options c => ?_, fun options name entries => ?_⟩
  · exact ⟨_, by rw [block_append_singleton, lines_run]⟩
  · refine ⟨isBalanced_iff h, size_lines steps, fun n s hs => ?_, fun j suffix => existsUnique_matches h,
      fun i j => Matches.deeper h⟩
    rw [getElem?_lines hs, ncard_around h hs, ← depth_lineOf h hs]
    rfl
  · exact List.forall_mem_singleton.mpr (extends_body options c).finished
  · exact List.forall_mem_cons.mpr ⟨(Extends.refl .empty).finished,
      List.forall_mem_singleton.mpr (extends_search options entries).finished⟩

def tapSteps : List Step :=
  [.opening "view.on(new Tap()", .opening "if (ready)", .statement "tap()", .closing "", .closing ");",
    .statement "done()"]

theorem blocks_laid_tapSteps :
    Nested tapSteps ∧ (block tapSteps).isBalanced ∧
    (block tapSteps).lines.toList.map CodeLine.depth = [0, 1, 2, 1, 0, 0] ∧
    ∃! i, Matches tapSteps i 4 := by
  have hnested : Nested tapSteps := by decide
  have hlaid := blocks_laid.2.1 tapSteps hnested
  exact ⟨hnested, hlaid.balanced.mpr rfl, rfl, hlaid.closed 4 ");" rfl⟩

end ViewBinding.Proofs.Nesting
