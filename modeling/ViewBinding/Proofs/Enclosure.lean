import ViewBinding.Proofs.Grounds
import ViewBinding.Proofs.Qualified

namespace ViewBinding.Proofs.Enclosure

open Text ClassName Reading Qualified Grounds

variable {t : TypeDecl} {scope : ClassName} {depth : Nat}

/-- The class reached from the outermost simple name, one name inwards at each step. There is none if a
name on the way is missing. -/
def reached? (c : ClassName) : Nat → Option ClassName
  | 0 => c.names[0]?.map (ofTopLevel c.package)
  | depth + 1 => do
      let around ← reached? c depth
      let simple ← c.names[depth + 1]?
      pure (around.nested simple)

theorem nested_enclosing (c : ClassName) (h : depth < c.inner.length) :
    (c.enclosing depth).nested c.inner[depth] = c.enclosing (depth + 1) := by
  rw [nested, enclosing, enclosing, List.take_append_getElem h]

theorem reached?_of_lt {c : ClassName} (h : depth < c.names.length) :
    reached? c depth = some (c.enclosing depth) := by
  induction depth with
  | zero => rfl
  | succ depth ih =>
      have hinner : depth < c.inner.length := Nat.lt_of_succ_lt_succ h
      have hname : c.names[depth + 1]? = some c.inner[depth] := List.getElem?_eq_getElem hinner
      rw [reached?, ih (Nat.lt_of_succ_lt h), hname]
      exact congrArg some (nested_enclosing c hinner)

theorem reached?_eq_some_iff {c : ClassName} :
    reached? c depth = some scope ↔ depth < c.names.length ∧ scope = c.enclosing depth := by
  constructor
  · intro h
    have hlt : depth < c.names.length := by
      -- the last name on the way is there
      cases depth with
      | zero => exact Nat.succ_pos _
      | succ depth =>
          simp only [reached?, bind, Option.bind_eq_some_iff] at h
          obtain ⟨around, -, simple, hname, -⟩ := h
          exact (List.getElem?_eq_some_iff.mp hname).1
    rw [reached?_of_lt hlt] at h
    exact ⟨hlt, (Option.some.inj h).symm⟩
  · rintro ⟨hlt, rfl⟩
    exact reached?_of_lt hlt

/-- The modifiers given for the types around a type are one for each, and some of them say private. -/
def PrivateAround (t : TypeDecl) : Prop :=
  t.name.names.length = t.enclosing.length + 1 ∧
    ∃ around ∈ t.enclosing, around.contains .privateAccess = true

theorem lt_of_privateAt (h : PrivateAt t depth) : depth < t.name.names.length := by
  have hknown := length_knownEnclosing_le t
  have hnames : t.name.names.length = t.name.inner.length + 1 := rfl
  rcases h with ⟨around, hget, -⟩ | ⟨hinnermost, -⟩
  · have hlt := (List.getElem?_eq_some_iff.mp hget).1
    omega
  · omega

theorem privateAround_iff :
    PrivateAround t ↔ ∃ around ∈ t.knownEnclosing, around.contains .privateAccess = true := by
  have hknown : t.name.names.length = t.enclosing.length + 1 ↔ t.enclosingKnown = true := by
    rw [TypeDecl.enclosingKnown, decide_eq_true_eq, names, List.length_cons, Nat.add_right_cancel_iff,
      eq_comm]
  rw [PrivateAround, hknown, TypeDecl.knownEnclosing]
  split
  · next h => exact and_iff_right h
  · next h =>
      refine iff_of_false (fun hboth => h hboth.1) ?_
      rintro ⟨_, hmem, -⟩
      exact List.not_mem_nil hmem

theorem exists_privateAt_iff :
    (∃ depth, PrivateAt t depth) ↔ t.modifiers.contains .privateAccess = true ∨ PrivateAround t := by
  rw [privateAround_iff]
  constructor
  · rintro ⟨depth, ⟨around, hget, haround⟩ | ⟨-, hown⟩⟩
    · exact .inr ⟨around, List.mem_of_getElem? hget, haround⟩
    · exact .inl hown
  · rintro (hown | ⟨around, hmem, haround⟩)
    · exact ⟨t.name.inner.length, .inr ⟨rfl, hown⟩⟩
    · obtain ⟨depth, hget⟩ := List.getElem?_of_mem hmem
      exact ⟨depth, .inl ⟨around, hget, haround⟩⟩

theorem privateScope_isSome_iff : t.privateScope.isSome = true ↔ ∃ depth, PrivateAt t depth := by
  rw [exists_privateAt_iff, privateAround_iff, TypeDecl.privateScope]
  cases hfind : t.knownEnclosing.findIdx? (·.contains .privateAccess) with
  | some depth =>
      obtain ⟨hlt, hprivate, -⟩ := List.findIdx?_eq_some_iff_getElem.mp hfind
      exact iff_of_true rfl (.inr ⟨_, List.getElem_mem hlt, hprivate⟩)
  | none =>
      have hfree : ¬ ∃ around ∈ t.knownEnclosing, around.contains .privateAccess = true := by
        rintro ⟨around, hmem, haround⟩
        rw [List.findIdx?_eq_none_iff.mp hfind around hmem] at haround
        cases haround
      rw [or_iff_left hfree]
      split <;> simp_all

theorem privateScope_eq_some_iff : t.privateScope = some scope ↔ OutermostPrivate t scope := by
  refine ⟨outermostPrivate_privateScope, fun ⟨depth, hscope, hprivate, houter⟩ => ?_⟩
  obtain ⟨found, hfound⟩ := Option.isSome_iff_exists.mp (privateScope_isSome_iff.mpr ⟨depth, hprivate⟩)
  obtain ⟨depth', hscope', hprivate', houter'⟩ := outermostPrivate_privateScope hfound
  have hdepth : depth = depth' :=
    Nat.le_antisymm (Nat.le_of_not_lt fun hlt => houter depth' hlt hprivate')
      (Nat.le_of_not_lt fun hlt => houter' depth hlt hprivate)
  rw [hfound, hscope', hscope, hdepth]

theorem privateScope_iff_reached : t.privateScope = some scope ↔
    ∃ depth < t.name.names.length, PrivateAt t depth ∧ (∀ outer < depth, ¬ PrivateAt t outer) ∧
      reached? t.name depth = some scope := by
  rw [privateScope_eq_some_iff]
  constructor
  · rintro ⟨depth, rfl, hprivate, houter⟩
    have hlt := lt_of_privateAt hprivate
    exact ⟨depth, hlt, hprivate, houter, reached?_of_lt hlt⟩
  · rintro ⟨depth, -, hprivate, houter, hreached⟩
    exact ⟨depth, (reached?_eq_some_iff.mp hreached).2, hprivate, houter⟩

theorem privateScope_eq_self (hown : t.modifiers.contains .privateAccess = true)
    (haround : ¬ PrivateAround t) : t.privateScope = some t.name := by
  rw [privateScope_eq_some_iff]
  refine ⟨t.name.inner.length, ?_, .inr ⟨rfl, hown⟩, fun outer houter hprivate => ?_⟩
  · rw [enclosing, List.take_length]
  · rcases hprivate with ⟨around, hget, hprivate⟩ | ⟨hinnermost, -⟩
    · exact haround (privateAround_iff.mpr ⟨around, List.mem_of_getElem? hget, hprivate⟩)
    · omega

theorem names_of_reached {c : ClassName} (h : reached? c depth = some scope) :
    scope.package = c.package ∧ scope.names = c.names.take (depth + 1) := by
  obtain ⟨-, rfl⟩ := reached?_eq_some_iff.mp h
  exact ⟨rfl, rfl⟩

theorem names_of_guess {text : String} {c : ClassName} (h : guess text = .ok c) :
    c.names = (split '.' (trimmed text)).dropWhile fun s => !startsUpper s := by
  obtain ⟨hsplit, hc⟩ := guess_eq_ok h
  rw [hsplit, hc.dropWhile_lower]

/-- A type lies in a private scope exactly if it is private itself, or if all types around it are known and
one of them is private. The scope is the class at the least depth at which there is a private type; it is
reached through simple names that are all there, shares the package, and is named by the simple names up
to this depth, which are all of them if the type is private and none around it is. Classes always have
simple names, whether they are made from names or read from texts. -/
theorem privateScope_answers (t : TypeDecl) :
    (t.privateScope.isSome = true ↔
      t.modifiers.contains .privateAccess = true ∨ PrivateAround t) ∧
    (∀ scope, t.privateScope = some scope ↔ ∃ depth < t.name.names.length,
      PrivateAt t depth ∧ (∀ outer < depth, ¬ PrivateAt t outer) ∧
        reached? t.name depth = some scope) ∧
    (∀ depth scope, reached? t.name depth = some scope →
      scope.package = t.name.package ∧ scope.names = t.name.names.take (depth + 1)) ∧
    (t.modifiers.contains .privateAccess = true → ¬ PrivateAround t → t.privateScope = some t.name) ∧
    (∀ package simple, (ofTopLevel package simple).names = [simple]) ∧
    (∀ (c : ClassName) simple, (c.nested simple).names = c.names ++ [simple]) ∧
    (∀ text c, guess text = .ok c →
      c.names ≠ [] ∧ c.names = (split '.' (trimmed text)).dropWhile fun s => !startsUpper s) ∧
    ∀ package text c, within package text = .ok c →
      c.names ≠ [] ∧ split '.' (trimmed text) = segments (trimmed package) ++ c.names := by
  refine ⟨privateScope_isSome_iff.trans exists_privateAt_iff, fun scope => privateScope_iff_reached,
    fun depth scope => names_of_reached, privateScope_eq_self, fun _ _ => rfl, fun _ _ => rfl, ?_, ?_⟩
  · exact fun text c h => ⟨c.names_ne_nil, names_of_guess h⟩
  · exact fun package text c h => ⟨c.names_ne_nil, (within_eq_ok h).2.1⟩

def innermost : TypeDecl :=
  ⟨⟨"app", "Outer", ["Middle", "Inner"]⟩, .ordinary, ∅, [∅, .ofList [.privateAccess]], [], []⟩

theorem privateScope_answers_innermost :
    innermost.privateScope = some ⟨"app", "Outer", ["Middle"]⟩ := by
  refine ((privateScope_answers innermost).2.1 _).mpr ⟨1, by decide, .inl ⟨_, rfl, by decide⟩, ?_, rfl⟩
  rintro outer houter (⟨around, hget, haround⟩ | ⟨hinnermost, -⟩)
  · obtain rfl := Nat.lt_one_iff.mp houter
    cases hget
    revert haround
    decide
  · cases hinnermost
    revert houter
    decide

/-- Modifiers of one more type than there are around a type are not taken into account. -/
example : { innermost with enclosing := ∅ :: innermost.enclosing }.privateScope = none := by
  decide

end ViewBinding.Proofs.Enclosure
