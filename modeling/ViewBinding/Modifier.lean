namespace ViewBinding

inductive Modifier where
  | publicAccess | protectedAccess | privateAccess | static | final | abstract | synchronized
  | transient | volatile | native | defaultBody
  deriving DecidableEq, Repr

namespace Modifier

def all : List Modifier :=
  [.publicAccess, .protectedAccess, .privateAccess, .static, .final, .abstract, .synchronized,
    .transient, .volatile, .native, .defaultBody]

def sourceOrder : List Modifier :=
  [.publicAccess, .protectedAccess, .privateAccess, .abstract, .defaultBody, .static, .final,
    .transient, .volatile, .synchronized, .native]

def keyword : Modifier → String
  | .publicAccess => "public"
  | .protectedAccess => "protected"
  | .privateAccess => "private"
  | .static => "static"
  | .final => "final"
  | .abstract => "abstract"
  | .synchronized => "synchronized"
  | .transient => "transient"
  | .volatile => "volatile"
  | .native => "native"
  | .defaultBody => "default"

def position : Modifier → Nat
  | .publicAccess => 0
  | .protectedAccess => 1
  | .privateAccess => 2
  | .static => 3
  | .final => 4
  | .abstract => 5
  | .synchronized => 6
  | .transient => 7
  | .volatile => 8
  | .native => 9
  | .defaultBody => 10

theorem position_lt (m : Modifier) : m.position < 11 := by cases m <;> decide

theorem position_inj {m n : Modifier} (h : m.position = n.position) : m = n := by
  cases m <;> cases n <;> first | rfl | exact absurd h (by decide)

theorem mem_all (m : Modifier) : m ∈ all := by cases m <;> decide

theorem mem_sourceOrder (m : Modifier) : m ∈ sourceOrder := by cases m <;> decide

end Modifier

/-- A word with one bit for each modifier, so that equal sets are equal values whatever the order they
were listed in. -/
structure Modifiers where
  mask : BitVec 11
  deriving DecidableEq, Repr

namespace Modifiers

def empty : Modifiers := ⟨0⟩

instance : EmptyCollection Modifiers := ⟨empty⟩

instance : Inhabited Modifiers := ⟨empty⟩

def contains (s : Modifiers) (m : Modifier) : Bool := s.mask.getLsbD m.position

def insert (s : Modifiers) (m : Modifier) : Modifiers := ⟨s.mask ||| BitVec.twoPow 11 m.position⟩

def ofList (ms : List Modifier) : Modifiers := ms.foldl insert empty

def isEmpty (s : Modifiers) : Bool := s.mask = 0

def toList (s : Modifiers) : List Modifier := Modifier.sourceOrder.filter s.contains

theorem contains_insert (s : Modifiers) (m n : Modifier) :
    (s.insert m).contains n = (s.contains n || decide (m = n)) := by
  simp only [contains, insert, BitVec.getLsbD_or, BitVec.getLsbD_twoPow, m.position_lt, decide_true,
    Bool.true_and]
  congr 1
  exact decide_eq_decide.mpr ⟨Modifier.position_inj, congrArg _⟩

@[simp] theorem contains_empty (m : Modifier) : empty.contains m = false := by simp [contains, empty]

theorem contains_foldl_insert (ms : List Modifier) (s : Modifiers) (n : Modifier) :
    (ms.foldl insert s).contains n = (s.contains n || decide (n ∈ ms)) := by
  induction ms generalizing s with
  | nil => simp
  | cons m ms ih =>
      rw [List.foldl_cons, ih, contains_insert]
      by_cases h : n = m <;> simp [h, Ne.symm]

@[simp] theorem contains_ofList (ms : List Modifier) (n : Modifier) :
    (ofList ms).contains n = decide (n ∈ ms) := by
  simp [ofList, contains_foldl_insert]

theorem mem_toList {s : Modifiers} {m : Modifier} : m ∈ s.toList ↔ s.contains m = true := by
  simp [toList, m.mem_sourceOrder]

end Modifiers

end ViewBinding
