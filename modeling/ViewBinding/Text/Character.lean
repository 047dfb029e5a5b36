namespace ViewBinding.Text

namespace Table

abbrev Ranges := List (Nat × Nat)

def covers (ranges : Ranges) (c : Char) : Bool :=
  ranges.any fun (low, high) => low ≤ c.toNat && c.toNat ≤ high

theorem covers_iff {ranges : Ranges} {c : Char} :
    covers ranges c = true ↔ ∃ r ∈ ranges, r.1 ≤ c.toNat ∧ c.toNat ≤ r.2 := by
  simp [covers]

def apart (a b : Ranges) : Bool := a.all fun r => b.all fun s => r.2 < s.1 || s.2 < r.1

theorem covers_eq_false_of_apart {a b : Ranges} (h : apart a b = true) {c : Char}
    (ha : covers a c = true) : covers b c = false := by
  rw [Bool.eq_false_iff]
  intro hb
  obtain ⟨r, hr, hrlow, hrhigh⟩ := covers_iff.mp ha
  obtain ⟨s, hs, hslow, hshigh⟩ := covers_iff.mp hb
  simp only [apart, List.all_eq_true, Bool.or_eq_true, decide_eq_true_eq] at h
  rcases h r hr s hs with hrs | hsr
  · omega
  · omega

end Table

def blankRanges : Table.Ranges :=
  [(0x9, 0xD), (0x20, 0x20), (0x85, 0x85), (0xA0, 0xA0), (0x1680, 0x1680), (0x2000, 0x200A),
  (0x2028, 0x2029), (0x202F, 0x202F), (0x205F, 0x205F), (0x3000, 0x3000)]

/-- The Unicode property White_Space. -/
def isBlank (c : Char) : Bool := Table.covers blankRanges c

def trimStart (s : List Char) : List Char := s.dropWhile isBlank

def trimEnd (s : List Char) : List Char := (s.reverse.dropWhile isBlank).reverse

def trim (s : List Char) : List Char := trimEnd (trimStart s)

theorem trim_eq_self {s : List Char} (h : ∀ c ∈ s, isBlank c = false) : trim s = s := by
  have hkeep : ∀ r : List Char, (∀ c ∈ r, isBlank c = false) → r.dropWhile isBlank = r := by
    intro r hr
    cases r with
    | nil => rfl
    | cons c r => simp [hr c List.mem_cons_self]
  rw [trim, trimStart, hkeep s h, trimEnd, hkeep _ fun c hc => h c (List.mem_reverse.mp hc),
    List.reverse_reverse]

def trimmed (s : String) : String := String.ofList (trim s.toList)

@[simp] theorem toList_trimmed (s : String) : (trimmed s).toList = trim s.toList := by
  simp [trimmed]

end ViewBinding.Text
