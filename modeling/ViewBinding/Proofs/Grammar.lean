import Mathlib.Data.List.DropRight
import ViewBinding.Proofs.Remainder

namespace ViewBinding.Proofs.Grammar

open Json Remainder

section Levels

variable {values : List Char → Json → List Char → Prop}
  {lists : List Char → List Json → List Char → Prop}
  {objects : List Char → List (String × Json) → List Char → Prop}

/-- A value at the very start of a text, and what is left of the text after it. How the insides of
lists and objects are spelled is a parameter; both begin behind white space. -/
inductive Spelled (lists : List Char → List Json → List Char → Prop)
    (objects : List Char → List (String × Json) → List Char → Prop) :
    List Char → Json → List Char → Prop
  | null {t r} (h : readWord ['u', 'l', 'l'] t = .ok r) : Spelled lists objects ('n' :: t) .null r
  | yes {t r} (h : readWord ['r', 'u', 'e'] t = .ok r) :
      Spelled lists objects ('t' :: t) (.boolean true) r
  | no {t r} (h : readWord ['a', 'l', 's', 'e'] t = .ok r) :
      Spelled lists objects ('f' :: t) (.boolean false) r
  | string {t w r} (h : readString t = .ok (w, r)) : Spelled lists objects ('"' :: t) (.string w) r
  | integer {c t i r} (hc : startsNumber c = true) (h : readNumber (c :: t) = .ok (.integer i, r)) :
      Spelled lists objects (c :: t) (.integer i) r
  | real {c t x r} (hc : startsNumber c = true) (h : readNumber (c :: t) = .ok (.real x, r)) :
      Spelled lists objects (c :: t) (.real x) r
  | emptyList {t r} (h : skipSpace t = ']' :: r) : Spelled lists objects ('[' :: t) (.array []) r
  | list {t d u vs r} (h : skipSpace t = d :: u) (hd : d ≠ ']') (hvs : lists (d :: u) vs r) :
      Spelled lists objects ('[' :: t) (.array vs) r
  | emptyObject {t r} (h : skipSpace t = '\x7d' :: r) :
      Spelled lists objects ('\x7b' :: t) (.object []) r
  | object {t d u ms r} (h : skipSpace t = d :: u) (hd : d ≠ '\x7d') (hms : objects (d :: u) ms r) :
      Spelled lists objects ('\x7b' :: t) (.object ms) r

inductive SpelledList (values : List Char → Json → List Char → Prop)
    (lists : List Char → List Json → List Char → Prop) : List Char → List Json → List Char → Prop
  | last {s v t r} (hv : values s v t)
      (hend : readComma ']' .endInList .expectedListEnd t = .ok (none, r)) :
      SpelledList values lists s [v] r
  | more {s v t next u vs r} (hv : values s v t)
      (hnext : readComma ']' .endInList .expectedListEnd t = .ok (some next, u))
      (hvs : lists u vs r) : SpelledList values lists s (v :: vs) r

inductive SpelledObject (values : List Char → Json → List Char → Prop)
    (objects : List Char → List (String × Json) → List Char → Prop) :
    List Char → List (String × Json) → List Char → Prop
  | last {s key a b v t r} (hkey : readString s = .ok (key, a)) (hcolon : readColon a = .ok b)
      (hv : values b v t) (hend : readComma '\x7d' .endInObject .expectedObjectEnd t = .ok (none, r)) :
      SpelledObject values objects ('"' :: s) [(key, v)] r
  | more {s key a b v t next u ms r} (hkey : readString s = .ok (key, a))
      (hcolon : readColon a = .ok b) (hv : values b v t)
      (hnext : readComma '\x7d' .endInObject .expectedObjectEnd t = .ok (some next, u))
      (hms : objects u ms r) : SpelledObject values objects ('"' :: s) ((key, v) :: ms) r

theorem spelled_of_readValue {n : Nat} {s r : List Char} {v : Json}
    (h : readValue (n + 1) s = .ok (v, r)) :
    Spelled (fun t vs r => readElements n t = .ok (vs, r))
      (fun t ms r => readMembers n t = .ok (ms, r)) (skipSpace s) v r := by
  rw [readValue] at h
  generalize skipSpace s = s at h ⊢
  split at h
  · cases h
  next c t =>
    split at h
    next hnull =>
      subst hnull
      obtain ⟨_, hr, h⟩ := bind_eq_ok.mp h
      cases h
      exact .null hr
    split at h
    next hyes =>
      subst hyes
      obtain ⟨_, hr, h⟩ := bind_eq_ok.mp h
      cases h
      exact .yes hr
    split at h
    next hno =>
      subst hno
      obtain ⟨_, hr, h⟩ := bind_eq_ok.mp h
      cases h
      exact .no hr
    split at h
    next hquote =>
      subst hquote
      obtain ⟨_, hr, h⟩ := bind_eq_ok.mp h
      cases h
      exact .string hr
    split at h
    next hnumber =>
      obtain ⟨⟨i | x, _⟩, hr, h⟩ := bind_eq_ok.mp h
      · cases h
        exact .integer hnumber hr
      · cases h
        exact .real hnumber hr
    split at h
    next hlist =>
      subst hlist
      split at h
      · cases h
      next d u ht =>
        split at h
        next hd =>
          cases h
          exact .emptyList (hd ▸ ht)
        next hd =>
          obtain ⟨_, hr, h⟩ := bind_eq_ok.mp h
          cases h
          exact .list ht hd hr
    split at h
    next hobject =>
      subst hobject
      split at h
      · cases h
      next d u ht =>
        split at h
        next hd =>
          cases h
          exact .emptyObject (hd ▸ ht)
        next hd =>
          obtain ⟨_, hr, h⟩ := bind_eq_ok.mp h
          cases h
          exact .object ht hd hr
    · cases h

theorem readValue_of_spelled {n : Nat} {s r : List Char} {v : Json}
    (h : Spelled (fun t vs r => readElements n t = .ok (vs, r))
      (fun t ms r => readMembers n t = .ok (ms, r)) (skipSpace s) v r) :
    readValue (n + 1) s = .ok (v, r) := by
  rw [readValue]
  generalize skipSpace s = s at h ⊢
  have hword : ∀ {c : Char}, startsNumber c = true → c ≠ 'n' ∧ c ≠ 't' ∧ c ≠ 'f' ∧ c ≠ '"' := by
    intro c hc
    refine ⟨?_, ?_, ?_, ?_⟩ <;> rintro rfl <;> revert hc <;> decide
  cases h with
  | null h | yes h | no h | string h => simp [h, bind, Except.bind]
  | integer hc h | real hc h => simp [h, hc, hword hc, bind, Except.bind]
  | emptyList h | emptyObject h => simp [h, startsNumber]
  | list h hd hvs => simp [h, hd, hvs, startsNumber, bind, Except.bind]
  | object h hd hms => simp [h, hd, hms, startsNumber, bind, Except.bind]

theorem readValue_succ {n : Nat} {s r : List Char} {v : Json} :
    readValue (n + 1) s = .ok (v, r) ↔
      Spelled (fun t vs r => readElements n t = .ok (vs, r))
        (fun t ms r => readMembers n t = .ok (ms, r)) (skipSpace s) v r :=
  ⟨spelled_of_readValue, readValue_of_spelled⟩

theorem readElements_succ {n : Nat} {s r : List Char} {vs : List Json} :
    readElements (n + 1) s = .ok (vs, r) ↔
      SpelledList (fun t v r => readValue n t = .ok (v, r))
        (fun t vs r => readElements n t = .ok (vs, r)) s vs r := by
  rw [readElements]
  constructor
  · intro h
    obtain ⟨⟨v, t⟩, hv, h⟩ := bind_eq_ok.mp h
    obtain ⟨⟨next, u⟩, hnext, h⟩ := bind_eq_ok.mp h
    cases next with
    | none =>
        cases h
        exact .last hv hnext
    | some _ =>
        obtain ⟨⟨vs, u⟩, hvs, h⟩ := bind_eq_ok.mp h
        cases h
        exact .more hv hnext hvs
  · intro h
    cases h with
    | last hv hend => simp [hv, hend, bind, Except.bind]
    | more hv hnext hvs => simp [hv, hnext, hvs, bind, Except.bind]

theorem readMembers_succ {n : Nat} {s r : List Char} {ms : List (String × Json)} :
    readMembers (n + 1) s = .ok (ms, r) ↔
      SpelledObject (fun t v r => readValue n t = .ok (v, r))
        (fun t ms r => readMembers n t = .ok (ms, r)) s ms r := by
  constructor
  · intro h
    rw [readMembers.eq_def] at h
    dsimp only at h
    split at h
    next s =>
      obtain ⟨⟨key, a⟩, hkey, h⟩ := bind_eq_ok.mp h
      obtain ⟨b, hcolon, h⟩ := bind_eq_ok.mp h
      obtain ⟨⟨v, t⟩, hv, h⟩ := bind_eq_ok.mp h
      obtain ⟨⟨next, u⟩, hnext, h⟩ := bind_eq_ok.mp h
      cases next with
      | none =>
          cases h
          exact .last hkey hcolon hv hnext
      | some _ =>
          obtain ⟨⟨ms, u⟩, hms, h⟩ := bind_eq_ok.mp h
          cases h
          exact .more hkey hcolon hv hnext hms
    · cases h
  · intro h
    cases h with
    | last hkey hcolon hv hend => simp [readMembers, hkey, hcolon, hv, hend, bind, Except.bind]
    | more hkey hcolon hv hnext hms =>
        simp [readMembers, hkey, hcolon, hv, hnext, hms, bind, Except.bind]

/-- How the insides are spelled may be told in another way that comes to the same where a text is
shorter. -/
theorem Spelled.retold {lists' : List Char → List Json → List Char → Prop}
    {objects' : List Char → List (String × Json) → List Char → Prop} {t r : List Char} {v : Json}
    (h : Spelled lists objects t v r)
    (hlists : ∀ u vs, u.length < t.length → lists u vs r → r.length ≤ u.length ∧ lists' u vs r)
    (hobjects : ∀ u ms, u.length < t.length → objects u ms r → r.length ≤ u.length ∧ objects' u ms r) :
    r.length ≤ t.length ∧ Spelled lists' objects' t v r := by
  have hword {c : Char} {s : List Char} (hs : r <:+ s) : r.length ≤ (c :: s).length :=
    Nat.le_succ_of_le hs.length_le
  have hbehind {c d : Char} {s u : List Char} (hs : skipSpace s = d :: u) :
      (d :: u).length < (c :: s).length :=
    Nat.lt_succ_of_le (hs ▸ (skipSpace_suffix s).length_le)
  cases h with
  | null h => exact ⟨hword (readWord_suffix h), .null h⟩
  | yes h => exact ⟨hword (readWord_suffix h), .yes h⟩
  | no h => exact ⟨hword (readWord_suffix h), .no h⟩
  | string h => exact ⟨hword (readString_suffix h), .string h⟩
  | integer hc h => exact ⟨(readNumber_suffix h).length_le, .integer hc h⟩
  | real hc h => exact ⟨(readNumber_suffix h).length_le, .real hc h⟩
  | emptyList h => exact ⟨Nat.le_of_lt (Nat.lt_of_succ_lt (hbehind h)), .emptyList h⟩
  | list h hd hvs =>
      obtain ⟨hr, hvs⟩ := hlists _ _ (hbehind h) hvs
      exact ⟨Nat.le_of_lt (Nat.lt_of_le_of_lt hr (hbehind h)), .list h hd hvs⟩
  | emptyObject h => exact ⟨Nat.le_of_lt (Nat.lt_of_succ_lt (hbehind h)), .emptyObject h⟩
  | object h hd hms =>
      obtain ⟨hr, hms⟩ := hobjects _ _ (hbehind h) hms
      exact ⟨Nat.le_of_lt (Nat.lt_of_le_of_lt hr (hbehind h)), .object h hd hms⟩

theorem SpelledList.retold {values' : List Char → Json → List Char → Prop}
    {lists' : List Char → List Json → List Char → Prop} {s r : List Char} {vs : List Json}
    (h : SpelledList values lists s vs r)
    (hvalues : ∀ v t, values s v t → t.length ≤ s.length ∧ values' s v t)
    (hlists : ∀ u vs, u.length < s.length → lists u vs r → r.length ≤ u.length ∧ lists' u vs r) :
    r.length ≤ s.length ∧ SpelledList values' lists' s vs r := by
  cases h with
  | last hv hend =>
      obtain ⟨ht, hv⟩ := hvalues _ _ hv
      have hr := readComma_length hend
      exact ⟨by omega, .last hv hend⟩
  | more hv hnext hvs =>
      obtain ⟨ht, hv⟩ := hvalues _ _ hv
      have hu := readComma_length hnext
      obtain ⟨hr, hvs⟩ := hlists _ _ (by omega) hvs
      exact ⟨by omega, .more hv hnext hvs⟩

theorem SpelledObject.retold {values' : List Char → Json → List Char → Prop}
    {objects' : List Char → List (String × Json) → List Char → Prop} {s r : List Char}
    {ms : List (String × Json)} (h : SpelledObject values objects s ms r)
    (hvalues : ∀ b v t, b.length < s.length → values b v t → t.length ≤ b.length ∧ values' b v t)
    (hobjects : ∀ u ms, u.length < s.length → objects u ms r → r.length ≤ u.length ∧ objects' u ms r) :
    r.length ≤ s.length ∧ SpelledObject values' objects' s ms r := by
  have hbehind {s a b : List Char} {key : String} (hkey : readString s = .ok (key, a))
      (hcolon : readColon a = .ok b) : b.length < ('"' :: s).length :=
    Nat.lt_succ_of_le ((readColon_suffix hcolon).trans (readString_suffix hkey)).length_le
  cases h with
  | last hkey hcolon hv hend =>
      have hb := hbehind hkey hcolon
      obtain ⟨ht, hv⟩ := hvalues _ _ _ hb hv
      have hr := readComma_length hend
      exact ⟨by omega, .last hkey hcolon hv hend⟩
  | more hkey hcolon hv hnext hms =>
      have hb := hbehind hkey hcolon
      obtain ⟨ht, hv⟩ := hvalues _ _ _ hb hv
      have hu := readComma_length hnext
      obtain ⟨hr, hms⟩ := hobjects _ _ (by omega) hms
      exact ⟨by omega, .more hkey hcolon hv hnext hms⟩

end Levels

/-- A bound under which a text can be read at all may be replaced by twice the length of the text. -/
theorem settled (n : Nat) :
    (∀ {s v r}, readValue n s = .ok (v, r) →
      ∀ m, 2 * s.length ≤ m → r.length ≤ s.length ∧ readValue m s = .ok (v, r)) ∧
    (∀ {s vs r}, readElements n s = .ok (vs, r) →
      ∀ m, 2 * s.length < m → r.length ≤ s.length ∧ readElements m s = .ok (vs, r)) ∧
    ∀ {s ms r}, readMembers n s = .ok (ms, r) →
      ∀ m, 2 * s.length < m → r.length ≤ s.length ∧ readMembers m s = .ok (ms, r) := by
  induction n with
  | zero => exact ⟨nofun, nofun, nofun⟩
  | succ n ih =>
      obtain ⟨hvalues, hlists, hobjects⟩ := ih
      refine ⟨?_, ?_, ?_⟩
      · intro s v r h m hm
        have hspace := (skipSpace_suffix s).length_le
        rw [readValue_succ] at h
        obtain _ | m := m
        · rw [List.eq_nil_of_length_eq_zero (l := s) (by omega)] at h
          cases h
        · exact And.imp (fun hr => Nat.le_trans hr hspace) readValue_succ.mpr
            (h.retold (fun u vs hu h => hlists h m (by omega)) fun u ms hu h => hobjects h m (by omega))
      · intro s vs r h m hm
        obtain _ | m := m
        · omega
        · exact And.imp_right readElements_succ.mpr ((readElements_succ.mp h).retold
            (fun v t h => hvalues h m (by omega)) fun u vs hu h => hlists h m (by omega))
      · intro s ms r h m hm
        obtain _ | m := m
        · omega
        · exact And.imp_right readMembers_succ.mpr ((readMembers_succ.mp h).retold
            (fun b v t hb h => hvalues h m (by omega)) fun u ms hu h => hobjects h m (by omega))

/-- A value, perhaps behind white space, at the start of a text, and what is left of the text. -/
def Value (s : List Char) (v : Json) (r : List Char) : Prop := ∃ n, readValue n s = .ok (v, r)

def Elements (s : List Char) (vs : List Json) (r : List Char) : Prop :=
  ∃ n, readElements n s = .ok (vs, r)

def Entries (s : List Char) (ms : List (String × Json)) (r : List Char) : Prop :=
  ∃ n, readMembers n s = .ok (ms, r)

variable {s r : List Char} {v : Json}

theorem Value.read (h : Value s v r) {m : Nat} (hm : 2 * s.length ≤ m) :
    r.length ≤ s.length ∧ readValue m s = .ok (v, r) :=
  (settled h.choose).1 h.choose_spec m hm

theorem Elements.read {vs : List Json} (h : Elements s vs r) {m : Nat} (hm : 2 * s.length < m) :
    r.length ≤ s.length ∧ readElements m s = .ok (vs, r) :=
  (settled h.choose).2.1 h.choose_spec m hm

theorem Entries.read {ms : List (String × Json)} (h : Entries s ms r) {m : Nat}
    (hm : 2 * s.length < m) : r.length ≤ s.length ∧ readMembers m s = .ok (ms, r) :=
  (settled h.choose).2.2 h.choose_spec m hm

theorem value_iff : Value s v r ↔ Spelled Elements Entries (skipSpace s) v r := by
  have hspace := (skipSpace_suffix s).length_le
  constructor
  · rintro ⟨n, h⟩
    obtain _ | n := n
    · cases h
    · refine ((readValue_succ.mp h).retold (fun u vs hu h => ?_) fun u ms hu h => ?_).2
      · exact ⟨(Elements.read ⟨n, h⟩ (Nat.lt_succ_self _)).1, n, h⟩
      · exact ⟨(Entries.read ⟨n, h⟩ (Nat.lt_succ_self _)).1, n, h⟩
  · intro h
    refine ⟨2 * s.length + 1, readValue_succ.mpr (h.retold (fun u vs hu h => ?_) fun u ms hu h => ?_).2⟩
    · exact h.read (by omega)
    · exact h.read (by omega)

theorem elements_iff {vs : List Json} : Elements s vs r ↔ SpelledList Value Elements s vs r := by
  constructor
  · rintro ⟨n, h⟩
    obtain _ | n := n
    · cases h
    · refine ((readElements_succ.mp h).retold (fun v t h => ?_) fun u vs hu h => ?_).2
      · exact ⟨(Value.read ⟨n, h⟩ (Nat.le_refl _)).1, n, h⟩
      · exact ⟨(Elements.read ⟨n, h⟩ (Nat.lt_succ_self _)).1, n, h⟩
  · intro h
    refine ⟨2 * s.length + 1, readElements_succ.mpr (h.retold (fun v t h => ?_) fun u vs hu h => ?_).2⟩
    · exact h.read (Nat.le_refl _)
    · exact h.read (by omega)

theorem entries_iff {ms : List (String × Json)} :
    Entries s ms r ↔ SpelledObject Value Entries s ms r := by
  constructor
  · rintro ⟨n, h⟩
    obtain _ | n := n
    · cases h
    · refine ((readMembers_succ.mp h).retold (fun b v t hb h => ?_) fun u ms hu h => ?_).2
      · exact ⟨(Value.read ⟨n, h⟩ (Nat.le_refl _)).1, n, h⟩
      · exact ⟨(Entries.read ⟨n, h⟩ (Nat.lt_succ_self _)).1, n, h⟩
  · intro h
    refine ⟨2 * s.length + 1, readMembers_succ.mpr (h.retold (fun b v t hb h => ?_) fun u ms hu h => ?_).2⟩
    · exact h.read (by omega)
    · exact h.read (by omega)

theorem Value.length_le (h : Value s v r) : r.length ≤ s.length := (h.read (Nat.le_refl _)).1

theorem skipSpace_skipSpace (s : List Char) : skipSpace (skipSpace s) = skipSpace s :=
  List.dropWhile_idempotent isSpace s

theorem value_skipSpace : Value (skipSpace s) v r ↔ Value s v r := by
  rw [value_iff, value_iff, skipSpace_skipSpace]

theorem value_null_iff :
    Value s .null r ↔ ∃ t, skipSpace s = 'n' :: t ∧ readWord ['u', 'l', 'l'] t = .ok r := by
  rw [value_iff]
  generalize skipSpace s = s
  constructor
  · rintro ⟨⟩
    next t h => exact ⟨t, rfl, h⟩
  · rintro ⟨t, rfl, h⟩
    exact .null h

theorem value_string_iff {w : String} :
    Value s (.string w) r ↔ ∃ t, skipSpace s = '"' :: t ∧ readString t = .ok (w, r) := by
  rw [value_iff]
  generalize skipSpace s = s
  constructor
  · rintro ⟨⟩
    next t h => exact ⟨t, rfl, h⟩
  · rintro ⟨t, rfl, h⟩
    exact .string h

theorem value_integer_iff {i : Int} :
    Value s (.integer i) r ↔ ∃ c t, skipSpace s = c :: t ∧ startsNumber c = true ∧
      readNumber (c :: t) = .ok (.integer i, r) := by
  rw [value_iff]
  generalize skipSpace s = s
  constructor
  · rintro ⟨⟩
    next c t hc h => exact ⟨c, t, rfl, hc, h⟩
  · rintro ⟨c, t, rfl, hc, h⟩
    exact .integer hc h

def ListBody (s : List Char) (vs : List Json) (r : List Char) : Prop :=
  (vs = [] ∧ skipSpace s = ']' :: r) ∨
    ∃ d u, skipSpace s = d :: u ∧ d ≠ ']' ∧ Elements (d :: u) vs r

def ObjectBody (s : List Char) (ms : List (String × Json)) (r : List Char) : Prop :=
  (ms = [] ∧ skipSpace s = '\x7d' :: r) ∨
    ∃ d u, skipSpace s = d :: u ∧ d ≠ '\x7d' ∧ Entries (d :: u) ms r

theorem value_array_iff {vs : List Json} :
    Value s (.array vs) r ↔ ∃ t, skipSpace s = '[' :: t ∧ ListBody t vs r := by
  rw [value_iff]
  generalize skipSpace s = s
  constructor
  · rintro ⟨⟩
    next t h => exact ⟨t, rfl, .inl ⟨rfl, h⟩⟩
    next t d u h hd hvs => exact ⟨t, rfl, .inr ⟨d, u, h, hd, hvs⟩⟩
  · rintro ⟨t, rfl, ⟨rfl, h⟩ | ⟨d, u, h, hd, hvs⟩⟩
    · exact .emptyList h
    · exact .list h hd hvs

theorem value_object_iff {ms : List (String × Json)} :
    Value s (.object ms) r ↔ ∃ t, skipSpace s = '\x7b' :: t ∧ ObjectBody t ms r := by
  rw [value_iff]
  generalize skipSpace s = s
  constructor
  · rintro ⟨⟩
    next t h => exact ⟨t, rfl, .inl ⟨rfl, h⟩⟩
    next t d u h hd hms => exact ⟨t, rfl, .inr ⟨d, u, h, hd, hms⟩⟩
  · rintro ⟨t, rfl, ⟨rfl, h⟩ | ⟨d, u, h, hd, hms⟩⟩
    · exact .emptyObject h
    · exact .object h hd hms

theorem eq_null_of_value {t : List Char} (hs : skipSpace s = 'n' :: t) (h : Value s v r) :
    v = .null := by
  rw [value_iff, hs] at h
  cases h with
  | null => rfl
  | integer hc | real hc => exact absurd hc (by decide)

theorem parse_eq_ok_iff {text : String} :
    Json.parse text = .ok v ↔ ∃ r, Value text.toList v r ∧ skipSpace r = [] := by
  constructor
  · intro h
    obtain ⟨⟨w, r⟩, hw, h⟩ := bind_eq_ok.mp h
    dsimp only at h
    split at h
    next hr =>
      cases h
      exact ⟨r, ⟨_, hw⟩, hr⟩
    · cases h
  · rintro ⟨r, hv, hr⟩
    have h := (hv.read (Nat.le_succ (2 * text.toList.length))).2
    simp [Json.parse, h, hr, bind, Except.bind]

end ViewBinding.Proofs.Grammar
