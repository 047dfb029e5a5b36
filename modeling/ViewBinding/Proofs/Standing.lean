import ViewBinding.Manifest.Reader
import ViewBinding.Proofs.Grammar

namespace ViewBinding.Proofs.Standing

open Json (skipSpace readString readWord readNumber readColon readComma startsNumber)
open Manifest Remainder Grammar

variable {α : Type}

def valuesOf (key : String) (ms : List (String × Json)) : List Json :=
  (ms.filter (·.1 = key)).map Prod.snd

def others (key : String) (ms : List (String × Json)) : List (String × Json) :=
  ms.filter (·.1 ≠ key)

@[simp] theorem valuesOf_nil (key : String) : valuesOf key [] = [] := rfl

@[simp] theorem others_nil (key : String) : others key [] = [] := rfl

theorem valuesOf_cons (key : String) (m : String × Json) (ms : List (String × Json)) :
    valuesOf key (m :: ms) = if m.1 = key then m.2 :: valuesOf key ms else valuesOf key ms := by
  by_cases h : m.1 = key <;> simp [valuesOf, h]

theorem others_cons (key : String) (m : String × Json) (ms : List (String × Json)) :
    others key (m :: ms) = if m.1 = key then others key ms else m :: others key ms := by
  by_cases h : m.1 = key <;> simp [others, h]

mutual

/-- The value of a shape that a JSON value stands for. -/
def Stands : (shape : Shape) → Json → shape.Carrier → Prop
  | .text, v, text => v = .string text
  | .viewId, v, id => v = .integer id.toInt
  | .modifier, v, m => Keywords.modifiers.ofJson v = .ok m
  | .kind, v, k => Keywords.kinds.ofJson v = .ok k
  | .optional shape, v, a => (v = .null ∧ a = none) ∨ (v ≠ .null ∧ ∃ b, a = some b ∧ Stands shape v b)
  | .list shape, v, as => ∃ vs, v = .array vs ∧ List.Forall₂ (Stands shape) vs as
  | .record _ members, v, a =>
      (∃ ms, v = .object ms ∧ Named members ms a) ∨ (∃ vs, v = .array vs ∧ Listed members vs a)

/-- The record whose members an object names. Each declared member takes the values of its key out of
the object, and there may be one at most; nothing may be left at the end. -/
def Named : (members : Members) → List (String × Json) → members.Carrier → Prop
  | .nil, ms, _ => ms = []
  | .cons key required shape rest, ms, (a, as) =>
      (match valuesOf key ms with
        | [] => required = false ∧ shape.absent? = some a
        | [v] => Stands shape v a
        | _ => False) ∧ Named rest (others key ms) as

/-- The record whose members a list gives in their order; those at its end may be left out. -/
def Listed : (members : Members) → List Json → members.Carrier → Prop
  | .nil, vs, _ => vs = []
  | .cons _ required shape rest, vs, (a, as) =>
      match vs with
      | [] => required = false ∧ shape.default? = some a ∧ Listed rest [] as
      | v :: vs => Stands shape v a ∧ Listed rest vs as

end

theorem exists_of_forall₂ {α β : Type} {R : α → β → Prop} {as : List α} {bs : List β}
    (h : List.Forall₂ R as bs) {a : α} (ha : a ∈ as) : ∃ b, R a b := by
  induction h with
  | nil => cases ha
  | cons hab _ ih =>
      obtain rfl | ha := List.mem_cons.mp ha
      · exact ⟨_, hab⟩
      · exact ih ha

theorem ofJsonRead_eq_ok {x : Except Json.Fault α} {a : α} : ofJsonRead x = .ok a ↔ x = .ok a := by
  cases x with
  | error e => exact ⟨nofun, nofun⟩
  | ok b => exact ⟨fun h => by cases h; rfl, fun h => by cases h; rfl⟩

theorem mismatch_ne_ok {expected : String} {s : List Char} {a : α} : mismatch expected s ≠ .ok a := by
  intro h
  rw [mismatch.eq_def] at h
  split at h
  · cases h
  next c r =>
    -- null, truth values and strings are told after they have been read
    iterate 4
      split at h
      · obtain ⟨_, -, h⟩ := bind_eq_ok.mp h
        cases h
    split at h
    · obtain ⟨⟨i | x, _⟩, -, h⟩ := bind_eq_ok.mp h <;> cases h
    iterate 2
      split at h
      · cases h
    cases h

/-- A reader of texts comes to the reading of JSON values of which each stands for what is read. -/
def Agrees (read : List Char → Except Fault (α × List Char)) (stands : Json → α → Prop) : Prop :=
  ∀ s a r, read s = .ok (a, r) ↔ ∃ v, Value s v r ∧ stands v a

theorem agrees_text (expected : String) : Agrees (readText expected) fun v w => v = .string w := by
  intro s w r
  simp only [exists_eq_right, value_string_iff]
  rw [readText.eq_def]
  split
  next hs => simp [hs]
  next t hs => simp [hs, ofJsonRead_eq_ok]
  next hs =>
    refine ⟨fun h => absurd h mismatch_ne_ok, ?_⟩
    rintro ⟨t, ht, -⟩
    exact absurd ht (hs t)

theorem viewId_iff {i : Int} {id : ViewId} :
    (Int32.minValue.toInt ≤ i ∧ i ≤ Int32.maxValue.toInt) ∧ Int32.ofInt i = id ↔ i = id.toInt := by
  constructor
  · rintro ⟨⟨hlow, hhigh⟩, rfl⟩
    rw [Int32.toInt_maxValue] at hhigh
    exact (Int32.toInt_ofInt_of_le hlow (by omega)).symm
  · rintro rfl
    exact ⟨⟨id.minValue_le_toInt, id.toInt_le⟩, id.ofInt_toInt⟩

theorem agrees_viewId : Agrees readViewId fun v id => v = .integer id.toInt := by
  intro s id r
  simp only [exists_eq_right, value_integer_iff]
  rw [readViewId]
  constructor
  · intro h
    split at h
    · cases h
    next c t hs =>
      split_ifs at h with hc
      · obtain ⟨⟨i | x, u⟩, hi, h⟩ := bind_eq_ok.mp h
        · dsimp only at h
          split_ifs at h with hrange
          cases h
          rw [ofJsonRead_eq_ok] at hi
          exact ⟨c, t, hs, hc, viewId_iff.mp ⟨hrange, rfl⟩ ▸ hi⟩
        · cases h
      · exact absurd h mismatch_ne_ok
  · rintro ⟨c, t, hs, hc, h⟩
    obtain ⟨hrange, hid⟩ := viewId_iff.mpr (Eq.refl id.toInt)
    rw [hs]
    dsimp only
    rw [if_pos hc, bind_eq_ok]
    refine ⟨_, ofJsonRead_eq_ok.mpr h, ?_⟩
    dsimp only
    rw [if_pos hrange, hid]

theorem readKey_eq_ok {s r : List Char} {w : String} :
    readKey s = .ok (w, r) ↔ ∃ t, skipSpace s = '"' :: t ∧ readString t = .ok (w, r) := by
  rw [readKey.eq_def]
  split
  next hs => simp [hs]
  next t hs => simp [hs]
  next t hs => simp [hs]
  next hs _ =>
    refine ⟨nofun, ?_⟩
    rintro ⟨t, ht, -⟩
    exact absurd ht (hs t)

theorem readNull_eq_ok {s r : List Char} : readNull s = .ok r ↔ Value s .null r := by
  rw [value_null_iff, readNull.eq_def]
  split
  next hs => simp [hs]
  next t hs => simp [hs, ofJsonRead_eq_ok]
  next hs =>
    refine ⟨fun h => absurd h mismatch_ne_ok, ?_⟩
    rintro ⟨t, ht, -⟩
    exact absurd ht (hs t)

theorem ofJson_eq_ok {words : Keywords α} {v : Json} {a : α} :
    words.ofJson v = .ok a ↔
      ∃ w, words.find w = .ok a ∧ (v = .string w ∨ v = .object [(w, .null)]) := by
  constructor
  · intro h
    rw [Keywords.ofJson.eq_def] at h
    split at h
    next w => exact ⟨w, h, .inl rfl⟩
    next w v =>
      obtain ⟨b, hb, h⟩ := bind_eq_ok.mp h
      split at h <;> cases h
      exact ⟨w, hb, .inr rfl⟩
    · cases h
    · cases h
  · rintro ⟨w, hw, rfl | rfl⟩
    · exact hw
    · exact bind_eq_ok.mpr ⟨a, hw, rfl⟩

/-- A keyword is a string, or the only key of an object that gives null for it. -/
def Spells (word : String) (v : Json) : Prop := v = .string word ∨ v = .object [(word, .null)]

theorem ofJson_iff_spells {words : Keywords α} (hall : ∀ a, a ∈ words.all)
    (hinj : ∀ a b, words.word a = words.word b → a = b) {v : Json} {a : α} :
    words.ofJson v = .ok a ↔ Spells (words.word a) v := by
  have hfind {w : String} : words.find w = .ok a ↔ w = words.word a := by
    rw [Keywords.find]
    split
    next b hb =>
      have hw : words.word b = w := by simpa using List.find?_some hb
      exact ⟨fun h => Except.ok.inj h ▸ hw.symm, fun h => congrArg _ (hinj b a (hw.trans h))⟩
    next hnone =>
      have hne : words.word a ≠ w := by simpa using List.find?_eq_none.mp hnone a (hall a)
      exact ⟨nofun, fun h => absurd h.symm hne⟩
  simp only [ofJson_eq_ok, hfind, exists_eq_left]
  exact Iff.rfl

theorem modifier_iff {v : Json} {m : Modifier} :
    Keywords.modifiers.ofJson v = .ok m ↔ Spells m.keyword v :=
  ofJson_iff_spells Modifier.mem_all (by intro m n; cases m <;> cases n <;> decide)

theorem kind_iff {v : Json} {k : TypeKind} : Keywords.kinds.ofJson v = .ok k ↔ Spells k.keyword v :=
  ofJson_iff_spells (by intro k; cases k <;> decide) (by intro k l; cases k <;> cases l <;> decide)

theorem agrees_keyword (words : Keywords α) : Agrees words.read fun v a => words.ofJson v = .ok a := by
  intro s a r
  simp only [ofJson_eq_ok]
  rw [Keywords.read]
  constructor
  · intro h
    split at h
    · cases h
    next c t hs =>
      split_ifs at h with hquote hbrace
      · obtain ⟨⟨w, u⟩, hw, h⟩ := bind_eq_ok.mp h
        obtain ⟨b, hb, h⟩ := bind_eq_ok.mp h
        cases h
        exact ⟨.string w, value_string_iff.mpr ⟨t, hquote ▸ hs, ofJsonRead_eq_ok.mp hw⟩, w, hb, .inl rfl⟩
      · obtain ⟨⟨w, u1⟩, hw, h⟩ := bind_eq_ok.mp h
        obtain ⟨b, hb, h⟩ := bind_eq_ok.mp h
        obtain ⟨u2, hcolon, h⟩ := bind_eq_ok.mp h
        obtain ⟨u3, hnull, h⟩ := bind_eq_ok.mp h
        split at h
        · cases h
        next d u hd =>
          split_ifs at h with hend
          cases h
          obtain ⟨t', ht', hw⟩ := readKey_eq_ok.mp (ofJsonRead_eq_ok.mp hw)
          refine ⟨.object [(w, .null)], value_object_iff.mpr ⟨t, hbrace ▸ hs, .inr ⟨'"', t', ht', by decide,
            entries_iff.mpr (.last hw (ofJsonRead_eq_ok.mp hcolon) (readNull_eq_ok.mp hnull) ?_)⟩⟩,
            w, hb, .inr rfl⟩
          exact readComma_none_iff.mpr (hend ▸ hd)
  · rintro ⟨v, hv, w, hw, rfl | rfl⟩
    · obtain ⟨t, hs, ht⟩ := value_string_iff.mp hv
      simp [hs, ht, hw, ofJsonRead, Except.mapError, bind, Except.bind]
    · obtain ⟨t, hs, ⟨h, -⟩ | ⟨d, u, ht, -, hms⟩⟩ := value_object_iff.mp hv
      · cases h
      · cases entries_iff.mp hms with
        | last hkey hcolon hv hend =>
          have hkey := readKey_eq_ok.mpr ⟨_, ht, hkey⟩
          have hend := readComma_none_iff.mp hend
          simp [hs, hkey, hw, hcolon, readNull_eq_ok.mpr hv, hend, ofJsonRead, Except.mapError, bind,
            Except.bind]
        | more hkey hcolon hv hnext hms =>
          obtain ⟨n, h⟩ := hms
          cases entries_iff.mp ⟨n, h⟩

section Lists

variable {read : List Char → Except Fault (α × List Char)} {stands : Json → α → Prop}

theorem Agrees.optional (hread : Agrees read stands) : Agrees (readOptional read) fun v a =>
    (v = .null ∧ a = none) ∨ (v ≠ .null ∧ ∃ b, a = some b ∧ stands v b) := by
  intro s a r
  rw [readOptional.eq_def]
  split
  next t hs =>
    constructor
    · intro h
      obtain ⟨u, hu, h⟩ := bind_eq_ok.mp h
      cases h
      exact ⟨.null, value_null_iff.mpr ⟨t, hs, ofJsonRead_eq_ok.mp hu⟩, .inl ⟨rfl, rfl⟩⟩
    · rintro ⟨v, hv, ⟨rfl, rfl⟩ | ⟨hne, -⟩⟩
      · obtain ⟨t', ht', hr⟩ := value_null_iff.mp hv
        cases hs.symm.trans ht'
        exact bind_eq_ok.mpr ⟨r, ofJsonRead_eq_ok.mpr hr, rfl⟩
      · exact absurd (eq_null_of_value hs hv) hne
  next hs =>
    constructor
    · intro h
      obtain ⟨⟨b, u⟩, hb, h⟩ := bind_eq_ok.mp h
      cases h
      obtain ⟨v, hv, hb⟩ := (hread _ _ _).mp hb
      refine ⟨v, value_skipSpace.mp hv, .inr ⟨?_, b, rfl, hb⟩⟩
      rintro rfl
      obtain ⟨t, ht, -⟩ := value_null_iff.mp (value_skipSpace.mp hv)
      exact hs t ht
    · rintro ⟨v, hv, ⟨rfl, rfl⟩ | ⟨-, b, rfl, hb⟩⟩
      · obtain ⟨t, ht, -⟩ := value_null_iff.mp hv
        exact absurd ht (hs t)
      · exact bind_eq_ok.mpr ⟨_, (hread _ _ _).mpr ⟨v, value_skipSpace.mpr hv, hb⟩, rfl⟩

theorem elements_of_readElements (hread : Agrees read stands) {n : Nat} {s r : List Char}
    {as : List α} (h : readElements read n s = .ok (as, r)) :
    ∃ vs, Elements s vs r ∧ List.Forall₂ stands vs as := by
  induction n generalizing s as with
  | zero => cases h
  | succ n ih =>
      obtain ⟨⟨a, t⟩, ha, h⟩ := bind_eq_ok.mp h
      obtain ⟨⟨next, u⟩, hnext, h⟩ := bind_eq_ok.mp h
      obtain ⟨v, hv, ha⟩ := (hread _ _ _).mp ha
      rw [ofJsonRead_eq_ok] at hnext
      cases next with
      | none =>
          cases h
          exact ⟨[v], elements_iff.mpr (.last hv hnext), .cons ha .nil⟩
      | some _ =>
          obtain ⟨⟨as, u'⟩, has, h⟩ := bind_eq_ok.mp h
          cases h
          obtain ⟨vs, hvs, has⟩ := ih has
          exact ⟨v :: vs, elements_iff.mpr (.more hv hnext hvs), .cons ha has⟩

theorem readElements_of_elements (hread : Agrees read stands) {n : Nat} {s r : List Char}
    {vs : List Json} {as : List α} (h : Elements s vs r) (has : List.Forall₂ stands vs as)
    (hn : s.length < n) : readElements read n s = .ok (as, r) := by
  induction n generalizing s vs as with
  | zero => omega
  | succ n ih =>
      rw [readElements]
      cases elements_iff.mp h with
      | last hv hend =>
          cases has with
          | cons ha has =>
          cases has
          refine bind_eq_ok.mpr ⟨_, (hread _ _ _).mpr ⟨_, hv, ha⟩, ?_⟩
          exact bind_eq_ok.mpr ⟨_, ofJsonRead_eq_ok.mpr hend, rfl⟩
      | more hv hnext hvs =>
          cases has with
          | cons ha has =>
          have ht := hv.length_le
          have hu := readComma_length hnext
          refine bind_eq_ok.mpr ⟨_, (hread _ _ _).mpr ⟨_, hv, ha⟩, ?_⟩
          refine bind_eq_ok.mpr ⟨_, ofJsonRead_eq_ok.mpr hnext, ?_⟩
          exact bind_eq_ok.mpr ⟨_, ih hvs has (by omega), rfl⟩

theorem Agrees.list (hread : Agrees read stands) :
    Agrees (readList read) fun v as => ∃ vs, v = .array vs ∧ List.Forall₂ stands vs as := by
  intro s as r
  rw [readList.eq_def]
  constructor
  · intro h
    split at h
    · cases h
    next t hs =>
      split at h
      · cases h
      next u hu =>
        cases h
        exact ⟨.array [], value_array_iff.mpr ⟨t, hs, .inl ⟨rfl, hu⟩⟩, [], rfl, .nil⟩
      next hne hclose =>
        obtain ⟨vs, hvs, has⟩ := elements_of_readElements hread h
        refine ⟨.array vs, value_array_iff.mpr ⟨t, hs, .inr ?_⟩, vs, rfl, has⟩
        cases hu : skipSpace t with
        | nil => exact absurd hu hne
        | cons d u => exact ⟨d, u, rfl, fun hd => hclose u (hd ▸ hu), hu ▸ hvs⟩
    · exact absurd h mismatch_ne_ok
  · rintro ⟨v, hv, vs, rfl, has⟩
    obtain ⟨t, hs, ⟨rfl, ht⟩ | ⟨d, u, ht, hd, hvs⟩⟩ := value_array_iff.mp hv
    · cases has
      simp [hs, ht]
    · simp [hs, ht, hd, readElements_of_elements hread hvs has]

end Lists

end ViewBinding.Proofs.Standing
