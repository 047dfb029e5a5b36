import ViewBinding.Proofs.Standing

namespace ViewBinding.Proofs.Records

open Json (skipSpace readString readColon readComma)
open Manifest Remainder Grammar Standing

variable {σ : Type}

section Objects

variable {readMember : σ → String → List Char → Except Fault (σ × List Char)}
  {fills : σ → List (String × Json) → σ → Prop}

/-- What a reader of the members of an object keeps to: `fills` tells how a list of members changes
what has been read before. -/
structure Fills (readMember : σ → String → List Char → Except Fault (σ × List Char))
    (fills : σ → List (String × Json) → σ → Prop) : Prop where
  nil : ∀ a b, fills a [] b ↔ b = a
  cons : ∀ a m ms c, fills a (m :: ms) c ↔ ∃ b, fills a [m] b ∧ fills b ms c
  member : ∀ a key s b r, readMember a key s = .ok (b, r) ↔
    ∃ t v, readColon s = .ok t ∧ Value t v r ∧ fills a [(key, v)] b

theorem entries_of_readEntries (hread : Fills readMember fills) {n : Nat} {a b : σ} {s r : List Char}
    (h : readEntries readMember n a s = .ok (b, r)) : ∃ ms, Entries s ms r ∧ fills a ms b := by
  induction n generalizing a s with
  | zero => cases h
  | succ n ih =>
      rw [readEntries.eq_def] at h
      dsimp only at h
      split at h
      next s =>
        obtain ⟨⟨key, t⟩, hkey, h⟩ := bind_eq_ok.mp h
        obtain ⟨⟨a', t'⟩, hmember, h⟩ := bind_eq_ok.mp h
        obtain ⟨⟨next, u⟩, hnext, h⟩ := bind_eq_ok.mp h
        obtain ⟨t'', v, hcolon, hv, ha'⟩ := (hread.member _ _ _ _ _).mp hmember
        rw [ofJsonRead_eq_ok] at hkey hnext
        cases next with
        | none =>
            cases h
            exact ⟨[(key, v)], entries_iff.mpr (.last hkey hcolon hv hnext), ha'⟩
        | some _ =>
            obtain ⟨ms, hms, hb⟩ := ih h
            exact ⟨(key, v) :: ms, entries_iff.mpr (.more hkey hcolon hv hnext hms),
              (hread.cons _ _ _ _).mpr ⟨a', ha', hb⟩⟩
      · cases h

theorem readEntries_of_entries (hread : Fills readMember fills) {n : Nat} {a b : σ} {s r : List Char}
    {ms : List (String × Json)} (h : Entries s ms r) (hb : fills a ms b) (hn : s.length < n) :
    readEntries readMember n a s = .ok (b, r) := by
  induction n generalizing a s ms with
  | zero => omega
  | succ n ih =>
      cases entries_iff.mp h with
      | last hkey hcolon hv hend =>
          rw [readEntries]
          refine bind_eq_ok.mpr ⟨_, ofJsonRead_eq_ok.mpr hkey, ?_⟩
          refine bind_eq_ok.mpr ⟨_, (hread.member _ _ _ _ _).mpr ⟨_, _, hcolon, hv, hb⟩, ?_⟩
          exact bind_eq_ok.mpr ⟨_, ofJsonRead_eq_ok.mpr hend, rfl⟩
      | more hkey hcolon hv hnext hms =>
          obtain ⟨a', ha', hb⟩ := (hread.cons _ _ _ _).mp hb
          have hlength := ((readColon_suffix hcolon).trans (readString_suffix hkey)).length_le
          have ht := hv.length_le
          have hu := readComma_length hnext
          rw [List.length_cons] at hn
          rw [readEntries]
          refine bind_eq_ok.mpr ⟨_, ofJsonRead_eq_ok.mpr hkey, ?_⟩
          refine bind_eq_ok.mpr ⟨_, (hread.member _ _ _ _ _).mpr ⟨_, _, hcolon, hv, ha'⟩, ?_⟩
          exact bind_eq_ok.mpr ⟨_, ofJsonRead_eq_ok.mpr hnext, ih hms hb (by omega)⟩

theorem readObject_eq_ok (hread : Fills readMember fills) {a b : σ} {s r : List Char} :
    readObject readMember a s = .ok (b, r) ↔ ∃ ms, ObjectBody s ms r ∧ fills a ms b := by
  rw [readObject.eq_def]
  constructor
  · intro h
    split at h
    · cases h
    next t hs =>
      cases h
      exact ⟨[], .inl ⟨rfl, hs⟩, (hread.nil _ _).mpr rfl⟩
    next hne hclose =>
      obtain ⟨ms, hms, hb⟩ := entries_of_readEntries hread h
      refine ⟨ms, .inr ?_, hb⟩
      cases hu : skipSpace s with
      | nil => exact absurd hu hne
      | cons d u => exact ⟨d, u, rfl, fun hd => hclose u (hd ▸ hu), hu ▸ hms⟩
  · rintro ⟨ms, ⟨rfl, hs⟩ | ⟨d, u, hs, hd, hms⟩, hb⟩
    · cases (hread.nil _ _).mp hb
      simp [hs]
    · simp [hs, hd, readEntries_of_entries hread hms hb]

end Objects

/-- The members read so far are those of an object in addition to the members read before. -/
def Filled : (members : Members) → members.Slots → List (String × Json) → members.Slots → Prop
  | .nil, _, ms, _ => ms = []
  | .cons key _ shape rest, (slot, slots), ms, (slot', slots') =>
      (match valuesOf key ms with
        | [] => slot' = slot
        | [v] => slot = none ∧ ∃ a, slot' = some a ∧ Stands shape v a
        | _ => False) ∧ Filled rest slots (others key ms) slots'

theorem filled_nil (members : Members) (a b : members.Slots) : Filled members a [] b ↔ b = a := by
  match members, a, b with
  | .nil, (), () => simp [Filled]
  | .cons key _ shape rest, (slot, slots), (slot', slots') =>
      simp only [Filled, valuesOf_nil, others_nil, Prod.mk.injEq, filled_nil rest]

theorem filled_cons (members : Members) (a : members.Slots) (m : String × Json)
    (ms : List (String × Json)) (c : members.Slots) :
    Filled members a (m :: ms) c ↔ ∃ b, Filled members a [m] b ∧ Filled members b ms c := by
  match members, a, c with
  | .nil, (), () => simp [Filled]
  | .cons key _ shape rest, (slot, slots), (slot'', slots'') =>
      simp only [Filled, valuesOf_cons, others_cons, valuesOf_nil, others_nil, Prod.exists]
      by_cases h : m.1 = key
      · simp only [h, if_true, filled_nil]
        rcases hvs : valuesOf key ms with _ | ⟨v, _ | ⟨w, vs⟩⟩
        · simp only
          grind
        · grind
        · grind
      · simp only [h, if_false]
        rw [filled_cons rest slots m (others key ms) slots'']
        grind

theorem complete_cons {key : String} {required : Bool} {shape : Shape} {rest : Members}
    {slot : Option shape.Carrier} {slots : rest.Slots} {a : shape.Carrier} {as : rest.Carrier} :
    (Members.cons key required shape rest).complete (slot, slots) = .ok (a, as) ↔
      (slot <|> if required then none else shape.absent?) = some a ∧ rest.complete slots = .ok as := by
  rw [Members.complete]
  split
  next b hb =>
    rw [bind_eq_ok, hb]
    constructor
    · rintro ⟨bs, hbs, h⟩
      cases h
      exact ⟨rfl, hbs⟩
    · rintro ⟨h, has⟩
      cases h
      exact ⟨as, has, rfl⟩
  next hb => simp [hb]

theorem complete_iff (members : Members) (ms : List (String × Json)) (a : members.Carrier) :
    (∃ slots, Filled members members.noSlots ms slots ∧ members.complete slots = .ok a) ↔
      Named members ms a := by
  match members, a with
  | .nil, () => simp [Filled, Named, Members.complete]
  | .cons key required shape rest, (a, as) =>
      rw [Named, ← complete_iff rest]
      constructor
      · rintro ⟨⟨slot, slots⟩, ⟨hslot, hslots⟩, h⟩
        obtain ⟨ha, has⟩ := complete_cons.mp h
        refine ⟨?_, slots, hslots, has⟩
        rcases hvs : valuesOf key ms with _ | ⟨v, _ | ⟨w, vs⟩⟩ <;> rw [hvs] at hslot
        · subst hslot
          cases required with
          | false => exact ⟨rfl, ha⟩
          | true => cases ha
        · obtain ⟨-, b, rfl, hb⟩ := hslot
          cases ha
          exact hb
        · exact hslot
      · rintro ⟨ha, slots, hslots, has⟩
        rcases hvs : valuesOf key ms with _ | ⟨v, _ | ⟨w, vs⟩⟩ <;> rw [hvs] at ha
        · obtain ⟨rfl, ha⟩ := ha
          exact ⟨(none, slots), ⟨by rw [hvs], hslots⟩, complete_cons.mpr ⟨ha, has⟩⟩
        · exact ⟨(some a, slots), ⟨by rw [hvs]; exact ⟨rfl, a, rfl, ha⟩, hslots⟩,
            complete_cons.mpr ⟨rfl, has⟩⟩
        · exact ha.elim

/-- The values that are left of a record written as a list, `first` if none has been read yet. -/
def Remaining (first : Bool) (s : List Char) (vs : List Json) (r : List Char) : Prop :=
  (vs = [] ∧ skipSpace s = ']' :: r) ∨ ∃ u, nextPosition first s = .ok (some u, u) ∧ Elements u vs r

theorem nextPosition_none_iff {first : Bool} {s u : List Char} :
    nextPosition first s = .ok (none, u) ↔ ∃ t, skipSpace s = ']' :: t ∧ u = ']' :: t := by
  rw [nextPosition.eq_def]
  split
  next hs => simp [hs]
  next t hs => simp [hs, eq_comm]
  next hclose => exact ⟨nofun, fun ⟨t, ht, _⟩ => absurd ht (hclose t)⟩
  next t hs =>
    rw [hs]
    split <;> exact ⟨nofun, nofun⟩
  next hclose _ => exact ⟨nofun, fun ⟨t, ht, _⟩ => absurd ht (hclose t)⟩

theorem nextPosition_true_iff {s w u : List Char} :
    nextPosition true s = .ok (some w, u) ↔
      ∃ d t, skipSpace s = d :: t ∧ d ≠ ']' ∧ w = d :: t ∧ u = d :: t := by
  constructor
  · intro h
    rw [nextPosition.eq_def] at h
    split at h
    · cases h
    · cases h
    next hne hclose =>
      cases h
      cases hs : skipSpace s with
      | nil => exact absurd hs hne
      | cons d t => exact ⟨d, t, rfl, fun hd => hclose t (hd ▸ hs), rfl, rfl⟩
    next hfirst _ => cases hfirst
    · cases h
  · rintro ⟨d, t, hs, hd, rfl, rfl⟩
    simp [nextPosition, hs, hd]

theorem nextPosition_false_iff {s w u : List Char} :
    nextPosition false s = .ok (some w, u) ↔
      readComma ']' .endInList .expectedListEnd s = .ok (some w, u) := by
  rw [readComma_some_iff (by decide)]
  constructor
  · intro h
    rw [nextPosition.eq_def] at h
    split at h
    · cases h
    · cases h
    next hfirst _ _ => cases hfirst
    next t _ hs =>
      split at h
      · cases h
      · cases h
      next hne hclose =>
        cases h
        cases ht : skipSpace t with
        | nil => exact absurd ht hne
        | cons d u => exact ⟨t, d, u, hs, ht, fun hd => hclose u (hd ▸ ht), rfl, rfl⟩
    · cases h
  · rintro ⟨t, d, u, hs, ht, hd, rfl, rfl⟩
    simp [nextPosition, hs, ht, hd]

theorem eq_of_nextPosition {first : Bool} {s w u : List Char}
    (h : nextPosition first s = .ok (some w, u)) : w = u := by
  cases first with
  | true =>
      obtain ⟨_, _, _, _, rfl, rfl⟩ := nextPosition_true_iff.mp h
      rfl
  | false =>
      obtain ⟨_, _, _, _, _, _, rfl, rfl⟩ :=
        (readComma_some_iff (by decide)).mp (nextPosition_false_iff.mp h)
      rfl

theorem remaining_true {s r : List Char} {vs : List Json} :
    Remaining true s vs r ↔ ListBody s vs r := by
  simp only [Remaining, ListBody, nextPosition_true_iff]
  grind

theorem remaining_close {first : Bool} {s t r : List Char} {vs : List Json}
    (hs : skipSpace s = ']' :: t) : Remaining first s vs r ↔ vs = [] ∧ r = t := by
  have hnext : nextPosition first s = .ok (none, ']' :: t) := nextPosition_none_iff.mpr ⟨t, hs, rfl⟩
  simp [Remaining, hnext, hs, eq_comm]

theorem not_elements_nil {s r : List Char} : ¬ Elements s [] r := fun h => nomatch elements_iff.mp h

theorem elements_cons {s r : List Char} {v : Json} {vs : List Json} :
    Elements s (v :: vs) r ↔ ∃ t, Value s v t ∧ Remaining false t vs r := by
  rw [elements_iff]
  constructor
  · rintro ⟨⟩
    next hv hend => exact ⟨_, hv, .inl ⟨rfl, readComma_none_iff.mp hend⟩⟩
    next hnext hv hvs =>
      have hnext := nextPosition_false_iff.mpr hnext
      cases eq_of_nextPosition hnext
      exact ⟨_, hv, .inr ⟨_, hnext, hvs⟩⟩
  · rintro ⟨t, hv, ⟨rfl, hend⟩ | ⟨u, hnext, hvs⟩⟩
    · exact .last hv (readComma_none_iff.mpr hend)
    · exact .more hv (nextPosition_false_iff.mp hnext) hvs

theorem readPositionsEnd_eq_ok {s r : List Char} :
    readPositionsEnd s = .ok r ↔ skipSpace s = ']' :: r := by
  rw [readPositionsEnd.eq_def]
  split
  next hs => simp [hs]
  next t hs => simp [hs]
  next t hs =>
    rw [hs]
    split <;> exact ⟨nofun, nofun⟩
  next hclose _ => exact ⟨nofun, fun h => absurd h (hclose r)⟩

section Steps

variable {name own key : String} {required : Bool} {shape : Shape} {members rest : Members}
  {known : List String} {size position : Nat} {s t r : List Char} {a : shape.Carrier} {as : rest.Carrier}
  {slot slot' : Option shape.Carrier} {slots slots' : rest.Slots}

theorem read_record_iff {a : members.Carrier} :
    (Shape.record name members).read s = .ok (a, r) ↔
      (∃ t u, skipSpace s = '[' :: t ∧ members.readPositions name members.length 0 t = .ok (a, u) ∧
        readPositionsEnd u = .ok r) ∨
      ∃ t slots, skipSpace s = '\x7b' :: t ∧
        readObject (members.readMember members.keys) members.noSlots t = .ok (slots, r) ∧
        members.complete slots = .ok a := by
  rw [Shape.read.eq_def]
  dsimp only
  constructor
  · intro h
    split at h
    · cases h
    next t hs =>
      obtain ⟨⟨a, u⟩, ha, h⟩ := bind_eq_ok.mp h
      obtain ⟨r, hr, h⟩ := bind_eq_ok.mp h
      cases h
      exact .inl ⟨t, u, hs, ha, hr⟩
    next t hs =>
      obtain ⟨⟨slots, u⟩, hslots, h⟩ := bind_eq_ok.mp h
      obtain ⟨a, ha, h⟩ := bind_eq_ok.mp h
      cases h
      exact .inr ⟨t, slots, hs, hslots, ha⟩
    · exact absurd h mismatch_ne_ok
  · rintro (⟨t, u, hs, ha, hr⟩ | ⟨t, slots, hs, hslots, ha⟩)
    · simp only [hs]
      exact bind_eq_ok.mpr ⟨_, ha, bind_eq_ok.mpr ⟨r, hr, rfl⟩⟩
    · simp only [hs]
      exact bind_eq_ok.mpr ⟨_, hslots, bind_eq_ok.mpr ⟨a, ha, rfl⟩⟩

theorem readMember_own_iff :
    (Members.cons own required shape rest).readMember known (slot, slots) own s =
        .ok ((slot', slots'), r) ↔
      slot = none ∧ slots' = slots ∧
        ∃ t a, readColon s = .ok t ∧ shape.read t = .ok (a, r) ∧ slot' = some a := by
  rw [Members.readMember.eq_def]
  simp only [if_true]
  cases slot with
  | some b => exact ⟨nofun, nofun⟩
  | none =>
      constructor
      · intro h
        obtain ⟨t, ht, h⟩ := bind_eq_ok.mp h
        obtain ⟨⟨a, u⟩, ha, h⟩ := bind_eq_ok.mp h
        cases h
        exact ⟨rfl, rfl, t, a, ofJsonRead_eq_ok.mp ht, ha, rfl⟩
      · rintro ⟨-, rfl, t, a, ht, ha, rfl⟩
        exact bind_eq_ok.mpr ⟨t, ofJsonRead_eq_ok.mpr ht, bind_eq_ok.mpr ⟨(a, r), ha, rfl⟩⟩

theorem readMember_other_iff (h : own ≠ key) :
    (Members.cons own required shape rest).readMember known (slot, slots) key s =
        .ok ((slot', slots'), r) ↔
      slot' = slot ∧ rest.readMember known slots key s = .ok (slots', r) := by
  rw [Members.readMember.eq_def]
  simp only [if_neg h]
  constructor
  · intro h
    obtain ⟨⟨slots'', u⟩, hslots, h⟩ := bind_eq_ok.mp h
    cases h
    exact ⟨rfl, hslots⟩
  · rintro ⟨rfl, hslots⟩
    exact bind_eq_ok.mpr ⟨_, hslots, rfl⟩

theorem readPositions_cons_iff :
    (Members.cons key required shape rest).readPositions name size position s = .ok ((a, as), t) ↔
      (∃ u u', nextPosition (position = 0) s = .ok (some u, u) ∧ shape.read u = .ok (a, u') ∧
        rest.readPositions name size (position + 1) u' = .ok (as, t)) ∨
      ∃ u, skipSpace s = ']' :: u ∧ required = false ∧ shape.default? = some a ∧
        rest.readPositions name size (position + 1) (']' :: u) = .ok (as, t) := by
  rw [Members.readPositions.eq_def]
  dsimp only
  constructor
  · intro h
    obtain ⟨⟨value?, u⟩, hu, h⟩ := bind_eq_ok.mp h
    cases value? with
    | some w =>
        obtain ⟨⟨b, u'⟩, hb, h⟩ := bind_eq_ok.mp h
        obtain ⟨⟨bs, u''⟩, hbs, h⟩ := bind_eq_ok.mp h
        cases h
        obtain rfl := eq_of_nextPosition hu
        exact .inl ⟨w, u', hu, hb, hbs⟩
    | none =>
        obtain ⟨u, hs, rfl⟩ := nextPosition_none_iff.mp hu
        dsimp only at h
        split at h
        next b hb =>
          obtain ⟨⟨bs, u'⟩, hbs, h⟩ := bind_eq_ok.mp h
          cases h
          cases required with
          | false => exact .inr ⟨u, hs, rfl, hb, hbs⟩
          | true => cases hb
        · cases h
  · rintro (⟨u, u', hu, ha, has⟩ | ⟨u, hs, rfl, hdefault, has⟩)
    · exact bind_eq_ok.mpr ⟨_, hu, bind_eq_ok.mpr ⟨_, ha, bind_eq_ok.mpr ⟨_, has, rfl⟩⟩⟩
    · refine bind_eq_ok.mpr ⟨_, nextPosition_none_iff.mpr ⟨u, hs, rfl⟩, ?_⟩
      simp only [Bool.false_eq_true, if_false, hdefault]
      exact bind_eq_ok.mpr ⟨_, has, rfl⟩

end Steps

mutual

theorem agrees (shape : Shape) : Agrees shape.read (Stands shape) := by
  match shape with
  | .text => exact agrees_text "a string"
  | .viewId => exact agrees_viewId
  | .modifier => exact agrees_keyword Keywords.modifiers
  | .kind => exact agrees_keyword Keywords.kinds
  | .optional shape => exact (agrees shape).optional
  | .list shape => exact (agrees shape).list
  | .record name members =>
      intro s a r
      have hfills : Fills (members.readMember members.keys) (Filled members) :=
        ⟨filled_nil members, filled_cons members, fun slots key s slots' r =>
          readMember_iff members members.keys slots slots' key s r⟩
      have hpositions := readPositions_iff members name members.length 0
      rw [read_record_iff]
      constructor
      · rintro (⟨t, u, hs, ha, hr⟩ | ⟨t, slots, hs, hslots, ha⟩)
        · obtain ⟨vs, hvs, ha⟩ := (hpositions t r a).mp ⟨u, ha, hr⟩
          exact ⟨.array vs, value_array_iff.mpr ⟨t, hs, remaining_true.mp hvs⟩, .inr ⟨vs, rfl, ha⟩⟩
        · obtain ⟨ms, hms, hfilled⟩ := (readObject_eq_ok hfills).mp hslots
          exact ⟨.object ms, value_object_iff.mpr ⟨t, hs, hms⟩,
            .inl ⟨ms, rfl, (complete_iff members ms a).mp ⟨slots, hfilled, ha⟩⟩⟩
      · rintro ⟨v, hv, ⟨ms, rfl, hms⟩ | ⟨vs, rfl, hvs⟩⟩
        · obtain ⟨t, hs, ht⟩ := value_object_iff.mp hv
          obtain ⟨slots, hfilled, ha⟩ := (complete_iff members ms a).mpr hms
          exact .inr ⟨t, slots, hs, (readObject_eq_ok hfills).mpr ⟨ms, ht, hfilled⟩, ha⟩
        · obtain ⟨t, hs, ht⟩ := value_array_iff.mp hv
          obtain ⟨u, ha, hr⟩ := (hpositions t r a).mpr ⟨vs, remaining_true.mpr ht, hvs⟩
          exact .inl ⟨t, u, hs, ha, hr⟩

theorem readMember_iff (members : Members) (known : List String) (slots slots' : members.Slots)
    (key : String) (s r : List Char) :
    members.readMember known slots key s = .ok (slots', r) ↔
      ∃ t v, readColon s = .ok t ∧ Value t v r ∧ Filled members slots [(key, v)] slots' := by
  match members, slots, slots' with
  | .nil, (), () => simp [Members.readMember, Filled]
  | .cons own required shape rest, (slot, slots), (slot', slots') =>
      simp only [Filled, valuesOf_cons, others_cons, valuesOf_nil, others_nil]
      by_cases h : own = key
      · subst h
        simp only [if_true, filled_nil]
        refine readMember_own_iff.trans ?_
        constructor
        · rintro ⟨rfl, rfl, t, a, ht, ha, rfl⟩
          obtain ⟨v, hv, ha⟩ := (agrees shape t a r).mp ha
          exact ⟨t, v, ht, hv, ⟨rfl, a, rfl, ha⟩, rfl⟩
        · rintro ⟨t, v, ht, hv, ⟨rfl, a, rfl, ha⟩, rfl⟩
          exact ⟨rfl, rfl, t, a, ht, (agrees shape t a r).mpr ⟨v, hv, ha⟩, rfl⟩
      · simp only [if_neg (Ne.symm h)]
        refine (readMember_other_iff h).trans ?_
        have hrest := readMember_iff rest known slots slots' key s r
        constructor
        · rintro ⟨rfl, hslots⟩
          obtain ⟨t, v, ht, hv, hfilled⟩ := hrest.mp hslots
          exact ⟨t, v, ht, hv, rfl, hfilled⟩
        · rintro ⟨t, v, ht, hv, rfl, hfilled⟩
          exact ⟨rfl, hrest.mpr ⟨t, v, ht, hv, hfilled⟩⟩

theorem readPositions_iff (members : Members) (name : String) (size position : Nat) (s r : List Char)
    (a : members.Carrier) :
    (∃ t, members.readPositions name size position s = .ok (a, t) ∧ readPositionsEnd t = .ok r) ↔
      ∃ vs, Remaining (position = 0) s vs r ∧ Listed members vs a := by
  match members, a with
  | .nil, () =>
      rw [Members.readPositions.eq_def]
      simp [Listed, Remaining, not_elements_nil, readPositionsEnd_eq_ok]
  | .cons key required shape rest, (a, as) =>
      refine (exists_congr fun t => and_congr_left' readPositions_cons_iff).trans ?_
      have hrest (u : List Char) := readPositions_iff rest name size (position + 1) u r as
      constructor
      · rintro ⟨t, ⟨u, u', hu, ha, has⟩ | ⟨u, hs, hrequired, hdefault, has⟩, hr⟩
        · obtain ⟨v, hv, ha⟩ := (agrees shape u a u').mp ha
          obtain ⟨vs, hvs, has⟩ := (hrest u').mp ⟨t, has, hr⟩
          exact ⟨v :: vs, .inr ⟨u, hu, elements_cons.mpr ⟨u', hv, hvs⟩⟩, ha, has⟩
        · obtain ⟨vs, hvs, hlisted⟩ := (hrest (']' :: u)).mp ⟨t, has, hr⟩
          obtain ⟨rfl, rfl⟩ := (remaining_close rfl).mp hvs
          exact ⟨[], (remaining_close hs).mpr ⟨rfl, rfl⟩, hrequired, hdefault, hlisted⟩
      · rintro ⟨vs, ⟨rfl, hs⟩ | ⟨u, hu, hvs⟩, hlisted⟩
        · obtain ⟨hrequired, hdefault, has⟩ := hlisted
          obtain ⟨t, has, hr⟩ := (hrest (']' :: r)).mpr ⟨[], (remaining_close rfl).mpr ⟨rfl, rfl⟩, has⟩
          exact ⟨t, .inr ⟨r, hs, hrequired, hdefault, has⟩, hr⟩
        · obtain _ | ⟨v, vs⟩ := vs
          · exact absurd hvs not_elements_nil
          · obtain ⟨ha, has⟩ := hlisted
            obtain ⟨u', hv, hvs⟩ := elements_cons.mp hvs
            obtain ⟨t, has, hr⟩ := (hrest u').mpr ⟨vs, hvs, has⟩
            exact ⟨t, .inl ⟨u, u', hu, (agrees shape u a u').mpr ⟨v, hv, ha⟩, has⟩, hr⟩

end

theorem parse_eq_ok_iff {shape : Shape} {text : String} {a : shape.Carrier} :
    shape.parse text.toList = .ok a ↔ ∃ v, Json.parse text = .ok v ∧ Stands shape v a := by
  simp only [Grammar.parse_eq_ok_iff]
  constructor
  · intro h
    obtain ⟨⟨b, r⟩, hb, h⟩ := bind_eq_ok.mp h
    dsimp only at h
    split at h
    next hr =>
      cases h
      obtain ⟨v, hv, ha⟩ := (agrees shape _ _ _).mp hb
      exact ⟨v, ⟨r, hv, hr⟩, ha⟩
    · cases h
  · rintro ⟨v, ⟨r, hv, hr⟩, ha⟩
    refine bind_eq_ok.mpr ⟨(a, r), (agrees shape _ _ _).mpr ⟨v, hv, ha⟩, ?_⟩
    simp only [hr]

end ViewBinding.Proofs.Records
