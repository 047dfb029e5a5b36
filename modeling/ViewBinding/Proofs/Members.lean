import Mathlib.Data.List.Nodup
import ViewBinding.Proofs.Standing

namespace ViewBinding.Proofs.Members

open Manifest Standing

variable {key : String} {members : Manifest.Members} {ms : List (String × Json)}

theorem mem_valuesOf {v : Json} : v ∈ valuesOf key ms ↔ (key, v) ∈ ms := by
  simp [valuesOf]

theorem valuesOf_others {k : String} (hk : k ≠ key) : valuesOf k (others key ms) = valuesOf k ms := by
  rw [valuesOf, others, List.filter_filter, valuesOf]
  congr 2
  funext m
  by_cases h : m.1 = k <;> simp [h, hk]

theorem length_valuesOf (key : String) (ms : List (String × Json)) :
    (valuesOf key ms).length = (ms.map Prod.fst).count key := by
  induction ms with
  | nil => rfl
  | cons m ms ih =>
      rw [valuesOf_cons, List.map_cons, List.count_cons]
      by_cases h : m.1 = key <;> simp [h, ih]

def requiredKeys : Manifest.Members → List String
  | .nil => []
  | .cons key required _ rest => if required then key :: requiredKeys rest else requiredKeys rest

theorem length_valuesOf_le (members : Manifest.Members) {ms : List (String × Json)}
    {a : members.Carrier} (h : Named members ms a) (k : String) : (valuesOf k ms).length ≤ 1 := by
  match members, a, h with
  | .nil, _, h =>
      rw [Named] at h
      simp [h]
  | .cons own required shape rest, (_, as), ⟨hown, hrest⟩ =>
      by_cases hk : k = own
      · subst hk
        split at hown
        next hvs => simp [hvs]
        next hvs => simp [hvs]
        · exact hown.elim
      · rw [← valuesOf_others hk]
        exact length_valuesOf_le rest hrest k

theorem valuesOf_eq {a : members.Carrier} (h : Named members ms a) {v : Json} (hv : (key, v) ∈ ms) :
    valuesOf key ms = [v] := by
  have hone := length_valuesOf_le members h key
  rw [← mem_valuesOf] at hv
  rcases hvs : valuesOf key ms with _ | ⟨w, _ | ⟨_, _⟩⟩ <;> rw [hvs] at hv hone
  · cases hv
  · rw [List.mem_singleton.mp hv]
  · exact absurd hone (by simp)

theorem keys_nodup {a : members.Carrier} (h : Named members ms a) : (ms.map Prod.fst).Nodup := by
  rw [List.nodup_iff_count_le_one]
  exact fun k => length_valuesOf k ms ▸ length_valuesOf_le members h k

theorem mem_others {m : String × Json} (h : m ∈ others key ms) : m ∈ ms ∧ m.1 ≠ key := by
  simpa [others] using h

theorem mem_keys (members : Manifest.Members) {ms : List (String × Json)} {a : members.Carrier}
    (h : Named members ms a) {m : String × Json} (hm : m ∈ ms) : m.1 ∈ members.keys := by
  match members, a, h with
  | .nil, _, h =>
      rw [Named] at h
      simp [h] at hm
  | .cons own required shape rest, (_, as), ⟨_, hrest⟩ =>
      rw [Members.keys, List.mem_cons]
      by_cases hk : m.1 = own
      · exact .inl hk
      · exact .inr (mem_keys rest hrest (by simp [others, hm, hk]))

theorem mem_of_required (members : Manifest.Members) {ms : List (String × Json)}
    {a : members.Carrier} (h : Named members ms a) {k : String} (hk : k ∈ requiredKeys members) :
    k ∈ ms.map Prod.fst := by
  match members, a, h with
  | .nil, _, _ => cases hk
  | .cons own required shape rest, (_, as), ⟨hown, hrest⟩ =>
      rw [requiredKeys] at hk
      have hothers (hk : k ∈ requiredKeys rest) : k ∈ ms.map Prod.fst := by
        obtain ⟨m, hm, rfl⟩ := List.mem_map.mp (mem_of_required rest hrest hk)
        exact List.mem_map.mpr ⟨m, (mem_others hm).1, rfl⟩
      split at hk
      next hrequired =>
        obtain rfl | hk := List.mem_cons.mp hk
        · split at hown
          · simp [hrequired] at hown
          next v hvs =>
            have hv : v ∈ valuesOf k ms := by simp [hvs]
            exact List.mem_map.mpr ⟨(k, v), mem_valuesOf.mp hv, rfl⟩
          · exact hown.elim
        · exact hothers hk
      · exact hothers hk

/-- A member of a record: its key, its shape, and how its value is taken out of the record. Of members
with the same key only the first counts. -/
inductive Component (key : String) (required : Bool) (shape : Shape) :
    (members : Manifest.Members) → (members.Carrier → shape.Carrier) → Prop
  | here {rest : Manifest.Members} :
      Component key required shape (.cons key required shape rest) Prod.fst
  | there {own : String} {optional : Bool} {first : Shape} {rest : Manifest.Members}
      {get : rest.Carrier → shape.Carrier} (hne : key ≠ own) (h : Component key required shape rest get) :
      Component key required shape (.cons own optional first rest) fun a => get a.2

def valueAt : Manifest.Members → String → List Json → Option Json
  | .nil, _, _ => none
  | .cons own _ _ rest, key, vs => if key = own then vs.head? else valueAt rest key vs.tail

def given (members : Manifest.Members) (key : String) : Json → Option Json
  | .object ms => (valuesOf key ms).head?
  | .array vs => valueAt members key vs
  | _ => none

variable {required : Bool} {shape : Shape} {get : members.Carrier → shape.Carrier}

/-- What a record holds for a member is what the member's value stands for, or what stands for nothing
where no value is given. -/
def Holds (required : Bool) (shape : Shape) (v? : Option Json) (a : shape.Carrier) : Prop :=
  match v? with
  | some v => Stands shape v a
  | none => required = false ∧ shape.absent? = some a

theorem holds_named (hkey : Component key required shape members get) {a : members.Carrier}
    (h : Named members ms a) : Holds required shape (valuesOf key ms).head? (get a) := by
  induction hkey generalizing ms with
  | here =>
      obtain ⟨hown, -⟩ := h
      split at hown
      next hvs => rwa [hvs]
      next hvs => rwa [hvs]
      · exact hown.elim
  | there hne _ ih =>
      rw [← valuesOf_others hne]
      exact ih h.2

theorem absent?_of_default? {a : shape.Carrier} (h : shape.default? = some a) :
    shape.absent? = some a := by
  cases shape <;> first | exact h | cases h

theorem holds_listed (hkey : Component key required shape members get) {a : members.Carrier}
    {vs : List Json} (h : Listed members vs a) :
    Holds required shape (valueAt members key vs) (get a) := by
  induction hkey generalizing vs with
  | here =>
      rw [valueAt, if_pos rfl]
      cases vs with
      | nil => exact ⟨h.1, absent?_of_default? h.2.1⟩
      | cons v vs => exact h.1
  | there hne _ ih =>
      rw [valueAt, if_neg hne]
      cases vs with
      | nil => exact ih h.2.2
      | cons v vs => exact ih h.2

theorem holds_given (hkey : Component key required shape members get) {name : String} {v : Json}
    {a : members.Carrier} (h : Stands (.record name members) v a) :
    Holds required shape (given members key v) (get a) := by
  obtain ⟨ms, rfl, h⟩ | ⟨vs, rfl, h⟩ := h
  · exact holds_named hkey h
  · exact holds_listed hkey h

def HoldsAll (given : String → Option Json) : (members : Manifest.Members) → members.Carrier → Prop
  | .nil, _ => True
  | .cons key required shape rest, (a, as) =>
      Holds required shape (given key) a ∧ HoldsAll given rest as

theorem Component.mem_keys (h : Component key required shape members get) : key ∈ members.keys := by
  induction h with
  | here => exact List.mem_cons_self
  | there _ _ ih => exact List.mem_cons_of_mem _ ih

theorem holdsAll_of_component {given : String → Option Json} (members : Manifest.Members)
    (hkeys : members.keys.Nodup) (a : members.Carrier)
    (h : ∀ {key required shape get}, Component key required shape members get →
      Holds required shape (given key) (get a)) : HoldsAll given members a := by
  match members, a with
  | .nil, _ => trivial
  | .cons own required shape rest, (a, as) =>
      obtain ⟨hown, hrest⟩ := List.nodup_cons.mp hkeys
      refine ⟨h .here, holdsAll_of_component rest hrest as fun hkey => ?_⟩
      exact h (.there (fun heq => hown (heq ▸ hkey.mem_keys)) hkey)

theorem holdsAll_given (hkeys : members.keys.Nodup) {name : String} {v : Json} {a : members.Carrier}
    (h : Stands (.record name members) v a) : HoldsAll (given members · v) members a :=
  holdsAll_of_component members hkeys a fun hkey => holds_given hkey h

end ViewBinding.Proofs.Members
