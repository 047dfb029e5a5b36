import Mathlib.Data.List.Nodup
import ViewBinding.RoundBindings

namespace ViewBinding.Proofs.Aggregates

def sites (c : Companion) : List Site :=
  c.fields.map FieldBinding.site ++ c.methods.map MethodBinding.site

def Booked (c : Companion) : Prop := ∀ s, c.attached.contains s = true ↔ s ∈ sites c

/-- A companion without its book. -/
def bare (c : Companion) : Companion := { c with attached := ∅ }

theorem booked_ofHost (host : TypeDecl) : Booked (.ofHost host) := by
  intro s
  simp [Companion.ofHost, sites]

inductive Binding where
  | field (b : FieldBinding)
  | method (b : MethodBinding)
  deriving DecidableEq, Repr

namespace Binding

def site : Binding → Site
  | field b => b.site
  | method b => b.site

def addTo : Binding → Companion → Bool × Companion
  | field b, c => c.addField b
  | method b, c => c.addMethod b

/-- The companion with the binding behind the others of its kind. -/
def appendTo : Binding → Companion → Companion
  | field b, c => { c with fields := c.fields ++ [b], attached := c.attached.insert b.site }
  | method b, c => { c with methods := c.methods ++ [b], attached := c.attached.insert b.site }

theorem addTo_eq (b : Binding) (c : Companion) :
    b.addTo c = if c.attached.contains b.site then (false, c) else (true, b.appendTo c) := by
  cases b <;> rfl

theorem attached_appendTo (b : Binding) (c : Companion) :
    (b.appendTo c).attached = c.attached.insert b.site := by
  cases b <;> rfl

theorem sites_appendTo (b : Binding) (c : Companion) :
    (sites (b.appendTo c)).Perm (b.site :: sites c) := by
  cases b with
  | field b =>
      have h : sites (appendTo (.field b) c) =
          c.fields.map FieldBinding.site ++ b.site :: c.methods.map MethodBinding.site := by
        simp [sites, appendTo]
      rw [h]
      exact List.perm_middle
  | method b =>
      have h : sites (appendTo (.method b) c) = sites c ++ [b.site] := by
        simp [sites, appendTo]
      rw [h]
      exact List.perm_append_singleton _ _

theorem host_addTo (b : Binding) (c : Companion) : (b.addTo c).2.host = c.host := by
  rw [addTo_eq]
  split
  · rfl
  · cases b <;> rfl

theorem bare_addTo {c : Companion} (hc : Booked c) (b : Binding) :
    bare (b.addTo c).2 = if b.site ∈ sites c then bare c else bare (b.appendTo c) := by
  simp only [← hc b.site, addTo_eq]
  split <;> rfl

theorem booked_addTo {c : Companion} (hc : Booked c) (b : Binding) : Booked (b.addTo c).2 := by
  rw [addTo_eq]
  split
  · exact hc
  · intro s
    rw [(sites_appendTo b c).mem_iff, attached_appendTo, Std.HashSet.contains_insert, Bool.or_eq_true,
      beq_iff_eq, hc s, List.mem_cons, eq_comm]

end Binding

structure Sound (r : RoundBindings) : Prop where
  index : ∀ (host : ClassName) (i : Nat), r.index[host]? = some i ↔ r.hosts[i]? = some host
  booked : ∀ c ∈ r.companions, Booked c

theorem sound_empty : Sound .empty where
  index host i := by simp [RoundBindings.empty, RoundBindings.hosts]
  booked c hc := by simp [RoundBindings.empty] at hc

theorem Sound.nodup {r : RoundBindings} (hr : Sound r) : r.hosts.Nodup := by
  rw [List.nodup_iff_getElem?_ne_getElem?]
  intro i j hij hj he
  have hi := (hr.index _ i).mpr (he.trans (List.getElem?_eq_getElem hj))
  rw [(hr.index _ j).mpr (List.getElem?_eq_getElem hj)] at hi
  exact absurd (Option.some.inj hi) (by omega)

/-- The companions once a host is sure to have one. -/
def touched (cs : List Companion) (host : TypeDecl) : List Companion :=
  if host.name ∈ cs.map Companion.host then cs else cs ++ [.ofHost host]

theorem index_insert {r : RoundBindings} (hr : Sound r) {new : ClassName} (hn : new ∉ r.hosts)
    (host : ClassName) (i : Nat) :
    (r.index.insert new r.hosts.length)[host]? = some i ↔ (r.hosts ++ [new])[i]? = some host := by
  rw [Std.HashMap.getElem?_insert]
  by_cases h : new = host
  · subst h
    have hold : r.hosts[i]? ≠ some new := fun he => hn (List.mem_of_getElem? he)
    rw [if_pos (beq_self_eq_true new), Option.some.injEq]
    rcases Nat.lt_trichotomy i r.hosts.length with hi | hi | hi
    · rw [List.getElem?_append_left hi]
      exact ⟨fun he => absurd he (by omega), fun he => absurd he hold⟩
    · subst hi
      simp
    · rw [List.getElem?_eq_none (by simp; omega)]
      exact ⟨fun he => absurd he (by omega), fun he => absurd he.symm (Option.some_ne_none new)⟩
  · rw [if_neg (by simpa using h), hr.index host i]
    rcases Nat.lt_trichotomy i r.hosts.length with hi | hi | hi
    · rw [List.getElem?_append_left hi]
    · subst hi
      simp [h]
    · rw [List.getElem?_eq_none (by omega), List.getElem?_eq_none (by simp; omega)]

theorem touch_spec {r : RoundBindings} (hr : Sound r) (host : TypeDecl) :
    Sound (r.touch host).2 ∧ (r.touch host).2.companions = touched r.companions host ∧
      (r.touch host).2.hosts[(r.touch host).1]? = some host.name := by
  unfold RoundBindings.touch
  cases hi : r.index[host.name]? with
  | some i =>
      have hh := (hr.index host.name i).mp hi
      have hm : host.name ∈ r.companions.map Companion.host := List.mem_of_getElem? hh
      exact ⟨hr, by simp only [touched, if_pos hm], hh⟩
  | none =>
      have hm : host.name ∉ r.companions.map Companion.host := by
        intro hm
        obtain ⟨i, h⟩ := List.getElem?_of_mem hm
        rw [(hr.index host.name i).mpr h] at hi
        cases hi
      refine ⟨⟨?_, ?_⟩, by simp only [touched, if_neg hm], ?_⟩
      · intro h i
        simpa [RoundBindings.hosts, Companion.ofHost] using index_insert hr hm h i
      · intro c hc
        rcases List.mem_append.mp hc with hc | hc
        · exact hr.booked c hc
        · rw [List.mem_singleton.mp hc]
          exact booked_ofHost host
      · simp [RoundBindings.hosts, Companion.ofHost]

/-- Changes the companion of one host in a list. -/
def changed (host : ClassName) (change : Companion → Companion) (cs : List Companion) :
    List Companion :=
  cs.map fun c => if c.host = host then change c else c

theorem set_eq_changed {cs : List Companion} (hn : (cs.map Companion.host).Nodup) {i : Nat}
    {c : Companion} (hi : cs[i]? = some c) (change : Companion → Companion) :
    cs.set i (change c) = changed c.host change cs := by
  apply List.ext_getElem?
  intro j
  rw [changed, List.getElem?_map, List.getElem?_set]
  by_cases hij : i = j
  · subst hij
    obtain ⟨hl, rfl⟩ := List.getElem?_eq_some_iff.mp hi
    simp [hl]
  · rw [if_neg hij]
    cases hj : cs[j]? with
    | none => rfl
    | some d =>
        have hne : d.host ≠ c.host := by
          intro he
          have hl := (List.getElem?_eq_some_iff.mp hi).1
          have h : (cs.map Companion.host)[i]? = (cs.map Companion.host)[j]? := by
            simp [hi, hj, he]
          exact hij ((List.getElem?_inj (by simpa using hl) hn).mp h)
        simp [hne]

theorem update_eq {r : RoundBindings} (hr : Sound r) (host : TypeDecl)
    (change : Companion → Bool × Companion) :
    ∃ c ∈ touched r.companions host, c.host = host.name ∧
      (r.touch host).2.companions[(r.touch host).1]? = some c ∧
      r.update host change = ((change c).1, { (r.touch host).2 with
        companions := (r.touch host).2.companions.set (r.touch host).1 (change c).2 }) := by
  obtain ⟨-, hc, hi⟩ := touch_spec hr host
  obtain ⟨c, hget, hname⟩ : ∃ c, (r.touch host).2.companions[(r.touch host).1]? = some c ∧
      c.host = host.name := by simpa [RoundBindings.hosts] using hi
  exact ⟨c, hc ▸ List.mem_of_getElem? hget, hname, hget, by simp only [RoundBindings.update, hget]⟩

theorem companions_update {r : RoundBindings} (hr : Sound r) (host : TypeDecl)
    (change : Companion → Bool × Companion) :
    (r.update host change).2.companions =
      changed host.name (fun c => (change c).2) (touched r.companions host) := by
  obtain ⟨hs, hc, -⟩ := touch_spec hr host
  obtain ⟨c, -, hname, hget, hupdate⟩ := update_eq hr host change
  rw [hupdate, ← hname, ← hc, ← set_eq_changed hs.nodup hget]

theorem hosts_changed (host : ClassName) {change : Companion → Companion}
    (h : ∀ c, (change c).host = c.host) (cs : List Companion) :
    (changed host change cs).map Companion.host = cs.map Companion.host := by
  rw [changed, List.map_map]
  apply List.map_congr_left
  intro c _
  rw [Function.comp_apply]
  split
  · exact h c
  · rfl

theorem sound_update {r : RoundBindings} (hr : Sound r) (host : TypeDecl)
    (change : Companion → Bool × Companion) (hhost : ∀ c, (change c).2.host = c.host)
    (hbooked : ∀ c, Booked c → Booked (change c).2) : Sound (r.update host change).2 := by
  obtain ⟨hs, hc, -⟩ := touch_spec hr host
  have hcompanions := companions_update hr host change
  have hindex : (r.update host change).2.index = (r.touch host).2.index := by
    obtain ⟨c, -, -, -, hupdate⟩ := update_eq hr host change
    rw [hupdate]
  constructor
  · intro h i
    have hhosts : (r.update host change).2.hosts = (r.touch host).2.hosts := by
      rw [RoundBindings.hosts, hcompanions, hosts_changed _ hhost, ← hc]
      rfl
    rw [hindex, hhosts, hs.index h i]
  · intro d hd
    rw [hcompanions] at hd
    obtain ⟨c, hmem, rfl⟩ := List.mem_map.mp hd
    have hbook := hs.booked c (hc ▸ hmem)
    split
    · exact hbooked c hbook
    · exact hbook

end ViewBinding.Proofs.Aggregates
