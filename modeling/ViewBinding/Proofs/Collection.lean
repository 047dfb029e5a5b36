import ViewBinding.Proofs.Aggregates
import ViewBinding.Proofs.Grouping

namespace ViewBinding.Proofs.Collection

open Aggregates Grouping

/-- The bindings of a round are those of the members `es`. -/
structure Collects (r : RoundBindings) (es : List Marked) : Prop where
  sound : Sound r
  hosts : r.hosts = Grouping.hosts es
  companion : ∀ c ∈ r.companions, bare c = companionOf es c.host

theorem Collects.companions_eq {r : RoundBindings} {es : List Marked} (h : Collects r es) :
    r.companions.map bare = companions es := by
  rw [companions, ← h.hosts, RoundBindings.hosts, List.map_map]
  exact List.map_congr_left h.companion

theorem collects_empty : Collects .empty [] where
  sound := sound_empty
  hosts := rfl
  companion c hc := by simp [RoundBindings.empty] at hc

theorem host_of_mem_fieldsOf {es : List Marked} {host : ClassName} {f : MarkedField}
    (h : f ∈ fieldsOf es host) : f.host.name = host := by
  obtain ⟨e, -, hn, hp⟩ := mem_group h
  cases e with
  | field g => cases hp; exact hn
  | method m => cases hp

theorem host_of_mem_methodsOf {es : List Marked} {host : ClassName} {m : MarkedMethod}
    (h : m ∈ methodsOf es host) : m.host.name = host := by
  obtain ⟨e, -, hn, hp⟩ := mem_group h
  cases e with
  | field f => cases hp
  | method n => cases hp; exact hn

theorem field_site_mem {es : List Marked} {f : MarkedField} :
    f.site ∈ sites (companionOf es f.host.name) ↔
      f.field.name ∈ (fieldsOf es f.host.name).map fun g => g.field.name := by
  simp only [sites, companionOf, List.map_map, List.mem_append, List.mem_map, Function.comp_apply]
  constructor
  · rintro (⟨g, hg, he⟩ | ⟨m, -, he⟩)
    · exact ⟨g, hg, (Site.field.inj he).2⟩
    · cases he
  · rintro ⟨g, hg, hn⟩
    exact .inl ⟨g, hg, congrArg₂ Site.field (host_of_mem_fieldsOf hg) hn⟩

theorem method_site_mem {es : List Marked} {m : MarkedMethod} :
    m.site ∈ sites (companionOf es m.host.name) ↔
      signature m ∈ (methodsOf es m.host.name).map signature := by
  simp only [sites, companionOf, List.map_map, List.mem_append, List.mem_map, Function.comp_apply]
  constructor
  · rintro (⟨f, -, he⟩ | ⟨n, hn, he⟩)
    · cases he
    · obtain ⟨-, hname, htypes⟩ := Site.method.inj he
      exact ⟨n, hn, Prod.ext hname htypes⟩
  · rintro ⟨n, hn, he⟩
    refine .inr ⟨n, hn, ?_⟩
    obtain ⟨hname, htypes⟩ := Prod.mk.inj he
    change Site.method _ _ _ = Site.method _ _ _
    rw [host_of_mem_methodsOf hn, hname, htypes]

/-- The companion of a host when the member `e` is met: it has the members `es`, and its visibility is
settled. -/
def standing (es : List Marked) (e : Marked) (host : ClassName) : Companion :=
  { companionOf es host with hostVisible := visible (es ++ [e]) host }

theorem bare_touched {r : RoundBindings} {es : List Marked} (h : Collects r es) (e : Marked)
    {c : Companion} (hc : c ∈ touched r.companions e.host) : bare c = standing es e c.host := by
  have hold : ∀ c ∈ r.companions, bare c = standing es e c.host := by
    intro c hc
    have hm : c.host ∈ Grouping.hosts es := h.hosts ▸ List.mem_map_of_mem hc
    rw [standing, visible_append_singleton, if_pos hm]
    exact h.companion c hc
  unfold touched at hc
  split at hc
  · exact hold c hc
  · next hn =>
      rcases List.mem_append.mp hc with hc | hc
      · exact hold c hc
      · rw [List.mem_singleton.mp hc]
        have hn : e.host.name ∉ Grouping.hosts es := h.hosts ▸ hn
        simp [standing, companionOf, fieldsOf, methodsOf, group_eq_nil hn, visible_append_singleton,
          hn, bare, Companion.ofHost]

def add (r : RoundBindings) : Marked → RoundBindings
  | .field f => (r.addField f.host (fieldBinding f)).2
  | .method m => (r.addMethod m.host (methodBinding m)).2

theorem hosts_update {r : RoundBindings} {es : List Marked} (h : Collects r es) (e : Marked)
    (change : Companion → Bool × Companion) (hhost : ∀ c, (change c).2.host = c.host) :
    (r.update e.host change).2.hosts = Grouping.hosts (es ++ [e]) := by
  rw [RoundBindings.hosts, companions_update h.sound, hosts_changed _ hhost,
    hosts_append_singleton, ← h.hosts, touched]
  split
  · next hm => exact (if_pos hm).symm
  · next hm => exact (List.map_append ..).trans (if_neg hm).symm

theorem collects_update {r : RoundBindings} {es : List Marked} (h : Collects r es) (e : Marked)
    (change : Companion → Bool × Companion) (hhost : ∀ c, (change c).2.host = c.host)
    (hbooked : ∀ c, Booked c → Booked (change c).2)
    (hchange : ∀ c, Booked c → bare c = standing es e e.host.name →
      bare (change c).2 = companionOf (es ++ [e]) e.host.name) :
    Collects (r.update e.host change).2 (es ++ [e]) := by
  refine ⟨sound_update h.sound e.host change hhost hbooked, hosts_update h e change hhost, ?_⟩
  intro c hc
  rw [companions_update h.sound] at hc
  obtain ⟨d, hd, rfl⟩ := List.mem_map.mp hc
  have hbare := bare_touched h e hd
  by_cases hn : d.host = e.host.name
  · have hbook : Booked d := by
      obtain ⟨hs, hcs, -⟩ := touch_spec h.sound e.host
      exact hs.booked d (hcs ▸ hd)
    rw [if_pos hn, hhost, hn]
    exact hchange d hbook (hn ▸ hbare)
  · rw [if_neg hn, hbare]
    simp [standing, companionOf, fieldsOf, methodsOf, group_append_singleton, Ne.symm hn]

theorem collects_add {r : RoundBindings} {es : List Marked} (h : Collects r es) (e : Marked) :
    Collects (add r e) (es ++ [e]) := by
  cases e with
  | field f =>
      apply collects_update h (.field f) _ (Binding.host_addTo (.field _))
        (fun c hc => Binding.booked_addTo hc (.field _))
      intro c hc hb
      have hsites : (fieldBinding f).site ∈ sites c ↔
          f.field.name ∈ (fieldsOf es f.host.name).map fun g => g.field.name := by
        have hsame : sites (bare c) = sites (companionOf es f.host.name) := by rw [hb]; rfl
        rw [← field_site_mem, ← hsame]
        rfl
      have hfields : bare (Binding.appendTo (.field (fieldBinding f)) c) =
          { bare c with fields := (bare c).fields ++ [fieldBinding f] } := rfl
      refine (Binding.bare_addTo hc (.field (fieldBinding f))).trans ?_
      rw [hfields, hb]
      simp only [Binding.site, hsites, companionOf, standing, fieldsOf, methodsOf, group_append_singleton,
        Marked.field?, Marked.method?, Marked.host, if_true]
      split <;> simp
  | method m =>
      apply collects_update h (.method m) _ (Binding.host_addTo (.method _))
        (fun c hc => Binding.booked_addTo hc (.method _))
      intro c hc hb
      have hsites : (methodBinding m).site ∈ sites c ↔
          signature m ∈ (methodsOf es m.host.name).map signature := by
        have hsame : sites (bare c) = sites (companionOf es m.host.name) := by rw [hb]; rfl
        rw [← method_site_mem, ← hsame]
        rfl
      have hmethods : bare (Binding.appendTo (.method (methodBinding m)) c) =
          { bare c with methods := (bare c).methods ++ [methodBinding m] } := rfl
      refine (Binding.bare_addTo hc (.method (methodBinding m))).trans ?_
      rw [hmethods, hb]
      simp only [Binding.site, hsites, companionOf, standing, fieldsOf, methodsOf, group_append_singleton,
        Marked.field?, Marked.method?, Marked.host, if_true]
      split <;> simp

theorem collects_foldl {r : RoundBindings} {es : List Marked} (h : Collects r es) (more : List Marked) :
    Collects (more.foldl add r) (es ++ more) := by
  induction more generalizing r es with
  | nil => simpa using h
  | cons e more ih => simpa using ih (collects_add h e)

end ViewBinding.Proofs.Collection
