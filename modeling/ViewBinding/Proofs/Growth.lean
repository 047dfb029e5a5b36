import ViewBinding.Proofs.Aggregates
import ViewBinding.Proofs.Grouping

namespace ViewBinding.Proofs.Growth

open Aggregates Grouping

def add (r : RoundBindings) (host : TypeDecl) : Binding → Bool × RoundBindings
  | .field b => r.addField host b
  | .method b => r.addMethod host b

/-- What is asked of the bindings of a round: that a host have a companion, or that its companion have a
binding, which need not be one of a member of this host. -/
inductive Request where
  | touch (host : TypeDecl)
  | add (host : TypeDecl) (b : Binding)
  deriving DecidableEq, Repr

namespace Request

def host : Request → TypeDecl
  | touch host => host
  | add host _ => host

def site? : Request → Option Site
  | touch _ => none
  | add _ b => some b.site

def serve (r : RoundBindings) : Request → RoundBindings
  | touch host => (r.touch host).2
  | add host b => (Growth.add r host b).2

def change : Request → Companion → Bool × Companion
  | touch _ => fun c => (true, c)
  | add _ b => b.addTo

def served (q : Request) (c : Companion) : Companion :=
  if c.host = q.host.name then (q.change c).2 else c

end Request

def grown (requests : List Request) : RoundBindings := requests.foldl Request.serve .empty

theorem grown_append_singleton (requests : List Request) (q : Request) :
    grown (requests ++ [q]) = q.serve (grown requests) := List.foldl_append

theorem add_eq_update (r : RoundBindings) (host : TypeDecl) (b : Binding) :
    add r host b = r.update host b.addTo := by
  cases b <;> rfl

theorem serve_eq_update {r : RoundBindings} (hr : Sound r) (q : Request) :
    q.serve r = (r.update q.host q.change).2 := by
  cases q with
  | touch host =>
      obtain ⟨c, -, -, hget, hupdate⟩ := update_eq hr host (Request.change (.touch host))
      obtain ⟨hlt, rfl⟩ := List.getElem?_eq_some_iff.mp hget
      rw [Request.host, hupdate, Request.change, List.set_getElem_self]
      rfl
  | add host b =>
      rw [Request.serve, add_eq_update]
      rfl

theorem companions_serve {r : RoundBindings} (hr : Sound r) (q : Request) :
    (q.serve r).companions = (touched r.companions q.host).map q.served := by
  rw [serve_eq_update hr, companions_update hr]
  rfl

/-- The companion `d` is what `c` has grown to. -/
structure Continues (c d : Companion) : Prop where
  host : d.host = c.host
  hostVisible : d.hostVisible = c.hostVisible
  fields : c.fields <+: d.fields
  methods : c.methods <+: d.methods

namespace Continues

theorem refl (c : Companion) : Continues c c := ⟨rfl, rfl, List.prefix_rfl, List.prefix_rfl⟩

theorem trans {c d e : Companion} (h : Continues c d) (h' : Continues d e) : Continues c e where
  host := h'.host.trans h.host
  hostVisible := h'.hostVisible.trans h.hostVisible
  fields := h.fields.trans h'.fields
  methods := h.methods.trans h'.methods

theorem appendTo (b : Binding) (c : Companion) : Continues c (b.appendTo c) := by
  cases b with
  | field b => exact ⟨rfl, rfl, List.prefix_append _ _, List.prefix_rfl⟩
  | method b => exact ⟨rfl, rfl, List.prefix_rfl, List.prefix_append _ _⟩

theorem change (q : Request) (c : Companion) : Continues c (q.change c).2 := by
  cases q with
  | touch host => exact refl c
  | add host b =>
      rw [Request.change, b.addTo_eq]
      split
      · exact refl c
      · exact appendTo b c

theorem served (q : Request) (c : Companion) : Continues c (q.served c) := by
  rw [Request.served]
  split
  · exact change q c
  · exact refl c

end Continues

/-- Each companion of `r` stands in the same place of `s`, and has at most grown. -/
def Extends (r s : RoundBindings) : Prop :=
  ∀ (i : Nat) c, r.companions[i]? = some c → ∃ d, s.companions[i]? = some d ∧ Continues c d

theorem Extends.refl (r : RoundBindings) : Extends r r := fun _ c hc => ⟨c, hc, .refl c⟩

theorem Extends.trans {r s t : RoundBindings} (h : Extends r s) (h' : Extends s t) : Extends r t := by
  intro i c hc
  obtain ⟨d, hd, hcd⟩ := h i c hc
  obtain ⟨e, he, hde⟩ := h' i d hd
  exact ⟨e, he, hcd.trans hde⟩

theorem prefix_touched (cs : List Companion) (host : TypeDecl) : cs <+: touched cs host := by
  rw [touched]
  split
  · exact List.prefix_rfl
  · exact List.prefix_append _ _

theorem extends_serve {r : RoundBindings} (hr : Sound r) (q : Request) : Extends r (q.serve r) := by
  intro i c hc
  obtain ⟨hlt, rfl⟩ := List.getElem?_eq_some_iff.mp hc
  have htouched := List.prefix_iff_getElem?.mp (prefix_touched r.companions q.host) i hlt
  exact ⟨_, by rw [companions_serve hr, List.getElem?_map, htouched, Option.map_some], .served q _⟩

/-- The index gives the hosts of the companions and no others, each with the place of its companion. -/
structure Indexed (r : RoundBindings) : Prop where
  index : ∀ name (i : Nat), r.index[name]? = some i ↔ r.hosts[i]? = some name
  distinct : r.hosts.Nodup
  found : ∀ name (i : Nat), r.index[name]? = some i →
    ∃ c, r.companions[i]? = some c ∧ c.host = name ∧ r.get? name = some c
  reached : ∀ host, ∃ c, (r.touch host).2.companions[(r.touch host).1]? = some c ∧ c.host = host.name

theorem indexed_of_sound {r : RoundBindings} (hr : Sound r) : Indexed r := by
  refine ⟨hr.index, hr.nodup, fun name i hi => ?_, fun host => ?_⟩
  · obtain ⟨c, hget, hname⟩ : ∃ c, r.companions[i]? = some c ∧ c.host = name := by
      simpa [RoundBindings.hosts] using (hr.index name i).mp hi
    exact ⟨c, hget, hname, by rw [RoundBindings.get?, hi, Option.bind_some, hget]⟩
  · obtain ⟨c, -, hname, hget, -⟩ := update_eq hr host (true, ·)
    exact ⟨c, hget, hname⟩

theorem sound_serve {r : RoundBindings} (hr : Sound r) (q : Request) : Sound (q.serve r) := by
  rw [serve_eq_update hr]
  refine sound_update hr q.host q.change (fun c => (Continues.change q c).host) fun c hc => ?_
  cases q with
  | touch host => exact hc
  | add host b => exact b.booked_addTo hc

theorem sound_grown (requests : List Request) : Sound (grown requests) := by
  induction requests using List.reverseRecOn with
  | nil => exact sound_empty
  | append_singleton requests q ih =>
      rw [grown_append_singleton]
      exact sound_serve ih q

/-- The book holds the sites that are bound, and each is bound once. -/
structure Kept (c : Companion) : Prop where
  booked : Booked c
  once : (sites c).Nodup

theorem kept_ofHost (host : TypeDecl) : Kept (.ofHost host) := ⟨booked_ofHost host, List.nodup_nil⟩

theorem Kept.change {c : Companion} (h : Kept c) (q : Request) : Kept (q.change c).2 := by
  cases q with
  | touch host => exact h
  | add host b =>
      refine ⟨b.booked_addTo h.booked, ?_⟩
      rw [Request.change, b.addTo_eq]
      split
      · exact h.once
      · next hnew =>
          have hsite : b.site ∉ sites c := fun hmem => hnew ((h.booked b.site).mpr hmem)
          exact (b.sites_appendTo c).nodup_iff.mpr (List.nodup_cons.mpr ⟨hsite, h.once⟩)

theorem Kept.served {c : Companion} (h : Kept c) (q : Request) : Kept (q.served c) := by
  rw [Request.served]
  split
  · exact h.change q
  · exact h

theorem kept_touched {cs : List Companion} (h : ∀ c ∈ cs, Kept c) (host : TypeDecl) :
    ∀ c ∈ touched cs host, Kept c := by
  rw [touched]
  split
  · exact h
  · exact List.forall_mem_append.mpr ⟨h, List.forall_mem_singleton.mpr (kept_ofHost host)⟩

theorem kept_grown (requests : List Request) : ∀ c ∈ (grown requests).companions, Kept c := by
  induction requests using List.reverseRecOn with
  | nil => exact List.forall_mem_nil _
  | append_singleton requests q ih =>
      rw [grown_append_singleton, companions_serve (sound_grown requests), List.forall_mem_map]
      exact fun c hc => (kept_touched ih q.host c hc).served q

theorem extends_grown (requests more : List Request) :
    Extends (grown requests) (grown (requests ++ more)) := by
  induction more using List.reverseRecOn with
  | nil =>
      rw [List.append_nil]
      exact .refl _
  | append_singleton more q ih =>
      rw [← List.append_assoc, grown_append_singleton]
      exact ih.trans (extends_serve (sound_grown _) q)

def bound (r : RoundBindings) (host : ClassName) (s : Site) : Bool :=
  (r.get? host).any fun c => c.attached.contains s

/-- A binding is refused exactly if the companion of the host has one for its site, and then nothing
changes. Else it is put behind the others of this companion, which is made if there is none. It is the same
whether the companion was asked for before. -/
structure Adds (r : RoundBindings) (host : TypeDecl) (b : Binding) : Prop where
  answer : (add r host b).1 = !bound r host.name b.site
  effect : if bound r host.name b.site then (add r host b).2 = r
    else (add r host b).2.companions = changed host.name b.appendTo (touched r.companions host)
  asked : add (r.touch host).2 host b = add r host b

theorem get?_of_mem {r : RoundBindings} (hr : Sound r) {c : Companion} (hc : c ∈ r.companions) :
    r.get? c.host = some c := by
  obtain ⟨i, hi⟩ := List.getElem?_of_mem hc
  have hhost : r.hosts[i]? = some c.host := by
    rw [RoundBindings.hosts, List.getElem?_map, hi, Option.map_some]
  rw [RoundBindings.get?, (hr.index c.host i).mpr hhost, Option.bind_some, hi]

theorem get?_eq_none {r : RoundBindings} (hr : Sound r) {name : ClassName} (h : name ∉ r.hosts) :
    r.get? name = none := by
  cases hi : r.index[name]? with
  | none => rw [RoundBindings.get?, hi, Option.bind_none]
  | some i => exact absurd (List.mem_of_getElem? ((hr.index name i).mp hi)) h

theorem contains_of_mem_touched {r : RoundBindings} (hr : Sound r) {host : TypeDecl} {c : Companion}
    (hc : c ∈ touched r.companions host) (s : Site) : c.attached.contains s = bound r c.host s := by
  have hold : ∀ c ∈ r.companions, c.attached.contains s = bound r c.host s := by
    intro c hc
    rw [bound, get?_of_mem hr hc, Option.any_some]
  rw [touched] at hc
  split at hc
  · exact hold c hc
  · next hnew =>
      rcases List.mem_append.mp hc with hc | hc
      · exact hold c hc
      · have hnone : r.get? (Companion.ofHost host).host = none := get?_eq_none hr hnew
        rw [List.mem_singleton.mp hc, bound, hnone, Option.any_none]
        exact Std.HashSet.contains_empty

theorem fst_add {r : RoundBindings} (hr : Sound r) (host : TypeDecl) (b : Binding) :
    (add r host b).1 = !bound r host.name b.site := by
  obtain ⟨c, hmem, hname, -, hupdate⟩ := update_eq hr host b.addTo
  rw [add_eq_update, hupdate, b.addTo_eq, contains_of_mem_touched hr hmem, hname]
  cases bound r host.name b.site <;> rfl

theorem add_of_bound {r : RoundBindings} {host : TypeDecl} {b : Binding}
    (h : bound r host.name b.site = true) : (add r host b).2 = r := by
  obtain ⟨c, hc, hbound⟩ := (Option.any_eq_true _ _).mp h
  obtain ⟨i, hi, hget⟩ := Option.bind_eq_some_iff.mp hc
  -- the host has a companion, so none is made, and what is put back is what was there
  have htouch : r.touch host = (i, r) := by simp only [RoundBindings.touch, hi]
  have hsame : b.addTo c = (false, c) := by rw [b.addTo_eq, if_pos hbound]
  obtain ⟨hlt, rfl⟩ := List.getElem?_eq_some_iff.mp hget
  rw [add_eq_update]
  simp only [RoundBindings.update, htouch, hget, hsame, List.set_getElem_self]

theorem companions_add {r : RoundBindings} (hr : Sound r) {host : TypeDecl} {b : Binding}
    (h : bound r host.name b.site = false) :
    (add r host b).2.companions = changed host.name b.appendTo (touched r.companions host) := by
  rw [add_eq_update, companions_update hr]
  apply List.map_congr_left
  intro c hc
  by_cases hname : c.host = host.name
  · have hfree : c.attached.contains b.site = false := by
      rw [contains_of_mem_touched hr hc, hname, h]
    have hadd : b.addTo c = (true, b.appendTo c) := by
      rw [b.addTo_eq, hfree]
      rfl
    rw [if_pos hname, if_pos hname]
    exact congrArg Prod.snd hadd
  · rw [if_neg hname, if_neg hname]

theorem touch_touch (r : RoundBindings) (host : TypeDecl) :
    (r.touch host).2.touch host = r.touch host := by
  cases hi : r.index[host.name]? with
  | some i =>
      have htouch : r.touch host = (i, r) := by simp only [RoundBindings.touch, hi]
      rw [htouch, htouch]
  | none => simp [RoundBindings.touch, hi]

theorem add_touch (r : RoundBindings) (host : TypeDecl) (b : Binding) :
    add (r.touch host).2 host b = add r host b := by
  simp only [add_eq_update, RoundBindings.update, touch_touch]

theorem adds_of_sound {r : RoundBindings} (hr : Sound r) (host : TypeDecl) (b : Binding) :
    Adds r host b := by
  refine ⟨fst_add hr host b, ?_, add_touch r host b⟩
  split
  · next h => exact add_of_bound h
  · next h => exact companions_add hr (Bool.eq_false_iff.mpr h)

theorem bound_iff {r : RoundBindings} (hr : Sound r) {name : ClassName} {s : Site} :
    bound r name s = true ↔ ∃ c ∈ r.companions, c.host = name ∧ c.attached.contains s = true := by
  constructor
  · intro h
    obtain ⟨c, hc, hs⟩ := (Option.any_eq_true _ _).mp h
    obtain ⟨i, hi, hget⟩ := Option.bind_eq_some_iff.mp hc
    have hname : r.hosts[i]? = some c.host := by
      rw [RoundBindings.hosts, List.getElem?_map, hget, Option.map_some]
    rw [(hr.index name i).mp hi] at hname
    exact ⟨c, List.mem_of_getElem? hget, (Option.some.inj hname).symm, hs⟩
  · rintro ⟨c, hc, rfl, hs⟩
    rwa [bound, get?_of_mem hr hc, Option.any_some]

theorem contains_change_iff (q : Request) (c : Companion) (s : Site) :
    (q.change c).2.attached.contains s = true ↔ c.attached.contains s = true ∨ q.site? = some s := by
  cases q with
  | touch host => simp [Request.change, Request.site?]
  | add host b =>
      rw [Request.change, b.addTo_eq, Request.site?, Option.some.injEq]
      split
      · next h => exact ⟨.inl, fun hs => hs.elim id fun he => he ▸ h⟩
      · rw [b.attached_appendTo, Std.HashSet.contains_insert, Bool.or_eq_true, beq_iff_eq, or_comm]

theorem contains_served_iff (q : Request) (c : Companion) (s : Site) :
    (q.served c).attached.contains s = true ↔
      c.attached.contains s = true ∨ q.host.name = c.host ∧ q.site? = some s := by
  rw [Request.served]
  split
  · next h => rw [contains_change_iff, h, and_iff_right rfl]
  · next h => exact ⟨.inl, fun hs => hs.resolve_right fun hq => h hq.1.symm⟩

theorem bound_serve_iff {r : RoundBindings} (hr : Sound r) (q : Request) (name : ClassName) (s : Site) :
    bound (q.serve r) name s = true ↔
      bound r name s = true ∨ q.host.name = name ∧ q.site? = some s := by
  rw [bound_iff (sound_serve hr q), companions_serve hr]
  constructor
  · rintro ⟨_, hmem, rfl, hs⟩
    obtain ⟨c, hc, rfl⟩ := List.mem_map.mp hmem
    rw [contains_served_iff, contains_of_mem_touched hr hc] at hs
    rwa [(Continues.served q c).host]
  · intro h
    -- whether the site was bound before or is asked for now, there is a companion of this host
    obtain ⟨c, hc, rfl⟩ : ∃ c ∈ touched r.companions q.host, c.host = name := by
      rcases h with h | ⟨rfl, -⟩
      · obtain ⟨c, hc, hname, -⟩ := (bound_iff hr).mp h
        exact ⟨c, (prefix_touched _ _).subset hc, hname⟩
      · obtain ⟨c, hc, hname, -⟩ := update_eq hr q.host q.change
        exact ⟨c, hc, hname⟩
    refine ⟨q.served c, List.mem_map_of_mem hc, (Continues.served q c).host, ?_⟩
    rwa [contains_served_iff, contains_of_mem_touched hr hc]

theorem bound_grown_iff (requests : List Request) (name : ClassName) (s : Site) :
    bound (grown requests) name s = true ↔ ∃ q ∈ requests, q.host.name = name ∧ q.site? = some s := by
  induction requests using List.reverseRecOn with
  | nil => simp [grown, bound, RoundBindings.get?, RoundBindings.empty]
  | append_singleton requests q ih =>
      rw [grown_append_singleton, bound_serve_iff (sound_grown requests), ih]
      simp only [List.mem_append, List.mem_singleton, or_and_right, exists_or, exists_eq_left]

def heading (c : Companion) : ClassName × Bool := (c.host, c.hostVisible)

/-- The first declaration of each name, in the order in which the names are first met. -/
def met (requests : List Request) : List TypeDecl := firstsBy TypeDecl.name (requests.map Request.host)

theorem met_append_singleton (requests : List Request) (q : Request) :
    met (requests ++ [q]) =
      if q.host.name ∈ (met requests).map TypeDecl.name then met requests
      else met requests ++ [q.host] := by
  rw [met, List.map_append]
  exact firstsBy_append_singleton TypeDecl.name _ q.host

theorem map_heading_grown (requests : List Request) :
    (grown requests).companions.map heading =
      (met requests).map fun t => (t.name, t.visibleOutside) := by
  induction requests using List.reverseRecOn with
  | nil => rfl
  | append_singleton requests q ih =>
      have hnames : (grown requests).companions.map Companion.host = (met requests).map TypeDecl.name := by
        have hfst := congrArg (List.map Prod.fst) ih
        rwa [List.map_map, List.map_map] at hfst
      have hserved : heading ∘ q.served = heading := by
        funext c
        exact Prod.ext (Continues.served q c).host (Continues.served q c).hostVisible
      rw [grown_append_singleton, companions_serve (sound_grown requests), List.map_map, hserved, touched,
        hnames, met_append_singleton]
      split
      · exact ih
      · rw [List.map_append, List.map_append, ih]
        rfl

/-- At every point of a sequence of requests, the index and the books tell the same as the companions, and
one binding more is answered by them. A site is bound exactly if it was asked for. The companions are those
of the hosts in the order in which these are first met, each with the visibility of the declaration met
first; and whatever is asked for later, everything that is there stays in its place. -/
theorem grown_keeps_books (requests : List Request) :
    let r := grown requests
    Indexed r ∧ (∀ c ∈ r.companions, Kept c) ∧ (∀ host b, Adds r host b) ∧
    (∀ name s, bound r name s = true ↔ ∃ q ∈ requests, q.host.name = name ∧ q.site? = some s) ∧
    r.companions.map heading = (met requests).map (fun t => (t.name, t.visibleOutside)) ∧
    ∀ more, Extends r (grown (requests ++ more)) := by
  intro r
  have hr : Sound r := sound_grown requests
  exact ⟨indexed_of_sound hr, kept_grown requests, adds_of_sound hr, bound_grown_iff requests,
    map_heading_grown requests, extends_grown requests⟩

end ViewBinding.Proofs.Growth
