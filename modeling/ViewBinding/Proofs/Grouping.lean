import Mathlib.Data.List.Induction
import ViewBinding.Companion

namespace ViewBinding.Proofs.Grouping

variable {α κ : Type} [DecidableEq κ]

/-- The elements whose key no earlier element has. -/
def firstsBy (key : α → κ) (l : List α) : List α := l.eraseDupsBy fun a b => key a == key b

theorem loop_append_singleton (r : α → α → Bool) (l seen : List α) (a : α) :
    List.eraseDupsBy.loop r (l ++ [a]) seen =
      if (List.eraseDupsBy.loop r l seen).any (r a) then List.eraseDupsBy.loop r l seen
      else List.eraseDupsBy.loop r l seen ++ [a] := by
  induction l generalizing seen with
  | nil =>
      simp only [List.nil_append, List.eraseDupsBy.loop, List.any_reverse]
      by_cases h : seen.any (r a) = true <;> simp [h]
  | cons b l ih =>
      simp only [List.cons_append, List.eraseDupsBy.loop]
      by_cases h : seen.any (r b) = true
      · simpa only [h] using ih seen
      · simpa only [h] using ih (b :: seen)

theorem firstsBy_append_singleton (key : α → κ) (l : List α) (a : α) :
    firstsBy key (l ++ [a]) =
      if key a ∈ (firstsBy key l).map key then firstsBy key l else firstsBy key l ++ [a] := by
  have h := loop_append_singleton (fun a b => key a == key b) l [] a
  simp only [List.any_eq_true, beq_iff_eq] at h
  simp only [List.mem_map, eq_comm (b := key a)]
  exact h

theorem mem_of_mem_firstsBy {key : α → κ} {l : List α} {a : α} (h : a ∈ firstsBy key l) : a ∈ l := by
  induction l using List.reverseRecOn with
  | nil => exact h
  | append_singleton l b ih =>
      rw [firstsBy_append_singleton] at h
      split at h
      · exact List.mem_append_left _ (ih h)
      · rcases List.mem_append.mp h with h | h
        · exact List.mem_append_left _ (ih h)
        · exact List.mem_append_right _ h

inductive Marked where
  | field (f : MarkedField)
  | method (h : MarkedMethod)
  deriving DecidableEq, Repr

namespace Marked

def host : Marked → TypeDecl
  | field f => f.host
  | method h => h.host

def field? : Marked → Option MarkedField
  | field f => some f
  | method _ => none

def method? : Marked → Option MarkedMethod
  | field _ => none
  | method h => some h

end Marked

def scanned (r : Round) : List Marked :=
  r.markedFields.map Marked.field ++ r.markedMethods.map Marked.method

def fieldBinding (f : MarkedField) : FieldBinding := ⟨f.site, f.id, f.field.name, f.field.type⟩

def methodBinding (h : MarkedMethod) : MethodBinding :=
  ⟨h.site, h.method.name, h.ids, (h.method.parameters.head?).map ParameterDecl.name⟩

def signature (h : MarkedMethod) : String × List TypeName :=
  (h.method.name, h.method.parameters.map ParameterDecl.type)

/-- The hosts in the order in which they are first met. -/
def hosts (es : List Marked) : List ClassName := (es.map fun e => e.host.name).eraseDups

/-- What the members of a host give, of those with equal keys the first. -/
def group (pick : Marked → Option α) (key : α → κ) (es : List Marked) (host : ClassName) : List α :=
  firstsBy key ((es.filter fun e => e.host.name = host).filterMap pick)

def fieldsOf : List Marked → ClassName → List MarkedField :=
  group Marked.field? fun f => f.field.name

def methodsOf : List Marked → ClassName → List MarkedMethod := group Marked.method? signature

/-- Whether the first declaration met under the name of a host can be named from other packages. -/
def visible (es : List Marked) (host : ClassName) : Bool :=
  (es.find? fun e => e.host.name = host).any fun e => e.host.visibleOutside

/-- The companion that carries out the members of one host, without the book kept while it grows. -/
def companionOf (es : List Marked) (host : ClassName) : Companion where
  host := host
  hostVisible := visible es host
  fields := (fieldsOf es host).map fieldBinding
  methods := (methodsOf es host).map methodBinding
  attached := ∅

def companions (es : List Marked) : List Companion := (hosts es).map (companionOf es)

theorem hosts_append_singleton (es : List Marked) (e : Marked) :
    hosts (es ++ [e]) =
      if e.host.name ∈ hosts es then hosts es else hosts es ++ [e.host.name] := by
  have h := firstsBy_append_singleton id (es.map fun e => e.host.name) e.host.name
  rw [List.map_id] at h
  rw [hosts, List.map_append]
  exact h

theorem mem_hosts {es : List Marked} {host : ClassName} :
    host ∈ hosts es ↔ ∃ e ∈ es, e.host.name = host := by
  simp [hosts]

theorem visible_append_singleton (es : List Marked) (e : Marked) (host : ClassName) :
    visible (es ++ [e]) host =
      if host ∈ hosts es then visible es host
      else decide (e.host.name = host) && e.host.visibleOutside := by
  simp only [visible, List.find?_append]
  split
  · next h =>
      obtain ⟨d, hd, hn⟩ := mem_hosts.mp h
      have hs : (es.find? fun e => e.host.name = host).isSome :=
        List.find?_isSome.mpr ⟨d, hd, by simpa using hn⟩
      rw [Option.or_of_isSome hs]
  · next h =>
      have hs : (es.find? fun e => e.host.name = host) = none := by
        rw [List.find?_eq_none]
        intro d hd hn
        exact h (mem_hosts.mpr ⟨d, hd, by simpa using hn⟩)
      rw [hs, Option.none_or]
      by_cases hn : e.host.name = host <;> simp [hn]

theorem group_append_singleton (pick : Marked → Option α) (key : α → κ) (es : List Marked)
    (e : Marked) (host : ClassName) :
    group pick key (es ++ [e]) host =
      if e.host.name = host then
        match pick e with
        | none => group pick key es host
        | some a =>
            if key a ∈ (group pick key es host).map key then group pick key es host
            else group pick key es host ++ [a]
      else group pick key es host := by
  simp only [group, List.filter_append, List.filterMap_append]
  by_cases h : e.host.name = host
  · rw [if_pos h, List.filter_cons_of_pos (by simpa using h), List.filter_nil, List.filterMap_cons]
    cases pick e with
    | none => simp
    | some a => exact firstsBy_append_singleton key _ a
  · rw [if_neg h, List.filter_cons_of_neg (by simpa using h), List.filter_nil, List.filterMap_nil,
      List.append_nil]

theorem mem_group {pick : Marked → Option α} {key : α → κ} {es : List Marked} {host : ClassName}
    {a : α} (h : a ∈ group pick key es host) : ∃ e ∈ es, e.host.name = host ∧ pick e = some a := by
  obtain ⟨e, he, hp⟩ := List.mem_filterMap.mp (mem_of_mem_firstsBy h)
  rw [List.mem_filter, decide_eq_true_eq] at he
  exact ⟨e, he.1, he.2, hp⟩

theorem group_eq_nil {pick : Marked → Option α} {key : α → κ} {es : List Marked} {host : ClassName}
    (h : host ∉ hosts es) : group pick key es host = [] := by
  rw [List.eq_nil_iff_forall_not_mem]
  intro a ha
  obtain ⟨e, he, hn, -⟩ := mem_group ha
  exact h (mem_hosts.mpr ⟨e, he, hn⟩)

end ViewBinding.Proofs.Grouping
