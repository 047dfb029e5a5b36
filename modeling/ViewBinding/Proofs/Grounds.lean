import Mathlib.Data.List.Forall2
import ViewBinding.Admission

namespace ViewBinding.Proofs.Grounds

open Text

/-- Whether the type at a depth of nesting is private. The host is the innermost, and of the types around
it those count that are known. -/
def PrivateAt (host : TypeDecl) (depth : Nat) : Prop :=
  (∃ around, host.knownEnclosing[depth]? = some around ∧ around.contains .privateAccess = true) ∨
    depth = host.name.inner.length ∧ host.modifiers.contains .privateAccess = true

/-- The outermost private type among a host and the types around it. -/
def OutermostPrivate (host : TypeDecl) (scope : ClassName) : Prop :=
  ∃ depth, scope = host.name.enclosing depth ∧ PrivateAt host depth ∧
    ∀ outer < depth, ¬ PrivateAt host outer

theorem length_knownEnclosing_le (host : TypeDecl) :
    host.knownEnclosing.length ≤ host.name.inner.length := by
  rw [TypeDecl.knownEnclosing]
  split
  · next h => exact Nat.le_of_eq (of_decide_eq_true h)
  · exact Nat.zero_le _

theorem outermostPrivate_privateScope {host : TypeDecl} {scope : ClassName}
    (h : host.privateScope = some scope) : OutermostPrivate host scope := by
  rw [TypeDecl.privateScope] at h
  split at h
  · next depth hdepth =>
      cases h
      obtain ⟨hlt, hprivate, hbefore⟩ := List.findIdx?_eq_some_iff_getElem.mp hdepth
      refine ⟨depth, rfl, .inl ⟨_, List.getElem?_eq_getElem hlt, hprivate⟩, fun outer houter => ?_⟩
      rintro (⟨around, hget, haround⟩ | ⟨hinnermost, -⟩)
      · obtain ⟨hbound, rfl⟩ := List.getElem?_eq_some_iff.mp hget
        exact hbefore outer houter haround
      · have hknown := length_knownEnclosing_le host
        omega
  · next hnone =>
      split at h
      · next hprivate =>
          cases h
          refine ⟨host.name.inner.length, ?_, .inr ⟨rfl, hprivate⟩, fun outer houter => ?_⟩
          · rw [ClassName.enclosing, List.take_length]
          · rintro (⟨around, hget, haround⟩ | ⟨hinnermost, -⟩)
            · have hfree := List.findIdx?_eq_none_iff.mp hnone around (List.mem_of_getElem? hget)
              rw [haround] at hfree
              cases hfree
            · omega
      · cases h

/-- The grounds to refuse a member, in the order in which they are reported. -/
inductive Ground where
  | hidden | enclosed | kind | reserved
  deriving DecidableEq, Repr

def Ground.all : List Ground := [.hidden, .enclosed, .kind, .reserved]

def subjects (d : Diagnostic) : List Site := (d.labels.filter (·.isPrimary)).map (·.site)

theorem head?_subjects (d : Diagnostic) : (subjects d).head? = d.primary? := by
  rw [subjects, List.head?_map, List.head?_filter, Diagnostic.primary?]

theorem primary?_eq_some {d : Diagnostic} {site : Site} (h : subjects d = [site]) :
    d.primary? = some site := by
  rw [← head?_subjects, h, List.head?_cons]

variable (options : Options) (marker : Marker) (host : TypeDecl) (member : Member)

def Holds : Ground → Prop
  | .hidden =>
      member.modifiers.contains .privateAccess = true ∨ member.modifiers.contains .static = true
  | .enclosed => host.privateScope.isSome = true
  | .kind => host.kind ≠ .ordinary
  | .reserved => ∃ n ∈ options.reserved, n.start.toList <+: host.name.canonical.toList

instance : DecidablePred (Holds options host member)
  | .hidden => inferInstanceAs (Decidable (_ ∨ _))
  | .enclosed => inferInstanceAs (Decidable (_ = _))
  | .kind => inferInstanceAs (Decidable (_ ≠ _))
  | .reserved => inferInstanceAs (Decidable (∃ n ∈ options.reserved, _))

def Tells : Ground → Diagnostic → Prop
  | .hidden, d =>
      d.code = .hiddenMember ∧ subjects d = [member.site] ∧
        ∃ words : List Modifier, words.Sublist Modifier.sourceOrder ∧
          (∀ m, m ∈ words ↔
            (m = .privateAccess ∨ m = .static) ∧ member.modifiers.contains m = true) ∧
          d.suggestions = words.map fun m => s!"remove the `{m.keyword}` modifier"
  | .enclosed, d =>
      d.code = .hiddenMember ∧ ∃ scope, OutermostPrivate host scope ∧ subjects d = [.type scope]
  | .kind, d => d.code = .notInClass ∧ subjects d = [host.site]
  | .reserved, d =>
      subjects d = [member.site] ∧ ∃ before n after, options.reserved = before ++ n :: after ∧
        n.start.toList <+: host.name.canonical.toList ∧
        (∀ m ∈ before, ¬ m.start.toList <+: host.name.canonical.toList) ∧ d.code = n.code

def objectionsFor : Ground → List Diagnostic
  | .hidden => Admission.hiddenMember marker host member
  | .enclosed => Admission.hiddenHost marker host member
  | .kind => Admission.notInClass marker host member
  | .reserved => Admission.reservedHost options marker host member

theorem objections_eq : Admission.objections options marker host member =
    Ground.all.flatMap (objectionsFor options marker host member) := by
  simp [Admission.objections, Ground.all, objectionsFor]

theorem mem_forbidden (m : Modifier) : m ∈ Admission.forbidden member ↔
    (m = .privateAccess ∨ m = .static) ∧ member.modifiers.contains m = true := by
  have hforbidden : Admission.isForbidden m = true ↔ m = .privateAccess ∨ m = .static := by
    cases m <;> simp [Admission.isForbidden]
  rw [Admission.forbidden, List.mem_filter, Modifiers.mem_toList, hforbidden, and_comm]

theorem objectionsFor_eq_nil_iff (g : Ground) :
    objectionsFor options marker host member g = [] ↔ ¬ Holds options host member g := by
  cases g with
  | hidden =>
      have hforbidden : Admission.forbidden member = [] ↔ ¬ Holds options host member .hidden := by
        rw [List.eq_nil_iff_forall_not_mem]
        simp [mem_forbidden, Holds, or_imp, forall_and]
      rw [← hforbidden, objectionsFor, Admission.hiddenMember]
      cases Admission.forbidden member <;> simp
  | enclosed =>
      rw [objectionsFor, Holds, Admission.hiddenHost]
      cases host.privateScope <;> simp
  | kind =>
      rw [objectionsFor, Holds, Admission.notInClass]
      split <;> simp_all
  | reserved =>
      have hreserved : options.reservedNamespace? host.name = none ↔
          ¬ Holds options host member .reserved := by
        simp [Options.reservedNamespace?, Holds, ClassName.inNamespace, startsWith_iff]
      rw [← hreserved, objectionsFor, Admission.reservedHost]
      cases options.reservedNamespace? host.name <;> simp

theorem reservedNamespace?_eq_some {n : ReservedNamespace}
    (h : options.reservedNamespace? host.name = some n) :
    ∃ before after, options.reserved = before ++ n :: after ∧
      n.start.toList <+: host.name.canonical.toList ∧
      ∀ m ∈ before, ¬ m.start.toList <+: host.name.canonical.toList := by
  obtain ⟨hn, before, after, hreserved, hbefore⟩ := List.find?_eq_some_iff_append.mp h
  refine ⟨before, after, hreserved, startsWith_iff.mp hn, fun m hm hprefix => ?_⟩
  have hfails := hbefore m hm
  rw [ClassName.inNamespace, startsWith_iff.mpr hprefix] at hfails
  cases hfails

theorem objectionsFor_eq_singleton {g : Ground} {d : Diagnostic}
    (hd : d ∈ objectionsFor options marker host member g) :
    objectionsFor options marker host member g = [d] ∧ d.severity = .error ∧
      Tells options host member g d := by
  cases g with
  | hidden =>
      rw [objectionsFor, Admission.hiddenMember] at hd ⊢
      split at hd
      · cases hd
      · obtain rfl := List.mem_singleton.mp hd
        refine ⟨rfl, ?_⟩
        rw [Diagnostic.foldl_suggest]
        refine ⟨rfl, rfl, rfl, Admission.forbidden member, ?_, mem_forbidden member, ?_⟩
        · exact List.filter_sublist.trans List.filter_sublist
        · change [] ++ List.map _ (List.map _ _) = _
          rw [List.nil_append, List.map_map]
          rfl
  | enclosed =>
      rw [objectionsFor, Admission.hiddenHost] at hd ⊢
      split at hd
      · cases hd
      · next scope hscope =>
          obtain rfl := List.mem_singleton.mp hd
          exact ⟨rfl, rfl, rfl, scope, outermostPrivate_privateScope hscope, rfl⟩
  | kind =>
      rw [objectionsFor, Admission.notInClass] at hd ⊢
      split at hd
      · cases hd
      · next hkind =>
          obtain rfl := List.mem_singleton.mp hd
          exact ⟨if_neg hkind, rfl, rfl, rfl⟩
  | reserved =>
      rw [objectionsFor, Admission.reservedHost] at hd ⊢
      split at hd
      · cases hd
      · next n hn =>
          obtain rfl := List.mem_singleton.mp hd
          obtain ⟨before, after, hreserved, hprefix, hbefore⟩ := reservedNamespace?_eq_some options host hn
          exact ⟨rfl, rfl, rfl, before, n, after, hreserved, hprefix, hbefore, rfl⟩

theorem forall₂_objectionsFor (gs : List Ground) :
    List.Forall₂ (fun g d => d.severity = .error ∧ Tells options host member g d)
      (gs.filter (Holds options host member)) (gs.flatMap (objectionsFor options marker host member)) := by
  induction gs with
  | nil => exact .nil
  | cons g gs ih =>
      rw [List.flatMap_cons]
      by_cases hg : Holds options host member g
      · obtain ⟨d, hd⟩ := List.exists_mem_of_ne_nil _
          ((objectionsFor_eq_nil_iff options marker host member g).not.mpr (not_not.mpr hg))
        obtain ⟨hreports, htells⟩ := objectionsFor_eq_singleton options marker host member hd
        rw [List.filter_cons_of_pos (by simpa using hg), hreports, List.singleton_append]
        exact .cons htells ih
      · rw [List.filter_cons_of_neg (by simpa using hg),
          (objectionsFor_eq_nil_iff options marker host member g).mpr hg, List.nil_append]
        exact ih

theorem tells_of_mem_objections {d : Diagnostic}
    (hd : d ∈ Admission.objections options marker host member) :
    d.severity = .error ∧ ∃ g, Tells options host member g d := by
  rw [objections_eq] at hd
  obtain ⟨g, -, hd⟩ := List.mem_flatMap.mp hd
  obtain ⟨-, hseverity, htells⟩ := objectionsFor_eq_singleton options marker host member hd
  exact ⟨hseverity, g, htells⟩

theorem objections_eq_nil_iff : Admission.objections options marker host member = [] ↔
    ∀ g, ¬ Holds options host member g := by
  rw [objections_eq, List.flatMap_eq_nil_iff]
  simp only [objectionsFor_eq_nil_iff]
  exact ⟨fun h g => h g (by cases g <;> decide), fun h g _ => h g⟩

theorem check_eq (q : Queue) : Admission.check options marker host member q =
    match Admission.objections options marker host member with
    | [] => (.ok (), q)
    | d :: ds => (.error (q.report d).1, q.addAll (d :: ds)) := by
  have hfold : ∀ (ds : List Diagnostic) (reported : ErrorsReported) (q : Queue),
      ds.foldl (fun (x : Except ErrorsReported Unit × Queue) d =>
        (.error (x.2.report d).1, (x.2.report d).2)) (.error reported, q) =
      (.error reported, q.addAll ds) := by
    intro ds
    induction ds with
    | nil => intro reported q; rfl
    | cons d ds ih => intro reported q; exact ih _ _
  unfold Admission.check
  cases Admission.objections options marker host member with
  | nil => rfl
  | cons d ds => exact hfold ds _ _

/-- A member is refused exactly if a ground holds, whatever the queue. The queue is offered one error for
each ground that holds, in the order of the grounds; if none does it stays as it was. -/
theorem check_reports_grounds :
    ∃ offered,
      List.Forall₂ (fun g d => d.severity = .error ∧ Tells options host member g d)
        (Ground.all.filter (Holds options host member)) offered ∧
      ∀ q, (Admission.check options marker host member q).2 = q.addAll offered ∧
        ((∃ reported, (Admission.check options marker host member q).1 = .error reported) ↔
          ∃ g, Holds options host member g) ∧
        ((∀ g, ¬ Holds options host member g) →
          Admission.check options marker host member q = (.ok (), q)) ∧
        ∀ r, (Admission.check options marker host member r).1 =
          (Admission.check options marker host member q).1 := by
  have hnil := objections_eq_nil_iff options marker host member
  have hreports := forall₂_objectionsFor options marker host member Ground.all
  rw [← objections_eq] at hreports
  refine ⟨_, hreports, fun q => ?_⟩
  simp only [check_eq]
  cases hobjections : Admission.objections options marker host member with
  | nil =>
      have hnone := hnil.mp hobjections
      exact ⟨rfl, iff_of_false nofun (not_exists.mpr hnone), fun _ => rfl, fun _ => rfl⟩
  | cons d ds =>
      have hsome : ∃ g, Holds options host member g := by
        rw [hobjections] at hnil
        simpa using hnil
      exact ⟨rfl, iff_of_true ⟨_, rfl⟩ hsome, fun hnone => absurd hsome (not_exists.mpr hnone),
        fun _ => rfl⟩

example :
    let host : TypeDecl :=
      ⟨.ofTopLevel "android.app" "Screen", .interface, .ofList [.privateAccess], [], [], []⟩
    let member : Member := ⟨"title", .ofList [.static, .privateAccess], .field host.name "title"⟩
    (Admission.check .standard .viewById host member (.empty .unlimited)).2.items.map Diagnostic.code =
      [.hiddenMember, .hiddenMember, .notInClass, .frameworkHost] := by
  rfl

end ViewBinding.Proofs.Grounds
