import ViewBinding.Filer.Basic
import ViewBinding.Proofs.Handover

namespace ViewBinding.Proofs.Verdict

open Text Grouping Grounds Scan Handover

variable (options : Options)

/-- What keeps a member of a host from being bound at all. -/
def Inadmissible (host : TypeDecl) (modifiers : Modifiers) : Prop :=
  modifiers.contains .privateAccess = true ∨ modifiers.contains .static = true ∨
    host.privateScope.isSome = true ∨ host.kind ≠ .ordinary ∨
    ∃ n ∈ options.reserved, n.start.toList <+: host.name.canonical.toList

/-- What keeps a method from being a click handler. -/
def Unfit (m : MethodDecl) : Prop :=
  2 ≤ m.parameters.length ∨ ∃ p, m.parameters = [p] ∧ p.type ≠ .ofClass options.viewType

def Offends : Marked → Prop
  | .field f => Inadmissible options f.host f.field.modifiers
  | .method m => Inadmissible options m.host m.method.modifiers ∨ Unfit options m.method

theorem inadmissible_iff {host : TypeDecl} {member : Member} :
    Inadmissible options host member.modifiers ↔ ∃ g, Holds options host member g := by
  constructor
  · rintro (h | h | h | h | h)
    · exact ⟨.hidden, .inl h⟩
    · exact ⟨.hidden, .inr h⟩
    · exact ⟨.enclosed, h⟩
    · exact ⟨.kind, h⟩
    · exact ⟨.reserved, h⟩
  · rintro ⟨g, hg⟩
    cases g with
    | hidden => exact hg.imp_right .inl
    | enclosed => exact .inr (.inr (.inl hg))
    | kind => exact .inr (.inr (.inr (.inl hg)))
    | reserved => exact .inr (.inr (.inr (.inr hg)))

theorem objections_eq_nil {marker : Marker} {host : TypeDecl} {member : Member} :
    Admission.objections options marker host member = [] ↔
      ¬ Inadmissible options host member.modifiers := by
  rw [objections_eq_nil_iff, inadmissible_iff, not_exists]

theorem isClass_iff {t : TypeName} {c : ClassName} : t.isClass c = true ↔ t = .ofClass c := by
  cases t <;> simp [TypeName.isClass, TypeName.class?]

theorem ofMethod_isOk (host : TypeDecl) (m : MethodDecl) (ids : List ViewId) :
    (∃ b, MethodBinding.ofMethod options.viewType host m ids = .ok b) ↔ ¬ Unfit options m := by
  unfold MethodBinding.ofMethod Unfit
  cases hp : m.parameters with
  | nil => simp
  | cons p ps =>
      cases ps with
      | cons p' ps => simp
      | nil =>
          by_cases h : p.type.isClass options.viewType = true
          · have ht := isClass_iff.mp h
            simp only [h, if_true]
            simp [ht]
          · have ht := isClass_iff.not.mp h
            simp [h, ht]

theorem complaints_eq_nil {e : Marked} : complaints options e = [] ↔ ¬ Offends options e := by
  cases e with
  | field f => exact objections_eq_nil options
  | method m =>
      have hobj : Admission.objections options .onClick m.host (m.method.member m.host) = [] ↔
          ¬ Inadmissible options m.host m.method.modifiers := objections_eq_nil options
      rw [Offends, not_or, ← hobj, ← ofMethod_isOk options m.host m.method m.ids, complaints]
      cases Admission.objections options .onClick m.host (m.method.member m.host) with
      | cons d ds => simp
      | nil => cases MethodBinding.ofMethod options.viewType m.host m.method m.ids <;> simp

theorem add_unlimited {q : Queue} (hq : q.config = .unlimited) (d : Diagnostic) :
    q.add d = q.push d := by
  have hr : q.refuses d = false := by
    simp [Queue.refuses, Queue.limitReached, hq, QueueConfig.unlimited]
  simp [Queue.add, hr]

theorem items_addAll_unlimited {q : Queue} (hq : q.config = .unlimited) (ds : List Diagnostic) :
    (q.addAll ds).items = q.items ++ ds := by
  induction ds generalizing q with
  | nil => exact (List.append_nil _).symm
  | cons d ds ih =>
      have hstep : q.addAll (d :: ds) = (q.push d).addAll ds := by
        rw [← add_unlimited hq]
        rfl
      rw [hstep, ih (q := q.push d) hq]
      simp [Queue.push]

/-- A round is given up exactly when one of its marked members offends. Then no file has been handed
over, the filer and the registry are as they were, and the queue has got the warnings about the
members before the first offending one and the complaints about that one, and no more. -/
theorem process_gives_up_iff {σ : Type} (create : Filer (StateM σ)) (round : Round) (s : Session)
    (hq : s.queue.config = .unlimited) (w : σ) :
    match observe (Session.process options (logged create) round s) w with
    | ((result, after), calls, left) =>
        ((∃ reported, result = .error reported) ↔ ∃ e ∈ scanned round, Offends options e) ∧
        ((∃ reported, result = .error reported) →
          calls = [] ∧ left = w ∧ after.registry = s.registry ∧
          ∃ before e later, scanned round = before ++ e :: later ∧
            (∀ b ∈ before, ¬ Offends options b) ∧ Offends options e ∧
            after.queue.items =
              s.queue.items ++ before.flatMap warnings ++ complaints options e) := by
  rcases process_cases options (logged create) round s with
    ⟨hall, h⟩ | ⟨before, e, later, hes, hb, he, reported, h⟩
  · rw [h, observe_map_mapM]
    refine ⟨⟨?_, ?_⟩, ?_⟩
    · rintro ⟨_, hr⟩
      cases hr
    · rintro ⟨e, he, ho⟩
      exact absurd ho ((complaints_eq_nil options).mp (hall e he))
    · rintro ⟨_, hr⟩
      cases hr
  · rw [h, observe_pure]
    have ho : Offends options e := not_not.mp ((complaints_eq_nil options).not.mp he)
    refine ⟨⟨fun _ => ⟨e, by simp [hes], ho⟩, fun _ => ⟨reported, rfl⟩⟩,
      fun _ => ⟨rfl, rfl, rfl, before, e, later, hes, ?_, ho, ?_⟩⟩
    · exact fun b hm => (complaints_eq_nil options).mp (hb b hm)
    · rw [items_addAll_unlimited hq, List.append_assoc]

def idleHandler : MethodDecl := ⟨"idle", ∅, [], some []⟩

def pairHandler : MethodDecl :=
  let view : ParameterDecl := ⟨"view", .ofClass Options.viewClass⟩
  ⟨"pair", ∅, [view, view], some [1]⟩

def screen : TypeDecl :=
  ⟨.ofTopLevel "app" "Screen", .ordinary, ∅, [], [], [idleHandler, pairHandler]⟩

/-- A handler without views is bound with a warning; the one after it takes two views. -/
theorem process_screen_gives_up :
    (Session.start .unlimited).queue.config = .unlimited ∧
    match observe (Session.process .standard (logged MemoryFiles.create) ⟨[screen]⟩
      (.start .unlimited)) .empty with
    | ((result, after), calls, left) =>
        (∃ reported, result = .error reported) ∧ calls = [] ∧ left = .empty ∧ after.registry = [] ∧
        after.queue.items.map Diagnostic.code = [.noViewIds, .manyParameters] := by
  have hunlimited : (Session.start .unlimited).queue.config = .unlimited := rfl
  have h := process_gives_up_iff .standard MemoryFiles.create ⟨[screen]⟩ (.start .unlimited)
    hunlimited .empty
  have hcodes : (observe (Session.process .standard (logged MemoryFiles.create) ⟨[screen]⟩
      (.start .unlimited)) .empty).1.2.queue.items.map Diagnostic.code =
      [.noViewIds, .manyParameters] := rfl
  have hpair : Marked.method ⟨screen, pairHandler, [1]⟩ ∈ scanned ⟨[screen]⟩ := by decide
  refine ⟨hunlimited, ?_⟩
  generalize observe (Session.process .standard (logged MemoryFiles.create) ⟨[screen]⟩
    (.start .unlimited)) .empty = x at h hcodes ⊢
  obtain ⟨⟨result, after⟩, calls, left⟩ := x
  have hgiven := h.1.mpr ⟨_, hpair, .inr (.inl (Nat.le_refl 2))⟩
  obtain ⟨hcalls, hleft, hregistry, -⟩ := h.2 hgiven
  exact ⟨hgiven, hcalls, hleft, hregistry, hcodes⟩

end ViewBinding.Proofs.Verdict
