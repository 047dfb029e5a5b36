import ViewBinding.Manifest.Basic
import ViewBinding.Proofs.Suffixes
import ViewBinding.Proofs.Verdict

namespace ViewBinding.Proofs.Handlers

open Text Manifest Reading TypeText Suffixes

theorem parse_of_declared {text : String} {c : ClassName}
    (h : TypeName.declared text = .ok (.ofClass c)) : TypeName.parse text = .ok (.ofClass c) := by
  rw [TypeName.declared] at h
  split at h
  · next t ht =>
      cases h
      exact ht
  · cases h
  · cases h

theorem trimmed_of_parse {text : String} {c : ClassName} (h : TypeName.parse text = .ok (.ofClass c)) :
    trimmed text = c.canonical := by
  obtain ⟨u, hu, hclass⟩ := parse_eq_ok h
  have hstripped := stripped_strip text.toList
  generalize (strip text.toList).1 = n, (strip text.toList).2 = e at hu hclass hstripped
  cases n with
  | succ n => cases hclass
  | zero =>
      cases hstripped with
      | bare =>
          obtain rfl : .ofClass c = u := hclass
          rcases ofElement_cases hu with ⟨p, -, hp⟩ | ⟨d, hguess, hd⟩
          · cases hp
          · cases hd
            have hcanonical := canonical_of_guess hguess
            change c.canonical = trimmed (trimmed text) at hcanonical
            rw [trimmed_trimmed] at hcanonical
            exact hcanonical.symm

theorem declared_trimmed (text : String) : TypeName.declared (trimmed text) = TypeName.declared text := by
  rw [TypeName.declared, TypeName.declared, parse_trimmed, trimmed_trimmed]

theorem declared_eq_ofClass_iff {text : String} {c : ClassName} (hc : Conventional c) :
    TypeName.declared text = .ok (.ofClass c) ↔ trimmed text = c.canonical := by
  constructor
  · exact fun h => trimmed_of_parse (parse_of_declared h)
  · intro h
    rw [← declared_trimmed, h]
    exact declared_canonical hc 0

variable {viewType : ClassName} {site : Site} {name : String} {ids : List ViewId}

abbrev Declared := List parameterShape.Carrier

theorem mapM_parameterDecl {parameters : Declared}
    (h : ∀ p ∈ parameters, ∃ type, TypeName.declared p.2.1 = .ok type) (owner : ClassName)
    (method : String) : ∃ ps, parameters.mapM (parameterDecl owner method) = .ok ps ∧
      List.Forall₂ (fun p d => d.name = p.1 ∧ TypeName.declared p.2.1 = .ok d.type) parameters ps := by
  induction parameters with
  | nil => exact ⟨[], rfl, .nil⟩
  | cons p parameters ih =>
      obtain ⟨⟨type, htype⟩, hrest⟩ := List.forall_mem_cons.mp h
      obtain ⟨ps, hps, hdeclared⟩ := ih hrest
      have hp : parameterDecl owner method p = .ok ⟨p.1, type⟩ := by
        obtain ⟨n, text, _⟩ := p
        rw [parameterDecl, declaredType, htype]
        rfl
      refine ⟨⟨p.1, type⟩ :: ps, ?_, .cons ⟨rfl, htype⟩ hdeclared⟩
      rw [List.mapM_cons, hp, hps]
      rfl

/-- What becomes of a method that is marked as a click handler. -/
inductive Outcome (viewType : ClassName) (site : Site) (name : String) (ids : List ViewId) :
    Declared → Except HandlerFault MethodBinding → Prop
  | plain : Outcome viewType site name ids [] (.ok ⟨site, name, ids, none⟩)
  | view {parameter text : String} (h : trimmed text = viewType.canonical) :
      Outcome viewType site name ids [(parameter, text, ())] (.ok ⟨site, name, ids, some parameter⟩)
  | other {parameter text : String} {type : TypeName} (h : trimmed text ≠ viewType.canonical)
      (htype : TypeName.declared text = .ok type) :
      Outcome viewType site name ids [(parameter, text, ())]
        (.error (.notView site parameter type viewType))
  | many {p q : parameterShape.Carrier} {parameters : Declared} :
      Outcome viewType site name ids (p :: q :: parameters)
        (.error (.manyParameters site (p :: q :: parameters).length))

theorem Outcome.unique {parameters : Declared} {x y : Except HandlerFault MethodBinding}
    (hx : Outcome viewType site name ids parameters x) (hy : Outcome viewType site name ids parameters y) :
    x = y := by
  cases hx with
  | plain =>
      cases hy
      rfl
  | view h =>
      cases hy with
      | view => rfl
      | other hother => exact absurd h hother
  | other h htype =>
      cases hy with
      | view hview => exact absurd hview h
      | other _ htype' =>
          rw [htype] at htype'
          rw [Except.ok.inj htype']
  | many =>
      cases hy
      rfl

theorem outcome_isOk_iff {parameters : Declared} {answer : Except HandlerFault MethodBinding}
    (h : Outcome viewType site name ids parameters answer) : (∃ b, answer = .ok b) ↔
      parameters = [] ∨ ∃ p, parameters = [p] ∧ trimmed p.2.1 = viewType.canonical := by
  cases h with
  | plain => exact ⟨fun _ => .inl rfl, fun _ => ⟨_, rfl⟩⟩
  | view h => exact ⟨fun _ => .inr ⟨_, rfl, h⟩, fun _ => ⟨_, rfl⟩⟩
  | other h =>
      refine ⟨nofun, ?_⟩
      rintro (hnone | ⟨p, hp, htext⟩)
      · cases hnone
      · cases hp
        exact absurd htext h
  | many =>
      refine ⟨nofun, ?_⟩
      rintro (hnone | ⟨p, hp, -⟩)
      · cases hnone
      · cases hp

theorem outcome_ofMethod (hview : Readable viewType) {parameters : Declared} {m : MethodDecl}
    (h : List.Forall₂ (fun p d => d.name = p.1 ∧ TypeName.declared p.2.1 = .ok d.type) parameters
      m.parameters) (host : TypeDecl) (ids : List ViewId) :
    Outcome viewType (m.site host.name) m.name ids parameters
      (MethodBinding.ofMethod viewType host m ids) := by
  rw [MethodBinding.ofMethod]
  generalize m.site host.name = site
  generalize m.parameters = ps at h
  cases h with
  | nil => exact .plain
  | @cons p d _ _ hp hrest =>
      obtain ⟨hname, htype⟩ := hp
      cases hrest with
      | @cons q e qs ds _ hrest =>
          have hcount : (d :: e :: ds).length = (p :: q :: qs).length := by
            rw [List.length_cons, List.length_cons, ← hrest.length_eq]
            rfl
          dsimp only
          rw [hcount]
          exact .many
      | nil =>
          obtain ⟨parameter, text, _⟩ := p
          obtain rfl : d.name = parameter := hname
          have hclass : TypeName.declared text = .ok (.ofClass viewType) ↔ _ :=
            declared_eq_ofClass_iff (conventional_of_readable hview)
          rw [htype, Except.ok.injEq, ← Verdict.isClass_iff] at hclass
          dsimp only
          split
          · next h => exact .view (hclass.mp h)
          · next h => exact .other (hclass.not.mp h) htype

/-- A method whose parameters have types that can be declared is a click handler exactly if it has no
parameter, or a single one that is declared by the canonical text of the view type, up to white space
around it. The binding keeps the ids and the name of the parameter. Any other text of a single parameter
declares another type, and of two or more parameters no type is looked at. A refusal is about the method
itself. -/
theorem ofMethod_answers (hview : Readable viewType) (owner : ClassName) (name : String)
    (modifiers : List Modifier) (parameters : Declared) (clickIds : Option (List ViewId))
    (hdeclared : ∀ p ∈ parameters, ∃ type, TypeName.declared p.2.1 = .ok type) (host : TypeDecl)
    (ids : List ViewId) :
    ∃ m, methodDecl owner (name, modifiers, parameters, clickIds, ()) = .ok m ∧ m.clickIds = clickIds ∧
      (∃ types, List.Forall₂ (fun p type => TypeName.declared p.2.1 = .ok type) parameters types ∧
        m.site host.name = .method host.name name types) ∧
      (∀ answer, MethodBinding.ofMethod viewType host m ids = answer ↔
        Outcome viewType (m.site host.name) name ids parameters answer) ∧
      ((∃ b, MethodBinding.ofMethod viewType host m ids = .ok b) ↔
        parameters = [] ∨ ∃ p, parameters = [p] ∧ trimmed p.2.1 = viewType.canonical) := by
  obtain ⟨ps, hps, hparameters⟩ := mapM_parameterDecl hdeclared owner name
  let m : MethodDecl := ⟨name, .ofList modifiers, ps, clickIds⟩
  have houtcome : Outcome viewType (m.site host.name) name ids parameters _ :=
    outcome_ofMethod hview hparameters host ids
  refine ⟨m, ?_, rfl, ⟨ps.map ParameterDecl.type, ?_, rfl⟩,
    fun answer => ⟨fun h => h ▸ houtcome, houtcome.unique⟩, outcome_isOk_iff houtcome⟩
  · rw [methodDecl, hps]
    rfl
  · rw [List.forall₂_map_right_iff]
    exact hparameters.imp fun _ _ h => h.2

def bareScreen : TypeDecl := ⟨.ofTopLevel "app" "Screen", .ordinary, ∅, [], [], []⟩

def spacedView : Declared := [("v", " android.view.View ", ())]

def anyViews : Declared := [("vs", "android.view.View...", ())]

/-- White space around the text of the view type does not matter, but dots after it do. -/
theorem ofMethod_answers_views :
    Readable Options.viewClass ∧
    (∀ p ∈ spacedView, ∃ type, TypeName.declared p.2.1 = .ok type) ∧
    (∀ p ∈ anyViews, ∃ type, TypeName.declared p.2.1 = .ok type) ∧
    (∃ m, methodDecl bareScreen.name ("onTap", [], spacedView, some [2, 1], ()) = .ok m ∧
      MethodBinding.ofMethod Options.viewClass bareScreen m [2, 1] =
        .ok ⟨m.site bareScreen.name, "onTap", [2, 1], some "v"⟩) ∧
    ∃ m, methodDecl bareScreen.name ("onTap", [], anyViews, some [2, 1], ()) = .ok m ∧
      MethodBinding.ofMethod Options.viewClass bareScreen m [2, 1] =
        .error (.notView (m.site bareScreen.name) "vs" (.array (.ofClass Options.viewClass))
          Options.viewClass) := by
  have hview : Readable Options.viewClass := ⟨"android.view.View", by rfl⟩
  have hdots : TypeName.declared "android.view.View..." = .ok (.array (.ofClass Options.viewClass)) := by
    rfl
  have hspaced : ∀ p ∈ spacedView, ∃ type, TypeName.declared p.2.1 = .ok type :=
    List.forall_mem_singleton.mpr ⟨.ofClass Options.viewClass, by rfl⟩
  have hany : ∀ p ∈ anyViews, ∃ type, TypeName.declared p.2.1 = .ok type :=
    List.forall_mem_singleton.mpr ⟨_, hdots⟩
  obtain ⟨m, hm, -, -, hanswer, -⟩ :=
    ofMethod_answers hview bareScreen.name "onTap" [] spacedView (some [2, 1]) hspaced bareScreen [2, 1]
  obtain ⟨n, hn, -, -, hrefusal, -⟩ :=
    ofMethod_answers hview bareScreen.name "onTap" [] anyViews (some [2, 1]) hany bareScreen [2, 1]
  exact ⟨hview, hspaced, hany, ⟨m, hm, (hanswer _).mpr (.view (by rfl))⟩,
    n, hn, (hrefusal _).mpr (.other (by decide +kernel) hdots)⟩

end ViewBinding.Proofs.Handlers
