import Mathlib.Data.List.Forall2
import ViewBinding.Manifest.Basic
import ViewBinding.Proofs.Printing
import ViewBinding.Proofs.Records
import ViewBinding.Proofs.TypeText

namespace ViewBinding.Proofs.RoundTrip

open Text Manifest Standing Printing Reading Remainder

section Writing

variable {α : Type}

def keyword (m : Modifier) : Json := .string m.keyword

def keywords (s : Modifiers) : Json := .array (s.toList.map keyword)

def number (id : ViewId) : Json := .integer id.toInt

/-- The members for a marker. -/
inductive Marks (key : String) (write : α → Json) : Option α → List (String × Json) → Prop
  | absent : Marks key write none []
  | null : Marks key write none [(key, .null)]
  | present (a : α) : Marks key write (some a) [(key, write a)]

def parameterJson (p : ParameterDecl) : Json :=
  .object [("name", .string p.name), ("type", .string p.type.text)]

inductive WritesField (f : FieldDecl) : Json → Prop
  | intro {marker} (h : Marks "view_by_id" number f.viewId marker) : WritesField f (.object
      (("name", .string f.name) :: ("type", .string f.type.text) ::
        ("modifiers", keywords f.modifiers) :: marker))

inductive WritesMethod (m : MethodDecl) : Json → Prop
  | intro {marker} (h : Marks "on_click" (fun ids => .array (ids.map number)) m.clickIds marker) :
      WritesMethod m (.object (("name", .string m.name) :: ("modifiers", keywords m.modifiers) ::
        ("parameters", .array (m.parameters.map parameterJson)) :: marker))

inductive WritesType (t : TypeDecl) : Json → Prop
  | intro {fields methods} (hfields : List.Forall₂ WritesField t.fields fields)
      (hmethods : List.Forall₂ WritesMethod t.methods methods) : WritesType t (.object [
        ("name", .string t.name.canonical),
        ("package", .string t.name.package),
        ("kind", .string t.kind.keyword),
        ("modifiers", keywords t.modifiers),
        ("enclosing", .array (t.enclosing.map keywords)),
        ("fields", .array fields),
        ("methods", .array methods)])

inductive WritesRound (r : Round) : Json → Prop
  | intro {types} (h : List.Forall₂ WritesType r.types types) :
      WritesRound r (.object [("types", .array types)])

inductive Writes (rounds : List Round) : Json → Prop
  | intro {vs} (h : List.Forall₂ WritesRound rounds vs) : Writes rounds (.object [("rounds", .array vs)])

end Writing

def parameterRecord (p : ParameterDecl) : parameterShape.Carrier := (p.name, p.type.text, ())

def fieldRecord (f : FieldDecl) : fieldShape.Carrier :=
  (f.name, f.type.text, f.modifiers.toList, f.viewId, ())

def methodRecord (m : MethodDecl) : methodShape.Carrier :=
  (m.name, m.modifiers.toList, m.parameters.map parameterRecord, m.clickIds, ())

def typeRecord (t : TypeDecl) : typeShape.Carrier :=
  (t.name.canonical, some t.name.package, t.kind, t.modifiers.toList,
    t.enclosing.map Modifiers.toList, t.fields.map fieldRecord, t.methods.map methodRecord, ())

def roundRecord (r : Round) : roundShape.Carrier := (r.types.map typeRecord, ())

theorem named_cons {key : String} {required : Bool} {shape : Shape} {rest : Members} {v : Json}
    {ms : List (String × Json)} {a : shape.Carrier} {as : rest.Carrier} (hv : Stands shape v a)
    (hkey : key ∉ ms.map Prod.fst) (h : Named rest ms as) :
    Named (.cons key required shape rest) ((key, v) :: ms) (a, as) := by
  have hne : ∀ m ∈ ms, m.1 ≠ key := fun m hm he => hkey (List.mem_map.mpr ⟨m, hm, he⟩)
  have hvalues : valuesOf key ms = [] := by simpa [valuesOf] using hne
  have hothers : others key ms = ms := by simpa [others] using hne
  rw [Named, valuesOf_cons, others_cons, if_pos rfl, if_pos rfl, hvalues, hothers]
  exact ⟨hv, h⟩

section Markers

variable {α : Type} {key : String} {write : α → Json} {a : Option α} {marker : List (String × Json)}

theorem Marks.notMem (h : Marks key write a marker) {k : String} (hk : k ≠ key) :
    k ∉ marker.map Prod.fst := by
  cases h <;> simp [hk]

end Markers

theorem named_marker {key : String} {shape : Shape} {write : shape.Carrier → Json}
    {a : Option shape.Carrier} {marker : List (String × Json)} (h : Marks key write a marker)
    (hwrite : ∀ b, write b ≠ .null ∧ Stands shape (write b) b) :
    Named (.cons key false (.optional shape) .nil) marker (a, ()) := by
  cases h with
  | absent => exact ⟨⟨rfl, rfl⟩, rfl⟩
  | null => exact named_cons (.inl ⟨rfl, rfl⟩) nofun rfl
  | present b => exact named_cons (.inr ⟨(hwrite b).1, b, rfl, (hwrite b).2⟩) nofun rfl

section Lists

variable {α : Type} {shape : Shape} {f : α → shape.Carrier}

theorem stands_list {R : α → Json → Prop} (hR : ∀ a v, R a v → Stands shape v (f a)) {as : List α}
    {vs : List Json} (h : List.Forall₂ R as vs) : Stands (.list shape) (.array vs) (as.map f) :=
  ⟨vs, rfl, List.forall₂_map_right_iff.mpr (h.flip.imp fun v a => hR a v)⟩

theorem stands_map {write : α → Json} (hwrite : ∀ a, Stands shape (write a) (f a)) (as : List α) :
    Stands (.list shape) (.array (as.map write)) (as.map f) := by
  refine stands_list (R := fun a v => v = write a) (fun a v hv => hv ▸ hwrite a) ?_
  exact List.forall₂_map_right_iff.mpr (List.forall₂_same.mpr fun _ _ => rfl)

end Lists

theorem stands_keywords (s : Modifiers) : Stands (.list .modifier) (keywords s) s.toList := by
  have hkeyword (m : Modifier) : Stands .modifier (keyword m) (id m) := modifier_iff.mpr (.inl rfl)
  have h := stands_map hkeyword s.toList
  rwa [List.map_id] at h

theorem stands_parameter (p : ParameterDecl) :
    Stands parameterShape (parameterJson p) (parameterRecord p) :=
  .inl ⟨_, rfl, named_cons rfl (by simp) (named_cons rfl nofun rfl)⟩

theorem stands_field {f : FieldDecl} {v : Json} (h : WritesField f v) :
    Stands fieldShape v (fieldRecord f) := by
  obtain ⟨hmarker⟩ := h
  refine .inl ⟨_, rfl, ?_⟩
  refine named_cons rfl (by simp [hmarker.notMem]) (named_cons rfl (by simp [hmarker.notMem]) ?_)
  refine named_cons (stands_keywords f.modifiers) (hmarker.notMem (by decide)) ?_
  exact named_marker hmarker fun id => ⟨nofun, rfl⟩

theorem stands_numbers (ids : List ViewId) : Stands (.list .viewId) (.array (ids.map number)) ids := by
  have hnumber (n : ViewId) : Stands .viewId (number n) (id n) := rfl
  have h := stands_map hnumber ids
  rwa [List.map_id] at h

theorem stands_method {m : MethodDecl} {v : Json} (h : WritesMethod m v) :
    Stands methodShape v (methodRecord m) := by
  obtain ⟨hmarker⟩ := h
  refine .inl ⟨_, rfl, ?_⟩
  refine named_cons rfl (by simp [hmarker.notMem]) ?_
  refine named_cons (stands_keywords m.modifiers) (by simp [hmarker.notMem]) ?_
  refine named_cons (stands_map stands_parameter m.parameters) (hmarker.notMem (by decide)) ?_
  exact named_marker hmarker fun ids => ⟨nofun, stands_numbers ids⟩

theorem stands_type {t : TypeDecl} {v : Json} (h : WritesType t v) :
    Stands typeShape v (typeRecord t) := by
  obtain ⟨hfields, hmethods⟩ := h
  refine .inl ⟨_, rfl, named_cons rfl (by simp) ?_⟩
  refine named_cons (.inr ⟨nofun, _, rfl, rfl⟩) (by simp) ?_
  refine named_cons (kind_iff.mpr (.inl rfl)) (by simp) ?_
  refine named_cons (stands_keywords t.modifiers) (by simp) ?_
  refine named_cons (stands_map stands_keywords t.enclosing) (by simp) ?_
  refine named_cons (stands_list (f := fieldRecord) (fun f v => stands_field) hfields) (by simp) ?_
  exact named_cons (stands_list (f := methodRecord) (fun m v => stands_method) hmethods) nofun rfl

theorem stands_round {r : Round} {v : Json} (h : WritesRound r v) :
    Stands roundShape v (roundRecord r) := by
  obtain ⟨htypes⟩ := h
  exact .inl ⟨_, rfl, named_cons (stands_list (f := typeRecord) (fun t v => stands_type) htypes) nofun rfl⟩

theorem stands_rounds {rounds : List Round} {v : Json} (h : Writes rounds v) :
    Stands shape v (rounds.map roundRecord, ()) := by
  obtain ⟨hrounds⟩ := h
  exact .inl ⟨_, rfl, named_cons (stands_list (f := roundRecord) (fun r v => stands_round) hrounds) nofun rfl⟩

theorem plain_number (id : ViewId) : Plain (number id) := by
  have hlow := id.minValue_le_toInt
  have hhigh := id.toInt_lt
  have hmin : Int32.minValue.toInt = -0x80000000 := rfl
  constructor <;> omega

theorem plain_map {α : Type} {write : α → Json} (h : ∀ a, Plain (write a)) (as : List α) :
    Plain (.array (as.map write)) := by
  refine plainElements_iff.mpr ?_
  rw [List.forall_mem_map]
  exact fun a _ => h a

theorem plain_forall₂ {α : Type} {R : α → Json → Prop} (hR : ∀ a v, R a v → Plain v) {as : List α}
    {vs : List Json} (h : List.Forall₂ R as vs) : Plain (.array vs) := by
  refine plainElements_iff.mpr fun v hv => ?_
  obtain ⟨a, ha⟩ := exists_of_forall₂ h.flip hv
  exact hR a v ha

theorem plain_keywords (s : Modifiers) : Plain (keywords s) := by
  have hkeyword (m : Modifier) : Plain (keyword m) := trivial
  exact plain_map hkeyword s.toList

theorem plain_marker {α : Type} {key : String} {write : α → Json} {a : Option α}
    {marker : List (String × Json)} (h : Marks key write a marker) (hwrite : ∀ b, Plain (write b)) :
    PlainMembers marker := by
  cases h with
  | absent => trivial
  | null => exact ⟨trivial, trivial⟩
  | present b => exact ⟨hwrite b, trivial⟩

theorem plain_field {f : FieldDecl} {v : Json} (h : WritesField f v) : Plain v := by
  obtain ⟨hmarker⟩ := h
  exact ⟨trivial, trivial, plain_keywords f.modifiers, plain_marker hmarker plain_number⟩

theorem plain_parameter (p : ParameterDecl) : Plain (parameterJson p) := ⟨trivial, trivial, trivial⟩

theorem plain_method {m : MethodDecl} {v : Json} (h : WritesMethod m v) : Plain v := by
  obtain ⟨hmarker⟩ := h
  exact ⟨trivial, plain_keywords m.modifiers, plain_map plain_parameter m.parameters,
    plain_marker hmarker fun ids => plain_map plain_number ids⟩

theorem plain_type {t : TypeDecl} {v : Json} (h : WritesType t v) : Plain v := by
  obtain ⟨hfields, hmethods⟩ := h
  exact ⟨trivial, trivial, trivial, plain_keywords t.modifiers, plain_map plain_keywords t.enclosing,
    plain_forall₂ (fun f v => plain_field) hfields, plain_forall₂ (fun m v => plain_method) hmethods,
    trivial⟩

theorem plain_rounds {rounds : List Round} {v : Json} (h : Writes rounds v) : Plain v := by
  obtain ⟨hrounds⟩ := h
  refine ⟨plain_forall₂ (fun r v hr => ?_) hrounds, trivial⟩
  obtain ⟨htypes⟩ := hr
  exact ⟨plain_forall₂ (fun t v => plain_type) htypes, trivial⟩

def Declarable (t : TypeName) : Prop := ∃ text, TypeName.declared text = .ok t

/-- A type named by identifiers whose surroundings are known as a whole or not at all, with members of
types that can be declared. -/
structure Writable (t : TypeDecl) : Prop where
  identifiers : ∀ s ∈ segments t.name.package ++ t.name.names, isIdentifier s.toList = true
  enclosing : t.enclosing = [] ∨ t.enclosing.length = t.name.inner.length
  fields : ∀ f ∈ t.fields, Declarable f.type
  parameters : ∀ m ∈ t.methods, ∀ p ∈ m.parameters, Declarable p.type

theorem ofList_toList (s : Modifiers) : Modifiers.ofList s.toList = s := by
  have hposition : ∀ i < 11, ∃ m ∈ Modifier.all, m.position = i := by decide
  have hcontains (m : Modifier) : (Modifiers.ofList s.toList).contains m = s.contains m := by
    simp [Modifiers.mem_toList]
  cases s with
  | mk mask =>
      refine congrArg Modifiers.mk (BitVec.eq_of_getLsbD_eq fun i hi => ?_)
      obtain ⟨m, -, rfl⟩ := hposition i hi
      exact hcontains m

theorem mapM_map {ε α β : Type} {f : α → β} {g : β → Except ε α} {as : List α}
    (h : ∀ a ∈ as, g (f a) = .ok a) : (as.map f).mapM g = .ok as := by
  induction as with
  | nil => rfl
  | cons a as ih =>
      obtain ⟨ha, has⟩ := List.forall_mem_cons.mp h
      rw [List.map_cons, List.mapM_cons, ha, ih has]
      rfl

theorem declaredType_text {t : TypeName} (h : Declarable t) (place : Place) :
    declaredType place t.text = .ok t := by
  rw [declaredType, TypeText.declared_text h]
  rfl

theorem parameterDecl_record (owner : ClassName) (method : String) {p : ParameterDecl}
    (h : Declarable p.type) : parameterDecl owner method (parameterRecord p) = .ok p := by
  rw [parameterDecl, parameterRecord, declaredType_text h]
  rfl

theorem fieldDecl_record (owner : ClassName) {f : FieldDecl} (h : Declarable f.type) :
    fieldDecl owner (fieldRecord f) = .ok f := by
  rw [fieldDecl, fieldRecord, declaredType_text h]
  exact congrArg (fun s => Except.ok { f with modifiers := s }) (ofList_toList f.modifiers)

theorem methodDecl_record (owner : ClassName) {m : MethodDecl}
    (h : ∀ p ∈ m.parameters, Declarable p.type) : methodDecl owner (methodRecord m) = .ok m := by
  have hparameters : (m.parameters.map parameterRecord).mapM (parameterDecl owner m.name) =
      .ok m.parameters := mapM_map fun p hp => parameterDecl_record owner m.name (h p hp)
  rw [methodDecl, methodRecord, hparameters]
  exact congrArg (fun s => Except.ok { m with modifiers := s }) (ofList_toList m.modifiers)

theorem typeDecl_record {t : TypeDecl} (h : Writable t) : typeDecl (typeRecord t) = .ok t := by
  have hname : typeName t.name.canonical (some t.name.package) = .ok t.name := by
    rw [typeName, within_canonical h.identifiers]
  have hfields : (t.fields.map fieldRecord).mapM (fieldDecl t.name) = .ok t.fields :=
    mapM_map fun f hf => fieldDecl_record t.name (h.fields f hf)
  have hmethods : (t.methods.map methodRecord).mapM (methodDecl t.name) = .ok t.methods :=
    mapM_map fun m hm => methodDecl_record t.name (h.parameters m hm)
  have hcount : (!(t.enclosing.map Modifiers.toList).isEmpty &&
      (t.enclosing.map Modifiers.toList).length ≠ t.name.inner.length) = false := by
    rcases h.enclosing with h | h <;> simp [h]
  have henclosing : (t.enclosing.map Modifiers.toList).map Modifiers.ofList = t.enclosing := by
    simp [Function.comp_def, ofList_toList]
  rw [typeDecl, typeRecord]
  dsimp only
  rw [hname]
  refine bind_eq_ok.mpr ⟨t.name, rfl, ?_⟩
  rw [hcount, if_neg Bool.false_ne_true, hfields]
  refine bind_eq_ok.mpr ⟨t.fields, rfl, ?_⟩
  rw [hmethods]
  refine bind_eq_ok.mpr ⟨t.methods, rfl, ?_⟩
  rw [henclosing, ofList_toList]

theorem round_record {r : Round} (h : ∀ t ∈ r.types, Writable t) : Manifest.round (roundRecord r) = .ok r := by
  have htypes : (r.types.map typeRecord).mapM typeDecl = .ok r.types :=
    mapM_map fun t ht => typeDecl_record (h t ht)
  rw [Manifest.round, roundRecord, htypes]
  rfl

theorem parse_of_writes {rounds : List Round} (hrounds : ∀ r ∈ rounds, ∀ t ∈ r.types, Writable t)
    {v : Json} (h : Writes rounds v) {text : String} (htext : Json.parse text = .ok v) :
    parse text = .ok rounds := by
  rw [parse, Records.parse_eq_ok_iff.mpr ⟨v, htext, stands_rounds h⟩]
  exact mapM_map fun r hr => round_record (hrounds r hr)

theorem exists_forall₂ {α β : Type} {R : α → β → Prop} (h : ∀ a, ∃ b, R a b) (as : List α) :
    ∃ bs, List.Forall₂ R as bs := by
  induction as with
  | nil => exact ⟨[], .nil⟩
  | cons a as ih =>
      obtain ⟨b, hb⟩ := h a
      obtain ⟨bs, hbs⟩ := ih
      exact ⟨b :: bs, .cons hb hbs⟩

theorem exists_marks {α : Type} (key : String) (write : α → Json) (a : Option α) :
    ∃ marker, Marks key write a marker := by
  cases a with
  | none => exact ⟨_, .absent⟩
  | some a => exact ⟨_, .present a⟩

theorem exists_writes (rounds : List Round) : ∃ v, Writes rounds v := by
  have hfield (f : FieldDecl) : ∃ v, WritesField f v := by
    obtain ⟨marker, h⟩ := exists_marks "view_by_id" number f.viewId
    exact ⟨_, .intro h⟩
  have hmethod (m : MethodDecl) : ∃ v, WritesMethod m v := by
    obtain ⟨marker, h⟩ := exists_marks "on_click" (fun ids => .array (ids.map number)) m.clickIds
    exact ⟨_, .intro h⟩
  have htype (t : TypeDecl) : ∃ v, WritesType t v := by
    obtain ⟨fields, hfields⟩ := exists_forall₂ hfield t.fields
    obtain ⟨methods, hmethods⟩ := exists_forall₂ hmethod t.methods
    exact ⟨_, .intro hfields hmethods⟩
  have hround (r : Round) : ∃ v, WritesRound r v := by
    obtain ⟨types, htypes⟩ := exists_forall₂ htype r.types
    exact ⟨_, .intro htypes⟩
  obtain ⟨vs, hvs⟩ := exists_forall₂ hround rounds
  exact ⟨_, .intro hvs⟩

/-- What rounds are written as, in any of the ways, is read as these rounds. -/
theorem parse_writes (rounds : List Round) (hrounds : ∀ r ∈ rounds, ∀ t ∈ r.types, Writable t) :
    (∃ v, Writes rounds v) ∧ ∀ v, Writes rounds v → parse v.text = .ok rounds :=
  ⟨exists_writes rounds, fun _ h => parse_of_writes hrounds h (parse_text (plain_rounds h))⟩

def gallery : TypeDecl where
  name := ⟨"app.ui", "gallery", ["row"]⟩
  kind := .interface
  modifiers := .ofList [.static, .publicAccess]
  enclosing := [.empty]
  fields := [⟨"\"title\"", .array (.primitive .int), .empty, some (-1)⟩]
  methods := [⟨"open\n", .empty, [⟨"view", .verbatim "List<?>"⟩], some []⟩]

theorem parse_writes_gallery :
    (∀ r ∈ [Round.mk [gallery]], ∀ t ∈ r.types, Writable t) ∧ (∃ v, Writes [⟨[gallery]⟩] v) ∧
      ∀ v, Writes [⟨[gallery]⟩] v → parse v.text = .ok [⟨[gallery]⟩] := by
  have hwritable : Writable gallery := {
    identifiers := by decide
    enclosing := .inr rfl
    fields := by simpa [gallery] using ⟨"int[]", by rfl⟩
    parameters := by simpa [gallery] using ⟨"List<?>", by rfl⟩ }
  have hrounds : ∀ r ∈ [Round.mk [gallery]], ∀ t ∈ r.types, Writable t := by simpa using hwritable
  exact ⟨hrounds, parse_writes [⟨[gallery]⟩] hrounds⟩

end ViewBinding.Proofs.RoundTrip
