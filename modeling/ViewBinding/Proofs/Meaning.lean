import ViewBinding.Manifest.Basic
import ViewBinding.Proofs.Members
import ViewBinding.Proofs.Printing
import ViewBinding.Proofs.Records

namespace ViewBinding.Proofs.Meaning

open Manifest Standing Members Remainder

def said : Shape → String → Json → Option Json
  | .record _ members, key, v => given members key v
  | _, _, _ => none

def text (shape : Shape) (key : String) (v : Json) : String :=
  match said shape key v with
  | some (.string s) => s
  | _ => ""

def items (shape : Shape) (key : String) (v : Json) : List Json :=
  match said shape key v with
  | some (.array vs) => vs
  | _ => []

/-- The class a type is named as: inside its package where one is given, else by its capitalization. -/
def host (v : Json) : Except NameError ClassName :=
  match said typeShape "package" v with
  | some (.string package) => ClassName.within package (text typeShape "name" v)
  | _ => ClassName.guess (text typeShape "name" v)

def Lists (vs : List Json) (s : Modifiers) : Prop :=
  ∀ m, s.contains m = true ↔ ∃ v ∈ vs, Spells m.keyword v

/-- A marker is there when it is given and not null. -/
def Marked (v? : Option Json) : Prop := ∃ v, v? = some v ∧ v ≠ .null

structure DescribesParameter (v : Json) (p : ParameterDecl) : Prop where
  name : said parameterShape "name" v = some (.string p.name)
  type : TypeName.declared (text parameterShape "type" v) = .ok p.type

structure DescribesField (v : Json) (f : FieldDecl) : Prop where
  name : said fieldShape "name" v = some (.string f.name)
  type : TypeName.declared (text fieldShape "type" v) = .ok f.type
  modifiers : Lists (items fieldShape "modifiers" v) f.modifiers
  marked : f.viewId.isSome = true ↔ Marked (said fieldShape "view_by_id" v)
  viewId : ∀ id, f.viewId = some id → said fieldShape "view_by_id" v = some (.integer id.toInt)

structure DescribesMethod (v : Json) (m : MethodDecl) : Prop where
  name : said methodShape "name" v = some (.string m.name)
  modifiers : Lists (items methodShape "modifiers" v) m.modifiers
  parameters : List.Forall₂ DescribesParameter (items methodShape "parameters" v) m.parameters
  marked : m.clickIds.isSome = true ↔ Marked (said methodShape "on_click" v)
  clickIds : ∀ ids, m.clickIds = some ids →
    said methodShape "on_click" v = some (.array (ids.map fun id => .integer id.toInt))

structure DescribesType (v : Json) (t : TypeDecl) : Prop where
  name : host v = .ok t.name
  kind : ∀ w, said typeShape "kind" v = some w → Spells t.kind.keyword w
  ordinary : said typeShape "kind" v = none → t.kind = .ordinary
  modifiers : Lists (items typeShape "modifiers" v) t.modifiers
  enclosing : List.Forall₂ (fun w s => ∃ vs, w = .array vs ∧ Lists vs s)
    (items typeShape "enclosing" v) t.enclosing
  fields : List.Forall₂ DescribesField (items typeShape "fields" v) t.fields
  methods : List.Forall₂ DescribesMethod (items typeShape "methods" v) t.methods

/-- The rounds a manifest describes, with all their types in order. -/
def Describes (v : Json) (rounds : List Round) : Prop :=
  List.Forall₂ (fun w (r : Round) => List.Forall₂ DescribesType (items roundShape "types" w) r.types)
    (items shape "rounds" v) rounds

def typeFault (place : Place) (text : String) : List Error :=
  match TypeName.declared text with
  | .ok _ => []
  | .error e => [.badName place e]

def parameterFaults (owner : ClassName) (method : String) (v : Json) : List Error :=
  typeFault (.parameter owner method (text parameterShape "name" v)) (text parameterShape "type" v)

def methodFaults (owner : ClassName) (v : Json) : List Error :=
  (items methodShape "parameters" v).flatMap (parameterFaults owner (text methodShape "name" v))

def fieldFaults (owner : ClassName) (v : Json) : List Error :=
  typeFault (.field owner (text fieldShape "name" v)) (text fieldShape "type" v)

def enclosingFaults (c : ClassName) (v : Json) : List Error :=
  let listed := items typeShape "enclosing" v
  if listed = [] ∨ listed.length = c.inner.length then []
  else [.enclosingCount (text typeShape "name" v) c.inner.length listed.length]

/-- The members of a type without a name cannot be told by their owner; its name is all that is wrong
with it. -/
def typeFaults (v : Json) : List Error :=
  match host v with
  | .error e => [.badName (.type (text typeShape "name" v)) e]
  | .ok c =>
      enclosingFaults c v ++ (items typeShape "fields" v).flatMap (fieldFaults c) ++
        (items typeShape "methods" v).flatMap (methodFaults c)

/-- All that is wrong with the names in a manifest, in document order. -/
def faults (v : Json) : List Error :=
  (items shape "rounds" v).flatMap fun w => (items roundShape "types" w).flatMap typeFaults

/-- Every type of a manifest has a name, as many enclosing types as are listed, if any are, and members
of declared types. -/
def Acceptable (v : Json) : Prop :=
  ∀ w ∈ items shape "rounds" v, ∀ t ∈ items roundShape "types" w, ∃ c, host t = .ok c ∧
    (items typeShape "enclosing" t = [] ∨ (items typeShape "enclosing" t).length = c.inner.length) ∧
    (∀ f ∈ items typeShape "fields" t, ∃ type, TypeName.declared (text fieldShape "type" f) = .ok type) ∧
    ∀ m ∈ items typeShape "methods" t, ∀ p ∈ items methodShape "parameters" m,
      ∃ type, TypeName.declared (text parameterShape "type" p) = .ok type

theorem typeFault_eq_nil_iff {place : Place} {text : String} :
    typeFault place text = [] ↔ ∃ type, TypeName.declared text = .ok type := by
  rw [typeFault]
  split
  next type htype => simp [htype]
  next e he => simp [he]

theorem enclosingFaults_eq_nil_iff {c : ClassName} {v : Json} :
    enclosingFaults c v = [] ↔
      items typeShape "enclosing" v = [] ∨ (items typeShape "enclosing" v).length = c.inner.length := by
  rw [enclosingFaults]
  split_ifs with h <;> simp [h]

theorem typeFaults_eq_nil_iff {v : Json} :
    typeFaults v = [] ↔ ∃ c, host v = .ok c ∧ enclosingFaults c v = [] ∧
      (∀ f ∈ items typeShape "fields" v, fieldFaults c f = []) ∧
      ∀ m ∈ items typeShape "methods" v, methodFaults c m = [] := by
  rw [typeFaults]
  split
  next e he => simp [he]
  next c hc => simp [hc]

theorem faults_eq_nil_iff {v : Json} : faults v = [] ↔ Acceptable v := by
  simp only [faults, Acceptable, List.flatMap_eq_nil_iff, typeFaults_eq_nil_iff,
    enclosingFaults_eq_nil_iff, methodFaults, fieldFaults, parameterFaults, typeFault_eq_nil_iff]

section Settling

variable {α β γ : Type} {x : Except Error α} {es fs : List Error} {P : α → Prop} {Q : β → Prop}

/-- A computation that meets the given faults in their order: it fails with the first, and where there
is none its result is as described. -/
inductive Settles {α : Type} : Except Error α → List Error → (α → Prop) → Prop
  | ok {a P} (h : P a) : Settles (.ok a) [] P
  | error (e es P) : Settles (.error e) (e :: es) P

theorem Settles.bind {f : α → Except Error β} (hx : Settles x es P)
    (hf : ∀ a, P a → Settles (f a) fs Q) : Settles (x >>= f) (es ++ fs) Q := by
  cases hx with
  | ok ha => exact hf _ ha
  | error e es => exact .error e (es ++ fs) Q

theorem Settles.map {f : α → Except Error β} (hx : Settles x es P)
    (hf : ∀ a, P a → Settles (f a) [] Q) : Settles (x >>= f) es Q :=
  List.append_nil es ▸ hx.bind hf

theorem Settles.ok_bind {a : α} {f : α → Except Error β} (h : Settles (f a) es Q) :
    Settles (.ok a >>= f) es Q := h

theorem Settles.guard {c : Prop} [Decidable c] {e : Error} {f : Unit → Except Error α}
    (hf : Settles (f ()) es P) :
    Settles (if c then .error e >>= f else f ()) ((if c then [e] else []) ++ es) P := by
  split
  · exact .error e es P
  · exact hf

theorem Settles.mapM {R : γ → α → Prop} {D : γ → β → Prop} {faults : γ → List Error}
    {f : α → Except Error β} {vs : List γ} {as : List α} (h : List.Forall₂ R vs as)
    (hf : ∀ v a, R v a → Settles (f a) (faults v) (D v)) :
    Settles (as.mapM f) (vs.flatMap faults) (List.Forall₂ D vs) := by
  induction h with
  | nil => exact .ok .nil
  | cons ha _ ih =>
      rw [List.mapM_cons, List.flatMap_cons]
      refine (hf _ _ ha).bind fun b hb => ?_
      exact ih.map fun bs hbs => .ok (.cons hb hbs)

theorem Settles.error_iff (h : Settles x es P) {e : Error} : x = .error e ↔ es.head? = some e := by
  cases h <;> simp

theorem Settles.of_ok (h : Settles x es P) {a : α} (ha : x = .ok a) : P a := by
  cases h with
  | ok h => exact Except.ok.inj ha ▸ h
  | error => cases ha

theorem Settles.ok_iff (h : Settles x es P) : (∃ a, x = .ok a) ↔ es = [] := by
  cases h <;> simp

end Settling

section Single

variable {s : Shape} {key : String} {v : Json} {required : Bool}

theorem holdsAll_said {members : Manifest.Members} (hkeys : members.keys.Nodup) {name : String}
    {a : members.Carrier} (h : Stands (.record name members) v a) :
    HoldsAll (said (.record name members) · v) members a :=
  holdsAll_given hkeys h

theorem said_of_holds {w : String} (h : Holds true .text (said s key v) w) :
    said s key v = some (.string w) := by
  rw [Holds.eq_def] at h
  split at h
  next hv => rw [hv, h]
  · cases h.1

theorem text_of_holds {w : String} (h : Holds true .text (said s key v) w) : text s key v = w := by
  rw [text, said_of_holds h]

theorem items_of_holds {element : Shape} {as : List element.Carrier}
    (h : Holds required (.list element) (said s key v) as) :
    List.Forall₂ (Stands element) (items s key v) as := by
  rw [Holds.eq_def] at h
  split at h
  next hv =>
    obtain ⟨vs, rfl, has⟩ := h
    rwa [items, hv]
  next hv =>
    obtain ⟨-, has⟩ := h
    cases has
    rw [items, hv]
    exact .nil

theorem lists_of_forall₂ {vs : List Json} {ms : List Modifier}
    (h : List.Forall₂ (Stands .modifier) vs ms) : Lists vs (.ofList ms) := by
  intro m
  rw [Modifiers.contains_ofList, decide_eq_true_eq]
  induction h with
  | nil => simp
  | cons hv _ ih =>
      simp only [List.mem_cons, ih, exists_eq_or_imp]
      refine or_congr_left ?_
      rw [← modifier_iff, hv, Except.ok.injEq, eq_comm]

theorem marked_of_holds {inner : Shape} {a : Option inner.Carrier}
    (h : Holds false (.optional inner) (said s key v) a) :
    (a.isSome = true ↔ Marked (said s key v)) ∧
      ∀ b, a = some b → ∃ w, said s key v = some w ∧ Stands inner w b := by
  rw [Holds.eq_def] at h
  split at h
  next w hw =>
    obtain ⟨rfl, rfl⟩ | ⟨hne, b, rfl, hb⟩ := h
    · simp [hw, Marked]
    · exact ⟨by simp [hw, Marked, hne], fun c hc => ⟨w, hw, Option.some.inj hc ▸ hb⟩⟩
  next hw =>
    cases h.2
    simp [hw, Marked]

theorem kind_of_holds {v? : Option Json} {k : TypeKind} (h : Holds false .kind v? k) :
    (∀ w, v? = some w → Spells k.keyword w) ∧ (v? = none → k = .ordinary) := by
  constructor
  · rintro w rfl
    exact kind_iff.mp h
  · rintro rfl
    exact (Option.some.inj h.2).symm

theorem integers_of_forall₂ {vs : List Json} {ids : List ViewId}
    (h : List.Forall₂ (Stands .viewId) vs ids) : vs = ids.map fun id => .integer id.toInt := by
  induction h with
  | nil => rfl
  | cons hv _ ih => rw [List.map_cons, ih, hv]

end Single

theorem declaredType_settles (place : Place) (text : String) :
    Settles (declaredType place text) (typeFault place text) fun t => TypeName.declared text = .ok t := by
  rw [declaredType, typeFault]
  cases TypeName.declared text with
  | ok t => exact .ok rfl
  | error e => exact .error _ _ _

theorem parameterDecl_settles (owner : ClassName) (method : String) {v : Json}
    {a : parameterShape.Carrier} (h : Stands parameterShape v a) :
    Settles (parameterDecl owner method a) (parameterFaults owner method v) (DescribesParameter v) := by
  obtain ⟨name, type, ⟨⟩⟩ := a
  obtain ⟨hname, htype, -⟩ := holdsAll_said (by decide) h
  rw [parameterFaults, text_of_holds hname, text_of_holds htype]
  refine (declaredType_settles _ type).map fun t ht => .ok ⟨said_of_holds hname, ?_⟩
  rw [text_of_holds htype, ht]

theorem fieldDecl_settles (owner : ClassName) {v : Json} {a : fieldShape.Carrier}
    (h : Stands fieldShape v a) :
    Settles (fieldDecl owner a) (fieldFaults owner v) (DescribesField v) := by
  obtain ⟨name, type, modifiers, viewId, ⟨⟩⟩ := a
  obtain ⟨hname, htype, hmodifiers, hmarker, -⟩ := holdsAll_said (by decide) h
  obtain ⟨hmarked, hid⟩ := marked_of_holds hmarker
  rw [fieldFaults, text_of_holds hname, text_of_holds htype]
  refine (declaredType_settles _ type).map fun t ht => .ok ?_
  exact {
    name := said_of_holds hname
    type := by rw [text_of_holds htype, ht]
    modifiers := lists_of_forall₂ (items_of_holds hmodifiers)
    marked := hmarked
    viewId := fun id hsome => by
      obtain ⟨w, hw, rfl⟩ := hid id hsome
      exact hw }

theorem methodDecl_settles (owner : ClassName) {v : Json} {a : methodShape.Carrier}
    (h : Stands methodShape v a) :
    Settles (methodDecl owner a) (methodFaults owner v) (DescribesMethod v) := by
  obtain ⟨name, modifiers, parameters, clickIds, ⟨⟩⟩ := a
  obtain ⟨hname, hmodifiers, hparameters, hmarker, -⟩ := holdsAll_said (by decide) h
  obtain ⟨hmarked, hids⟩ := marked_of_holds hmarker
  have hsettles := Settles.mapM (items_of_holds hparameters) fun v a => parameterDecl_settles owner name
  rw [methodFaults, text_of_holds hname]
  refine hsettles.map fun ps hps => .ok ?_
  exact {
    name := said_of_holds hname
    modifiers := lists_of_forall₂ (items_of_holds hmodifiers)
    parameters := hps
    marked := hmarked
    clickIds := fun ids hsome => by
      obtain ⟨w, hw, vs, rfl, hvs⟩ := hids ids hsome
      rw [hw, integers_of_forall₂ hvs] }

theorem host_eq {v : Json} {name : String} {package : Option String}
    (hname : text typeShape "name" v = name)
    (hpackage : Holds false (.optional .text) (said typeShape "package" v) package) :
    host v = typeName name package := by
  rw [Holds.eq_def] at hpackage
  split at hpackage
  next w hw =>
    obtain ⟨rfl, rfl⟩ | ⟨-, p, rfl, rfl⟩ := hpackage <;> rw [host, hw, hname] <;> rfl
  next hw =>
    cases hpackage.2
    rw [host, hw, hname]
    rfl

theorem enclosingFaults_eq {c : ClassName} {v : Json} {name : String} {enclosing : List (List Modifier)}
    (hname : text typeShape "name" v = name)
    (hlength : (items typeShape "enclosing" v).length = enclosing.length) :
    enclosingFaults c v = if (!enclosing.isEmpty && enclosing.length ≠ c.inner.length) = true then
      [.enclosingCount name c.inner.length enclosing.length] else [] := by
  have hempty : items typeShape "enclosing" v = [] ↔ enclosing = [] := by
    rw [← List.length_eq_zero_iff, hlength, List.length_eq_zero_iff]
  rw [enclosingFaults, hname, hlength, ← ite_not]
  exact if_congr (by simp [hempty]) rfl rfl

theorem typeDecl_settles {v : Json} {a : typeShape.Carrier} (h : Stands typeShape v a) :
    Settles (typeDecl a) (typeFaults v) (DescribesType v) := by
  obtain ⟨name, package, kind, modifiers, enclosing, fields, methods, ⟨⟩⟩ := a
  obtain ⟨hname, hpackage, hkind, hmodifiers, henclosing, hfields, hmethods, -⟩ :=
    holdsAll_said (by decide) h
  have hname := text_of_holds hname
  have hhost := host_eq hname hpackage
  have henclosing := items_of_holds henclosing
  rw [typeFaults, typeDecl, hhost]
  cases hc : typeName name package with
  | error e =>
      dsimp only
      rw [hname]
      exact .error _ _ _
  | ok c =>
      dsimp only
      rw [enclosingFaults_eq hname henclosing.length_eq, List.append_assoc]
      refine Settles.ok_bind (Settles.guard ?_)
      have hfields := Settles.mapM (items_of_holds hfields) fun v a => fieldDecl_settles c
      have hmethods := Settles.mapM (items_of_holds hmethods) fun v a => methodDecl_settles c
      refine hfields.bind fun fs hfs => hmethods.map fun ms hms => .ok ?_
      exact {
        name := hhost.trans hc
        kind := (kind_of_holds hkind).1
        ordinary := (kind_of_holds hkind).2
        modifiers := lists_of_forall₂ (items_of_holds hmodifiers)
        enclosing := by
          rw [List.forall₂_map_right_iff]
          exact henclosing.imp fun w ms ⟨vs, hw, hvs⟩ => ⟨vs, hw, lists_of_forall₂ hvs⟩
        fields := hfs
        methods := hms }

theorem round_settles {v : Json} {a : roundShape.Carrier} (h : Stands roundShape v a) :
    Settles (Manifest.round a) ((items roundShape "types" v).flatMap typeFaults)
      fun r => List.Forall₂ DescribesType (items roundShape "types" v) r.types := by
  obtain ⟨types, ⟨⟩⟩ := a
  obtain ⟨htypes, -⟩ := holdsAll_said (by decide) h
  have hsettles := Settles.mapM (items_of_holds htypes) fun v a => typeDecl_settles
  exact hsettles.map fun ts hts => .ok hts

theorem parse_settles {text : String} {v : Json} {a : shape.Carrier}
    (ha : shape.parse text.toList = .ok a) (h : Stands shape v a) :
    Settles (parse text) (faults v) (Describes v) := by
  obtain ⟨rounds, ⟨⟩⟩ := a
  obtain ⟨hrounds, -⟩ := holdsAll_said (by decide) h
  rw [parse, ha]
  exact Settles.ok_bind (Settles.mapM (items_of_holds hrounds) fun v a => round_settles)

/-- A manifest that can be read is accepted if all names in it have a meaning, and is then read as the
declarations it describes; otherwise the answer is the first of its faults. -/
theorem parse_means (text : String) (a : shape.Carrier) (ha : shape.parse text.toList = .ok a) :
    ∃ v, Json.parse text = .ok v ∧ Stands shape v a ∧
      ((∃ rounds, parse text = .ok rounds) ↔ Acceptable v) ∧
      (∀ rounds, parse text = .ok rounds → Describes v rounds) ∧
      ∀ e, parse text = .error e ↔ (faults v).head? = some e := by
  obtain ⟨v, hv, h⟩ := Records.parse_eq_ok_iff.mp ha
  have hsettles := parse_settles ha h
  exact ⟨v, hv, h, hsettles.ok_iff.trans faults_eq_nil_iff, fun rounds => hsettles.of_ok,
    fun e => hsettles.error_iff⟩

def untyped : Json :=
  .object [("rounds", .array [.object [("types", .array [.object [("name", .string "a.B"),
    ("fields", .array [.object [("name", .string "f"), ("type", .string "")]])]])]])]

def untypedRecords : shape.Carrier :=
  ([([("a.B", none, .ordinary, [], [], [("f", "", [], none, ())], [], ())], ())], ())

theorem parse_means_untyped :
    shape.parse untyped.text.toList = .ok untypedRecords ∧
      parse untyped.text = .error (.badName (.field ⟨"a", "B", []⟩ "f") .empty) := by
  have hplain : Printing.Plain untyped := by
    simp [untyped, Printing.Plain, Printing.PlainElements, Printing.PlainMembers]
  have hstands : Stands shape untyped untypedRecords := by
    simp [untyped, untypedRecords, Stands, Named, valuesOf_cons, others_cons, Shape.absent?,
      Shape.default?]
  have hread : shape.parse untyped.text.toList = .ok untypedRecords :=
    Records.parse_eq_ok_iff.mpr ⟨untyped, Printing.parse_text hplain, hstands⟩
  obtain ⟨v, hv, -, -, -, herror⟩ := parse_means untyped.text untypedRecords hread
  obtain rfl : untyped = v := Except.ok.inj ((Printing.parse_text hplain).symm.trans hv)
  exact ⟨hread, (herror _).mpr rfl⟩

end ViewBinding.Proofs.Meaning
