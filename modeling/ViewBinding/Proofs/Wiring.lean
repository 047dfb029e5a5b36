import ViewBinding.Proofs.Line

namespace ViewBinding.Proofs.Wiring

open Text Java Line

variable (options : Options)

/-- What a name stands for: an argument of the method, the view that was clicked, or what a local
variable holds. -/
inductive Value where
  | argument (position : Nat)
  | clicked
  | held (slot : String)

structure Slot where
  name : String
  type : TypeExpr
  object : Option Nat

structure Assignment where
  receiver : Value
  field : String
  type : TypeExpr
  source : Value
  id : Int

/-- An object with one method, in which one method is called. -/
structure Listener where
  type : TypeExpr
  method : String
  parameter : String × TypeExpr
  receiver : Value
  called : String
  passed : Option (String × Value)

structure Registration where
  source : Value
  id : Int
  object : Nat

structure Memory where
  parameters : List String
  slots : List Slot := []
  assigned : List Assignment := []
  made : List Listener := []
  registered : List Registration := []

/-- How far the object has got that is being made for a variable. -/
inductive Stage where
  | outside
  | opened (slot : String) (type : TypeExpr)
  | annotated (slot : String) (type : TypeExpr)
  | entered (slot : String) (type : TypeExpr) (method : String) (parameter : String × TypeExpr)
  | called (slot : String) (object : Listener)
  | left (slot : String) (object : Listener)

namespace Memory

def slot? (m : Memory) (name : String) : Option Slot := m.slots.find? fun s => s.name = name

def value? (m : Memory) (name : String) : Option Value :=
  if (m.slot? name).isSome then some (.held name)
  else (m.parameters.findIdx? (· = name)).map .argument

/-- In the method of a listener its parameter hides what has the same name outside. -/
def inner? (m : Memory) (parameter name : String) : Option Value :=
  if name = parameter then some .clicked else m.value? name

def hold (m : Memory) (name : String) (object : Nat) : Memory :=
  { m with slots := m.slots.map fun s => if s.name = name then { s with object := some object } else s }

end Memory

/-- Carries out one statement; it stops at one that uses a name not in scope. -/
def step : Stage × Memory → Statement → Option (Stage × Memory)
  | (.outside, m), .assign receiver field type source id => do
      let receiver ← m.value? receiver
      let source ← m.value? source
      some (.outside, { m with assigned := m.assigned ++ [⟨receiver, field, type, source, id⟩] })
  | (.outside, m), .declare type slot =>
      if (m.value? slot).isSome then none
      else some (.outside, { m with slots := m.slots ++ [⟨slot, type, none⟩] })
  | (.outside, m), .make slot type =>
      if (m.slot? slot).isSome then some (.opened slot type, m) else none
  | (.opened slot type, m), .annotate _ => some (.annotated slot type, m)
  | (.annotated slot type, m), .enter method type' parameter =>
      some (.entered slot type method (parameter, type'), m)
  | (.entered slot type method parameter, m), .call receiver called argument => do
      let receiver ← m.inner? parameter.1 receiver
      let passed ← match argument with
        | none => some none
        | some name => (m.inner? parameter.1 name).map fun v => some (name, v)
      some (.called slot ⟨type, method, parameter, receiver, called, passed⟩, m)
  | (.called slot object, m), .leave => some (.left slot object, m)
  | (.left slot object, m), .complete =>
      some (.outside, { m.hold slot m.made.length with made := m.made ++ [object] })
  | (.outside, m), .register source id slot => do
      let source ← m.value? source
      let object ← (← m.slot? slot).object
      some (.outside, { m with registered := m.registered ++ [⟨source, id, object⟩] })
  | _, _ => none

def run (ss : List Statement) (x : Stage × Memory) : Option (Stage × Memory) := ss.foldlM step x

/-- Carries out a method, as far as every line says something and nothing is left half made. -/
def carryOut (method : Method) : Option Memory := do
  let statements ← method.body.lines.toList.mapM fun l => readLine l.snippet.fragments
  match ← run statements (.outside, { parameters := method.parameters.map Parameter.name }) with
  | (.outside, m) => some m
  | _ => none

theorem run_append {ss ts : List Statement} {x y : Stage × Memory} (h : run ss x = some y) :
    run (ss ++ ts) x = run ts y := by
  rw [run, List.foldlM_append]
  change (run ss x).bind (run ts) = run ts y
  rw [h, Option.bind_some]

theorem carryOut_eq {method : Method} {ss : List Statement} {m : Memory}
    (hs : Says readLine method.body ss)
    (hr : run ss (.outside, { parameters := method.parameters.map Parameter.name }) =
      some (.outside, m)) : carryOut method = some m := by
  unfold Says at hs
  rw [carryOut, hs, Option.bind_eq_bind, Option.bind_some, hr]
  rfl

def assignStatement (b : FieldBinding) : Statement :=
  .assign "target" b.name (.declared b.type) "root" b.id.toInt

def registerStatement (id : ViewId) : Statement := .register "root" id.toInt "listener"

def openingStatements (b : MethodBinding) : List Statement :=
  [.make "listener" (.ofClass options.listenerType),
    .annotate (.ofClass (.ofTopLevel "java.lang" "Override")),
    .enter "onClick" (.ofClass options.viewType) (Companion.callbackName b)]

def callStatement (b : MethodBinding) : Statement :=
  .call "target" b.name (passedName b)

def handlerStatements (b : MethodBinding) : List Statement :=
  openingStatements options b ++
    callStatement b :: .leave :: .complete :: b.ids.map registerStatement

def statements (c : Companion) : List Statement :=
  c.fields.map assignStatement ++
  if c.methods.isEmpty then []
  else
    .declare (.ofClass options.listenerType) "listener" ::
      c.methods.flatMap (handlerStatements options)

theorem callbackName_not_local (b : MethodBinding) : Companion.callbackName b ∉ Companion.locals := by
  unfold Companion.callbackName
  split
  · next p hp =>
      split
      · decide
      · next h => simpa using h
  · decide

theorem callbackName_of_parameter {b : MethodBinding} {p : String} (hp : b.parameter = some p)
    (hl : p ∉ Companion.locals) : Companion.callbackName b = p := by
  have h : Companion.locals.contains p = false := by simpa using hl
  unfold Companion.callbackName
  rw [hp]
  simp only [h, Bool.false_eq_true, if_false]

theorem callbackName_of_hiding {b : MethodBinding}
    (h : ∀ p, b.parameter = some p → p ∈ Companion.locals) : Companion.callbackName b = "view" := by
  unfold Companion.callbackName
  split
  · next p hp => exact if_pos (by simpa using h p hp)
  · rfl

theorem isIdentifier_callbackName {b : MethodBinding}
    (h : ∀ p, b.parameter = some p → isIdentifier p.toList = true) :
    isIdentifier (Companion.callbackName b).toList = true := by
  unfold Companion.callbackName
  split
  · next p hp =>
      split
      · decide
      · exact h p hp
  · decide

theorem says_assignments {code : CodeBlock} {ss : List Statement} {fs : List FieldBinding}
    (h : Says readLine code ss) (hf : ∀ b ∈ fs, isIdentifier b.name.toList = true) :
    Says readLine (fs.foldl (fun code b => code.statement (Companion.assignment b)) code)
      (ss ++ fs.map assignStatement) := by
  rw [List.map_eq_flatMap]
  exact says_foldl (fun b hb _ _ hcode => says_statement hcode (readLine_assignment b (hf b hb))) h

theorem says_registrations {code : CodeBlock} {ss : List Statement} (ids : List ViewId)
    (h : Says readLine code ss) :
    Says readLine (ids.foldl (fun code id =>
        code.statement s!"{Companion.viewLookup id}.setOnClickListener(listener)") code)
      (ss ++ ids.map registerStatement) := by
  rw [List.map_eq_flatMap]
  exact says_foldl (fun id _ _ _ hcode => says_statement hcode (readLine_registration id)) h

theorem says_addHandler {code : CodeBlock} {ss : List Statement} {b : MethodBinding}
    (h : Says readLine code ss) (hb : isIdentifier b.name.toList = true)
    (hp : ∀ p, b.parameter = some p → isIdentifier p.toList = true) :
    Says readLine (Companion.addHandler options code b) (ss ++ handlerStatements options b) := by
  have hcallback := isIdentifier_callbackName hp
  have hmake := says_opening h (readLine_making (.ofClass options.listenerType))
  have hannotate := says_line hmake (readLine_marking (.ofClass (.ofTopLevel "java.lang" "Override")))
  have henter := says_opening hannotate (readLine_entering (.ofClass options.viewType) hcallback)
  have hcall := says_statement henter (readLine_call hb hcallback)
  have hcomplete := says_closing (says_closing hcall readLine_leaving) readLine_completion
  have hall := says_registrations b.ids hcomplete
  simp only [List.append_assoc, List.cons_append, List.nil_append] at hall
  exact hall

theorem says_addHandlers {code : CodeBlock} {ss : List Statement} {bs : List MethodBinding}
    (h : Says readLine code ss) (hb : ∀ b ∈ bs, isIdentifier b.name.toList = true)
    (hp : ∀ b ∈ bs, ∀ p, b.parameter = some p → isIdentifier p.toList = true) :
    Says readLine (bs.foldl (Companion.addHandler options) code)
      (ss ++ bs.flatMap (handlerStatements options)) :=
  says_foldl (fun b hm _ _ hcode => says_addHandler options hcode (hb b hm) (hp b hm)) h

theorem says_body {c : Companion} (hf : ∀ b ∈ c.fields, isIdentifier b.name.toList = true)
    (hm : ∀ b ∈ c.methods, isIdentifier b.name.toList = true)
    (hp : ∀ b ∈ c.methods, ∀ p, b.parameter = some p → isIdentifier p.toList = true) :
    Says readLine (c.body options) (statements options c) := by
  have hfields := says_assignments says_empty hf
  rw [List.nil_append] at hfields
  unfold Companion.body statements
  by_cases h : c.methods.isEmpty = true
  · rw [if_pos h, if_pos h, List.append_nil]
    exact hfields
  · rw [if_neg h, if_neg h]
    have hdeclare := says_statement hfields (readLine_declaration (.ofClass options.listenerType))
    have hall := says_addHandlers options hdeclare hm hp
    rw [List.append_assoc, List.singleton_append] at hall
    exact hall

def wired (slots : List Slot) (as : List Assignment) (ls : List Listener) (rs : List Registration) :
    Memory := ⟨["target", "root"], slots, as, ls, rs⟩

def listenerSlot (object : Option Nat) : Slot := ⟨"listener", .ofClass options.listenerType, object⟩

def assignmentOf (b : FieldBinding) : Assignment :=
  ⟨.argument 0, b.name, .declared b.type, .argument 1, b.id.toInt⟩

def listenerOf (b : MethodBinding) : Listener where
  type := .ofClass options.listenerType
  method := "onClick"
  parameter := (Companion.callbackName b, .ofClass options.viewType)
  receiver := .argument 0
  called := b.name
  passed := b.parameter.map fun _ => (Companion.callbackName b, .clicked)

def registrationsOf (ids : List ViewId) (object : Nat) : List Registration :=
  ids.map fun id => ⟨.argument 1, id.toInt, object⟩

theorem run_assignments (fs : List FieldBinding) (as : List Assignment) :
    run (fs.map assignStatement) (.outside, wired [] as [] []) =
      some (.outside, wired [] (as ++ fs.map assignmentOf) [] []) := by
  induction fs generalizing as with
  | nil => simp [run]
  | cons b fs ih =>
      have hstep : step (.outside, wired [] as [] []) (assignStatement b) =
          some (.outside, wired [] (as ++ [assignmentOf b]) [] []) := rfl
      have hrest := ih (as ++ [assignmentOf b])
      rw [List.append_assoc] at hrest
      rw [List.map_cons, run, List.foldlM_cons, hstep]
      exact hrest

theorem run_registrations (ids : List ViewId) (object : Nat) (as : List Assignment)
    (ls : List Listener) (rs : List Registration) :
    run (ids.map registerStatement) (.outside, wired [listenerSlot options (some object)] as ls rs) =
      some (.outside, wired [listenerSlot options (some object)] as ls
        (rs ++ registrationsOf ids object)) := by
  induction ids generalizing rs with
  | nil => simp [run, registrationsOf]
  | cons id ids ih =>
      have hstep : step (.outside, wired [listenerSlot options (some object)] as ls rs)
          (registerStatement id) =
          some (.outside, wired [listenerSlot options (some object)] as ls
            (rs ++ registrationsOf [id] object)) := rfl
      have hrest := ih (rs ++ registrationsOf [id] object)
      rw [List.append_assoc] at hrest
      rw [List.map_cons, run, List.foldlM_cons, hstep]
      exact hrest

/-- In the listener the name of the host is not hidden, and the name that is passed on is the clicked
view. -/
theorem step_call (b : MethodBinding) (slots : List Slot) (as : List Assignment) (ls : List Listener)
    (rs : List Registration) (h : slots.find? (·.name = "target") = none) :
    step (.entered "listener" (.ofClass options.listenerType) "onClick"
        (Companion.callbackName b, .ofClass options.viewType), wired slots as ls rs)
      (callStatement b) =
      some (.called "listener" (listenerOf options b), wired slots as ls rs) := by
  have htarget : "target" ≠ Companion.callbackName b := fun h =>
    callbackName_not_local b (by rw [← h]; decide)
  have hreceiver : (wired slots as ls rs).inner? (Companion.callbackName b) "target" =
      some (.argument 0) := by
    rw [Memory.inner?, if_neg htarget, Memory.value?, Memory.slot?, wired, h]
    rfl
  have hpassed : (wired slots as ls rs).inner? (Companion.callbackName b) (Companion.callbackName b) =
      some .clicked := if_pos rfl
  cases hp : b.parameter with
  | none => simp [step, callStatement, passedName, hreceiver, listenerOf, hp]
  | some p => simp [step, callStatement, passedName, hreceiver, hpassed, listenerOf, hp]

theorem run_handler (b : MethodBinding) (held : Option Nat) (as : List Assignment)
    (ls : List Listener) (rs : List Registration) :
    run (handlerStatements options b) (.outside, wired [listenerSlot options held] as ls rs) =
      some (.outside, wired [listenerSlot options (some ls.length)] as (ls ++ [listenerOf options b])
        (rs ++ registrationsOf b.ids ls.length)) := by
  have hopening : run (openingStatements options b)
      (.outside, wired [listenerSlot options held] as ls rs) =
      some (.entered "listener" (.ofClass options.listenerType) "onClick"
        (Companion.callbackName b, .ofClass options.viewType),
        wired [listenerSlot options held] as ls rs) := rfl
  have hcall := step_call options b [listenerSlot options held] as ls rs rfl
  rw [handlerStatements, run_append hopening, run, List.foldlM_cons, hcall]
  exact run_registrations options b.ids ls.length as (ls ++ [listenerOf options b]) rs

theorem run_handlers (bs : List MethodBinding) (held : Option Nat) (as : List Assignment)
    (ls : List Listener) (rs : List Registration) :
    run (bs.flatMap (handlerStatements options)) (.outside, wired [listenerSlot options held] as ls rs) =
      some (.outside, wired
        [listenerSlot options (if bs = [] then held else some (ls.length + bs.length - 1))] as
        (ls ++ bs.map (listenerOf options))
        (rs ++ (bs.zipIdx ls.length).flatMap fun p => registrationsOf p.1.ids p.2)) := by
  induction bs generalizing held ls rs with
  | nil => simp [run]
  | cons b bs ih =>
      have hheld : (if bs = [] then some ls.length
          else some ((ls ++ [listenerOf options b]).length + bs.length - 1)) =
          some (ls.length + (b :: bs).length - 1) := by
        rw [List.length_append, List.length_singleton, List.length_cons]
        split
        · next h => simp [h]
        · exact congrArg some (by omega)
      rw [List.flatMap_cons, run_append (run_handler options b held as ls rs), ih, hheld,
        if_neg (List.cons_ne_nil b bs), List.map_cons, List.zipIdx_cons, List.flatMap_cons,
        List.length_append, List.length_singleton]
      simp only [List.append_assoc, List.singleton_append]

theorem run_statements (c : Companion) :
    run (statements options c) (.outside, wired [] [] [] []) =
      some (.outside, wired
        (if c.methods = [] then [] else [listenerSlot options (some (c.methods.length - 1))])
        (c.fields.map assignmentOf) (c.methods.map (listenerOf options))
        (c.methods.zipIdx.flatMap fun p => registrationsOf p.1.ids p.2)) := by
  rw [statements, run_append (run_assignments c.fields []), List.nil_append]
  by_cases h : c.methods = []
  · simp [h, run]
  · have hdeclare : step (.outside, wired [] (c.fields.map assignmentOf) [] [])
        (.declare (.ofClass options.listenerType) "listener") =
        some (.outside, wired [listenerSlot options none] (c.fields.map assignmentOf) [] []) := rfl
    have hhandlers := run_handlers options c.methods none (c.fields.map assignmentOf) [] []
    rw [if_neg (by simpa using h), if_neg h, run, List.foldlM_cons, hdeclare]
    rw [if_neg h, List.length_nil, Nat.zero_add, List.nil_append, List.nil_append] at hhandlers
    exact hhandlers

/-- A companion, run on a host and a root view, wires the host up as its bindings say. Each field is
assigned the view of its number, in order. Each handler gets a listener of its own that calls it on
the host, and each of its numbers, in order, gets that listener. The variable of the listeners is
declared if there is a handler, once and before it is used. A handler that takes the view is passed
the view that was clicked, under a name that hides nothing the method uses. -/
theorem inject_wires_bindings (c : Companion)
    (hf : ∀ b ∈ c.fields, isIdentifier b.name.toList = true)
    (hm : ∀ b ∈ c.methods, isIdentifier b.name.toList = true)
    (hp : ∀ b ∈ c.methods, ∀ p, b.parameter = some p → isIdentifier p.toList = true) :
    (∃ inject, (c.file options).type.methods = [inject] ∧ inject.name = "inject" ∧
      inject.parameters.map (fun p => (p.type, p.name)) =
        [(.ofClass c.host, "target"), (.ofClass options.viewType, "root")] ∧
      carryOut inject = some
        { parameters := ["target", "root"]
          slots := if c.methods = [] then []
            else [⟨"listener", .ofClass options.listenerType, some (c.methods.length - 1)⟩]
          assigned := c.fields.map fun b =>
            ⟨.argument 0, b.name, .declared b.type, .argument 1, b.id.toInt⟩
          made := c.methods.map fun b =>
            { type := .ofClass options.listenerType
              method := "onClick"
              parameter := (Companion.callbackName b, .ofClass options.viewType)
              receiver := .argument 0
              called := b.name
              passed := b.parameter.map fun _ => (Companion.callbackName b, .clicked) }
          registered := c.methods.zipIdx.flatMap fun (b, object) =>
            b.ids.map fun id => ⟨.argument 1, id.toInt, object⟩ }) ∧
    ∀ b ∈ c.methods, Companion.callbackName b ∉ ["target", "root", "listener"] ∧
      (∀ p, b.parameter = some p → p ∉ ["target", "root", "listener"] → Companion.callbackName b = p) ∧
      ((∀ p, b.parameter = some p → p ∈ ["target", "root", "listener"]) →
        Companion.callbackName b = "view") := by
  refine ⟨⟨c.inject options, rfl, rfl, rfl, ?_⟩, ?_⟩
  · exact carryOut_eq (says_body options hf hm hp) (run_statements options c)
  · intro b _
    exact ⟨callbackName_not_local b, fun p hp hl => callbackName_of_parameter hp hl,
      callbackName_of_hiding⟩

def screenCompanion : Companion :=
  let screen : ClassName := .ofTopLevel "app" "Screen"
  { Companion.ofHost ⟨screen, .ordinary, ∅, [], [], []⟩ with
    fields := [⟨.field screen "title", -7, "title", .ofClass Options.viewClass⟩]
    methods := [⟨.method screen "save" [.ofClass Options.viewClass], "save", [3, 3], some "target"⟩,
      ⟨.method screen "idle" [], "idle", [], none⟩] }

theorem inject_wires_screenCompanion :
    ∃ inject, (screenCompanion.file .standard).type.methods = [inject] ∧
      (carryOut inject).map (fun m => (m.assigned.map (·.id), m.made.map (·.called),
        m.made.map (·.parameter.1), m.registered.map fun r => (r.id, r.object))) =
        some ([-7], ["save", "idle"], ["view", "view"], [(3, 0), (3, 0)]) := by
  have hf : ∀ b ∈ screenCompanion.fields, isIdentifier b.name.toList = true := by decide
  have hm : ∀ b ∈ screenCompanion.methods, isIdentifier b.name.toList = true := by decide
  have hp : ∀ b ∈ screenCompanion.methods, ∀ p, b.parameter = some p → isIdentifier p.toList = true := by
    decide
  obtain ⟨⟨inject, hmethods, -, -, hrun⟩, -⟩ := inject_wires_bindings .standard screenCompanion hf hm hp
  refine ⟨inject, hmethods, ?_⟩
  rw [hrun]
  rfl

end ViewBinding.Proofs.Wiring
