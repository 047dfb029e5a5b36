import ViewBinding.Java.SourceFile

namespace ViewBinding.Proofs.Breaks

open Text Java

def Unbroken (s : String) : Prop := '\n' ∉ s.toList

instance (s : String) : Decidable (Unbroken s) := inferInstanceAs (Decidable (¬ _))

@[simp] theorem unbroken_append {s t : String} : Unbroken (s ++ t) ↔ Unbroken s ∧ Unbroken t := by
  rw [Unbroken, String.toList_append, List.mem_append, not_or]
  rfl

def AllUnbroken (ss : List String) : Prop := ∀ s ∈ ss, Unbroken s

instance (ss : List String) : Decidable (AllUnbroken ss) := inferInstanceAs (Decidable (∀ _ ∈ _, _))

theorem allUnbroken_nil : AllUnbroken [] := List.forall_mem_nil _

@[simp] theorem allUnbroken_append {ss ts : List String} :
    AllUnbroken (ss ++ ts) ↔ AllUnbroken ss ∧ AllUnbroken ts := List.forall_mem_append

@[simp] theorem allUnbroken_cons {s : String} {ss : List String} :
    AllUnbroken (s :: ss) ↔ Unbroken s ∧ AllUnbroken ss := List.forall_mem_cons

theorem allUnbroken_map {α : Type} {text : α → String} {as : List α} :
    AllUnbroken (as.map text) ↔ ∀ a ∈ as, Unbroken (text a) := List.forall_mem_map

theorem allUnbroken_flatMap {α : Type} {texts : α → List String} {as : List α} :
    AllUnbroken (as.flatMap texts) ↔ ∀ a ∈ as, AllUnbroken (texts a) := by
  simp only [AllUnbroken, List.mem_flatMap, forall_exists_index, and_imp]
  exact forall_comm.trans (forall_congr' fun a => forall_comm)

theorem unbroken_join {sep : String} {parts : List String} (hsep : Unbroken sep)
    (h : AllUnbroken parts) : Unbroken (join sep parts) := fun hmem =>
  (mem_join hmem).elim hsep fun ⟨p, hp, hbreak⟩ => h p hp hbreak

theorem unbroken_concat {parts : List String} (h : AllUnbroken parts) :
    Unbroken (String.join parts) := by
  intro hmem
  rw [String.toList_join, List.mem_flatMap] at hmem
  obtain ⟨p, hp, hbreak⟩ := hmem
  exact h p hp hbreak

theorem unbroken_lines (s : String) : AllUnbroken (lines s) := by
  have hpiece : ∀ w ∈ cut '\n' s.toList, '\n' ∉ w := fun w => notMem_of_mem_cut
  have hended : ∀ w ∈ (cut '\n' s.toList).dropLast.map
      (fun w => if w.getLast? = some '\r' then w.dropLast else w), '\n' ∉ w := by
    rw [List.forall_mem_map]
    intro w hw hbreak
    refine hpiece w ((List.dropLast_sublist _).subset hw) ?_
    split at hbreak
    · exact (List.dropLast_sublist _).subset hbreak
    · exact hbreak
  have hlast : '\n' ∉ (cut '\n' s.toList).getLast?.getD [] := by
    cases hlast : (cut '\n' s.toList).getLast? with
    | none => exact List.not_mem_nil
    | some w => exact hpiece w (List.mem_of_getLast? hlast)
  refine allUnbroken_map.mpr fun w hw => ?_
  rw [Unbroken, String.toList_ofList]
  split at hw
  · exact hended w hw
  · rcases List.mem_append.mp hw with hw | hw
    · exact hended w hw
    · rw [List.mem_singleton.mp hw]
      exact hlast

def classTexts (c : ClassName) : List String := c.package :: c.names

def declaredTexts : TypeName → List String
  | .primitive _ => []
  | .ofClass c => classTexts c
  | .array component => declaredTexts component
  | .verbatim text => [text]

mutual

def typeTexts : TypeExpr → List String
  | .declared type => declaredTexts type
  | .generic raw arguments => classTexts raw ++ typesTexts arguments
  | .variable v => [v]

def typesTexts : List TypeExpr → List String
  | [] => []
  | e :: es => typeTexts e ++ typesTexts es

end

def fragmentTexts : Fragment → List String
  | .text s => [s]
  | .type e => typeTexts e

def codeTexts (b : CodeBlock) : List String :=
  b.lines.toList.flatMap fun l => l.snippet.fragments.flatMap fragmentTexts

def annotationTexts (a : AnnotationUse) : List String := classTexts a.type ++ a.value.toList

def parameterTexts (p : Parameter) : List String := typeTexts p.type ++ [p.name]

def methodTexts (m : Method) : List String :=
  m.annotations.flatMap annotationTexts ++ m.typeVariables ++ typeTexts m.returns ++ [m.name]
    ++ m.parameters.flatMap parameterTexts ++ codeTexts m.body

/-- The texts given for a file, but for its comment. -/
def fileTexts (f : SourceFile) : List String :=
  f.package :: f.type.name :: f.type.interfaces.flatMap typeTexts ++ f.type.methods.flatMap methodTexts

theorem classTexts_of_mentioned : (type : TypeName) → AllUnbroken (declaredTexts type) →
    ∀ c, type.mentioned? = some c → AllUnbroken (classTexts c)
  | .primitive _, _, _, hc => nomatch hc
  | .ofClass _, h, _, hc => Option.some.inj hc ▸ h
  | .array component, h, c, hc => classTexts_of_mentioned component h c hc
  | .verbatim _, _, _, hc => nomatch hc

mutual

theorem classTexts_of_type : (e : TypeExpr) → AllUnbroken (typeTexts e) →
    ∀ c ∈ e.classes, AllUnbroken (classTexts c)
  | .declared type, h, c, hc => classTexts_of_mentioned type h c (Option.mem_toList.mp hc)
  | .generic _ arguments, h, _, hc => by
      obtain ⟨hraw, harguments⟩ := allUnbroken_append.mp h
      rcases List.mem_cons.mp hc with rfl | hc
      · exact hraw
      · exact classTexts_of_types arguments harguments _ hc
  | .variable _, _, _, hc => nomatch hc

theorem classTexts_of_types : (es : List TypeExpr) → AllUnbroken (typesTexts es) →
    ∀ c ∈ TypeExpr.classesOfAll es, AllUnbroken (classTexts c)
  | [], _, _, hc => nomatch hc
  | e :: es, h, c, hc => by
      obtain ⟨he, hes⟩ := allUnbroken_append.mp h
      exact (List.mem_append.mp hc).elim (classTexts_of_type e he c) (classTexts_of_types es hes c)

end

theorem classTexts_of_fragment {x : Fragment} (h : AllUnbroken (fragmentTexts x)) :
    ∀ c ∈ x.classes, AllUnbroken (classTexts c) := by
  cases x with
  | text s => nofun
  | type e => exact classTexts_of_type e h

theorem classTexts_of_method {m : Method} (h : AllUnbroken (methodTexts m)) :
    ∀ c ∈ m.classes, AllUnbroken (classTexts c) := by
  simp only [methodTexts, codeTexts, allUnbroken_append, allUnbroken_flatMap] at h
  obtain ⟨⟨⟨⟨⟨hannotations, -⟩, hreturns⟩, -⟩, hparameters⟩, hcode⟩ := h
  intro c hc
  rw [Method.classes, List.mem_append, List.mem_append, List.mem_append] at hc
  rcases hc with ((hc | hc) | hc) | hc
  · obtain ⟨a, ha, rfl⟩ := List.mem_map.mp hc
    exact (allUnbroken_append.mp (hannotations a ha)).1
  · exact classTexts_of_type m.returns hreturns c hc
  · obtain ⟨p, hp, hc⟩ := List.mem_flatMap.mp hc
    exact classTexts_of_type p.type (allUnbroken_append.mp (hparameters p hp)).1 c hc
  · obtain ⟨l, hl, hc⟩ := List.mem_flatMap.mp hc
    obtain ⟨x, hx, hc⟩ := List.mem_flatMap.mp hc
    exact classTexts_of_fragment (hcode l hl x hx) c hc

theorem classTexts_of_file {f : SourceFile} (h : AllUnbroken (fileTexts f)) :
    ∀ c ∈ f.type.classes, AllUnbroken (classTexts c) := by
  simp only [fileTexts, List.cons_append, allUnbroken_cons, allUnbroken_append, allUnbroken_flatMap] at h
  obtain ⟨-, -, hinterfaces, hmethods⟩ := h
  intro c hc
  rcases List.mem_append.mp hc with hc | hc
  · obtain ⟨e, he, hc⟩ := List.mem_flatMap.mp hc
    exact classTexts_of_type e (hinterfaces e he) c hc
  · obtain ⟨m, hm, hc⟩ := List.mem_flatMap.mp hc
    exact classTexts_of_method (hmethods m hm) c hc

theorem unbroken_dotted {c : ClassName} (h : AllUnbroken (classTexts c)) : Unbroken c.dotted :=
  unbroken_join (by decide) (allUnbroken_cons.mp h).2

theorem unbroken_canonical {c : ClassName} (h : AllUnbroken (classTexts c)) : Unbroken c.canonical := by
  rw [ClassName.canonical, ClassName.qualify]
  split
  · exact unbroken_dotted h
  · rw [unbroken_append, unbroken_append]
    exact ⟨⟨(allUnbroken_cons.mp h).1, by decide⟩, unbroken_dotted h⟩

theorem unbroken_className (t : ImportTable) {c : ClassName} (h : AllUnbroken (classTexts c)) :
    Unbroken (t.className c) := by
  rw [ImportTable.className]
  split
  · exact unbroken_dotted h
  · exact unbroken_canonical h

theorem unbroken_keyword (p : Primitive) : Unbroken p.keyword := by cases p <;> decide

variable (t : ImportTable)

theorem unbroken_writeDeclared : (type : TypeName) → AllUnbroken (declaredTexts type) →
    Unbroken (TypeExpr.writeDeclared t.className type)
  | .primitive p, _ => unbroken_keyword p
  | .ofClass _, h => unbroken_className t h
  | .array component, h => unbroken_append.mpr ⟨unbroken_writeDeclared component h, by decide⟩
  | .verbatim s, h => h s List.mem_cons_self

mutual

theorem unbroken_write : (e : TypeExpr) → AllUnbroken (typeTexts e) → Unbroken (e.write t.className)
  | .declared type, h => unbroken_writeDeclared t type h
  | .generic raw arguments, h => by
      obtain ⟨hraw, harguments⟩ := allUnbroken_append.mp h
      have hcomma : Unbroken ", " := by decide
      have hjoin := unbroken_join hcomma (unbroken_writeAll arguments harguments)
      simp only [TypeExpr.write, unbroken_append]
      exact ⟨⟨⟨unbroken_className t hraw, by decide⟩, hjoin⟩, by decide⟩
  | .variable v, h => h v List.mem_cons_self

theorem unbroken_writeAll : (es : List TypeExpr) → AllUnbroken (typesTexts es) →
    AllUnbroken (TypeExpr.writeAll t.className es)
  | [], _ => allUnbroken_nil
  | e :: es, h => by
      obtain ⟨he, hes⟩ := allUnbroken_append.mp h
      exact allUnbroken_cons.mpr ⟨unbroken_write e he, unbroken_writeAll es hes⟩

end

theorem unbroken_fragment {x : Fragment} (h : AllUnbroken (fragmentTexts x)) :
    Unbroken (x.write t.className) := by
  cases x with
  | text s => exact h s List.mem_cons_self
  | type e => exact unbroken_write t e h

end ViewBinding.Proofs.Breaks
