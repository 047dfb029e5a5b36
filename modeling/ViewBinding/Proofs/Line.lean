import Std.Data.String.ToInt
import ViewBinding.Companion

namespace ViewBinding.Proofs.Line

open Text Java

/-- A view that is looked up is given by the variable that is searched and the number. -/
inductive Statement where
  | assign (receiver field : String) (type : TypeExpr) (source : String) (id : Int)
  | declare (type : TypeExpr) (slot : String)
  | make (slot : String) (type : TypeExpr)
  | annotate (type : TypeExpr)
  | enter (method : String) (type : TypeExpr) (parameter : String)
  | call (receiver method : String) (argument : Option String)
  | leave
  | complete
  | register (source : String) (id : Int) (slot : String)

abbrev Reader (α : Type) := StateT (List Char) Option α

def word (w : String) : Reader Unit := fun s => (dropStart? w.toList s).map fun r => ((), r)

def name : Reader String := fun s =>
  if isIdentifier (s.takeWhile continuesIdentifier) then
    some (String.ofList (s.takeWhile continuesIdentifier), s.dropWhile continuesIdentifier)
  else none

def name? : Reader (Option String) := fun s =>
  match name s with
  | some (n, r) => some (some n, r)
  | none => some (none, s)

def number : Reader Int := fun s =>
  (String.ofList (s.takeWhile (· ≠ ')'))).toInt?.map fun i => (i, s.dropWhile (· ≠ ')'))

def whole {α : Type} (r : Reader α) (s : String) : Option α :=
  match r.run s.toList with
  | some (a, []) => some a
  | _ => none

theorem run_word (w : String) (s : List Char) : (word w).run (w.toList ++ s) = some ((), s) := by
  have h : dropStart? w.toList (w.toList ++ s) = some s := dropStart?_eq_some_iff.mpr rfl
  simp [StateT.run, word, h]

theorem run_word_end (w : String) : (word w).run w.toList = some ((), []) := by
  have h := run_word w []
  rwa [List.append_nil] at h

theorem takeWhile_append {p : Char → Bool} {w s : List Char} (hw : ∀ c ∈ w, p c = true)
    (hs : s.head?.all (fun c => !p c) = true) :
    (w ++ s).takeWhile p = w ∧ (w ++ s).dropWhile p = s := by
  have h : s.takeWhile p = [] ∧ s.dropWhile p = s := by
    cases s with
    | nil => exact ⟨rfl, rfl⟩
    | cons c s =>
        have hc : p c = false := by simpa using hs
        simp [hc]
  rw [List.takeWhile_append_of_pos hw, List.dropWhile_append_of_pos hw, h.1, h.2, List.append_nil]
  exact ⟨rfl, rfl⟩

theorem run_name {n : String} {s : List Char} (hn : isIdentifier n.toList = true)
    (hs : s.head?.all (fun c => !continuesIdentifier c) = true) :
    name.run (n.toList ++ s) = some (n, s) := by
  obtain ⟨htake, hdrop⟩ := takeWhile_append (continues_of_isIdentifier hn) hs
  simp [StateT.run, name, htake, hdrop, hn]

theorem run_number (i : Int) (s : List Char) :
    number.run ((toString i).toList ++ ')' :: s) = some (i, ')' :: s) := by
  have hdigit : ∀ (n : Nat), ∀ c ∈ n.repr.toList, decide (c ≠ ')') = true := by
    intro n c hc
    rw [decide_eq_true_eq]
    rintro rfl
    have h := Nat.isDigit_of_mem_toDigits (b := 10) (n := n) (by decide) (by decide)
      (by simpa [Nat.repr] using hc)
    exact absurd h (by decide)
  have hchars : ∀ c ∈ i.repr.toList, decide (c ≠ ')') = true := by
    rw [Int.repr_eq_if]
    split
    · exact hdigit _
    · rw [String.toList_append]
      intro c hc
      rcases List.mem_append.mp hc with hc | hc
      · rw [List.mem_singleton.mp hc]
        decide
      · exact hdigit _ c hc
  obtain ⟨htake, hdrop⟩ := takeWhile_append (s := ')' :: s) hchars rfl
  rw [Int.toString_eq_repr]
  simp only [StateT.run, number, htake, hdrop]
  rw [String.ofList_toList, Int.toInt?_repr]
  rfl

def lookup : Reader (String × Int) := do
  word "("
  let source ← name
  word ".findViewById("
  let id ← number
  word "))"
  pure (source, id)

def member : Reader (String × String) := do
  let receiver ← name
  word "."
  let selected ← name
  pure (receiver, selected)

def assignHead : Reader (String × String) := do
  let assigned ← member
  word " = ("
  pure assigned

def assignTail : Reader (String × Int) := do
  word ")"
  let found ← lookup
  word ";"
  pure found

def declareTail : Reader String := do
  word " "
  let slot ← name
  word ";"
  pure slot

def makeHead : Reader String := do
  let slot ← name
  word " = new "
  pure slot

def enterHead : Reader String := do
  word "public void "
  let method ← name
  word "("
  pure method

def enterTail : Reader String := do
  word " "
  let parameter ← name
  word ") \x7b"
  pure parameter

def call : Reader Statement := do
  let (receiver, method) ← member
  word "("
  let argument ← name?
  word ");"
  pure (.call receiver method argument)

def register : Reader Statement := do
  let (source, id) ← lookup
  word ".setOnClickListener("
  let slot ← name
  word ");"
  pure (.register source id slot)

def around (a : String) (t : TypeExpr) (b : String) : Option Statement :=
  (do let (receiver, field) ← whole assignHead a
      let (source, id) ← whole assignTail b
      pure (.assign receiver field t source id)) <|>
  (do let slot ← whole makeHead a
      whole (word "() \x7b") b
      pure (.make slot t)) <|>
  (do let method ← whole enterHead a
      let parameter ← whole enterTail b
      pure (.enter method t parameter))

/-- Knows the forms of the statements that make up the body of a companion; the names, types and numbers
in them may be any. -/
def readLine : List Fragment → Option Statement
  | [.text a] =>
      if a = "\x7d" then some .leave
      else if a = "\x7d;" then some .complete
      else whole register a <|> whole call a
  | [.text a, .type t] => if a = "@" then some (.annotate t) else none
  | [.type t, .text b] => (whole declareTail b).map (.declare t)
  | [.text a, .type t, .text b] => around a t b
  | _ => none

theorem whole_eq_some {α : Type} {r : Reader α} {s : String} {a : α}
    (h : r.run s.toList = some (a, [])) : whole r s = some a := by
  rw [whole, h]

/-- What the lines of a block are read as, one after the other. -/
def Says {α : Type} (read : List Fragment → Option α) (code : CodeBlock) (ss : List α) : Prop :=
  code.lines.toList.mapM (fun l => read l.snippet.fragments) = some ss

section Says

variable {α : Type} {read : List Fragment → Option α} {code : CodeBlock} {ss : List α} {s : α}
  {x : Snippet}

theorem says_empty : Says read .empty [] := rfl

theorem says_push (d : Nat) (h : Says read code ss) (hx : read x.fragments = some s) (left : Nat) :
    Says read ⟨code.lines.push ⟨d, x⟩, left⟩ (ss ++ [s]) := by
  unfold Says at h ⊢
  rw [Array.toList_push, List.mapM_append, h]
  simp [hx]

theorem says_line (h : Says read code ss) (hx : read x.fragments = some s) :
    Says read (code.line x) (ss ++ [s]) :=
  says_push code.depth h hx code.depth

theorem says_statement (h : Says read code ss) (hx : read (x.text ";").fragments = some s) :
    Says read (code.statement x) (ss ++ [s]) :=
  says_push code.depth h hx code.depth

theorem says_opening (h : Says read code ss) (hx : read (x.text " \x7b").fragments = some s) :
    Says read (code.opening x) (ss ++ [s]) :=
  says_push code.depth h hx (code.depth + 1)

theorem says_closing {suffix : String} (h : Says read code ss)
    (hx : read ((Snippet.ofText "\x7d").text suffix).fragments = some s) :
    Says read (code.closing suffix) (ss ++ [s]) :=
  says_push (code.depth - 1) h hx (code.depth - 1)

theorem says_foldl {β : Type} {f : CodeBlock → β → CodeBlock} {told : β → List α} {bs : List β}
    (hf : ∀ b ∈ bs, ∀ {code : CodeBlock} {ss : List α}, Says read code ss →
      Says read (f code b) (ss ++ told b))
    (h : Says read code ss) : Says read (bs.foldl f code) (ss ++ bs.flatMap told) := by
  induction bs generalizing code ss with
  | nil => simpa using h
  | cons b bs ih =>
      have hrest := ih (fun c hc => hf c (List.mem_cons_of_mem _ hc)) (hf b List.mem_cons_self h)
      rwa [List.append_assoc, ← List.flatMap_cons] at hrest

end Says

theorem toString_text (s : String) : toString s = s := rfl

theorem run_member {n : String} {s : List Char} (hn : isIdentifier n.toList = true)
    (hs : s.head?.all (fun c => !continuesIdentifier c) = true) :
    member.run ("target.".toList ++ (n.toList ++ s)) = some (("target", n), s) := by
  have hopen : "target.".toList = "target".toList ++ ".".toList := by simp
  have htarget := run_name (n := "target") (s := ".".toList ++ (n.toList ++ s)) (by decide) (by rfl)
  have hname := run_name hn hs
  simp only [member, hopen, List.append_assoc, StateT.run_bind, htarget, run_word, hname,
    Option.bind_eq_bind, Option.bind_some, StateT.run_pure]
  rfl

theorem run_lookup (id : Int) (s : List Char) :
    lookup.run ("(root.findViewById(".toList ++ ((toString id).toList ++ ("))".toList ++ s))) =
      some (("root", id), s) := by
  have hopen : "(root.findViewById(".toList =
      "(".toList ++ ("root".toList ++ ".findViewById(".toList) := by simp
  have hroot := run_name (n := "root")
    (s := ".findViewById(".toList ++ ((toString id).toList ++ ("))".toList ++ s))) (by decide) (by rfl)
  have hnumber : number.run ((toString id).toList ++ ("))".toList ++ s)) = some (id, "))".toList ++ s) :=
    run_number id (')' :: s)
  simp only [lookup, hopen, List.append_assoc, StateT.run_bind, run_word, hroot, hnumber,
    Option.bind_eq_bind, Option.bind_some, StateT.run_pure]
  rfl

theorem viewLookup_toList (id : ViewId) : (Companion.viewLookup id).toList =
    "(root.findViewById(".toList ++ ((toString id.toInt).toList ++ "))".toList) := by
  unfold Companion.viewLookup
  simp only [toString_text, String.toList_append, List.append_assoc]

theorem ne_empty {a b : String} (h : a ≠ "") : a ++ b ≠ "" := fun hab =>
  h (String.append_eq_empty_iff.mp hab).1

theorem fragments_text {a b : String} (ha : a ≠ "") :
    ((Snippet.ofText a).text b).fragments = [.text (a ++ b)] := by
  simp [Snippet.ofText, Snippet.text, Snippet.empty, Snippet.appendText, String.isEmpty_iff, ha]

theorem fragments_around {a b c : String} (t : TypeExpr) (ha : a ≠ "") (hb : b ≠ "") :
    ((((Snippet.ofText a).type t).text b).text c).fragments = [.text a, .type t, .text (b ++ c)] := by
  simp [Snippet.ofText, Snippet.text, Snippet.type, Snippet.empty, Snippet.appendText,
    String.isEmpty_iff, ha, hb]

theorem readLine_assignment (b : FieldBinding) (hb : isIdentifier b.name.toList = true) :
    readLine ((Companion.assignment b).text ";").fragments =
      some (.assign "target" b.name (.declared b.type) "root" b.id.toInt) := by
  have hhead : whole assignHead s!"target.{b.name} = (" = some ("target", b.name) := by
    have hmember := run_member (s := " = (".toList) hb (by rfl)
    refine whole_eq_some ?_
    simp only [toString_text, String.toList_append, List.append_assoc, assignHead, StateT.run_bind,
      hmember, run_word_end, Option.bind_eq_bind, Option.bind_some, StateT.run_pure]
    rfl
  have htail : whole assignTail (s!"){Companion.viewLookup b.id}" ++ ";") =
      some ("root", b.id.toInt) := by
    refine whole_eq_some ?_
    simp only [toString_text, String.toList_append, viewLookup_toList, List.append_assoc, assignTail,
      StateT.run_bind, run_word, run_lookup, run_word_end, Option.bind_eq_bind, Option.bind_some,
      StateT.run_pure]
    rfl
  rw [Companion.assignment, fragments_around _ (ne_empty (ne_empty (by decide))) (ne_empty (by decide)),
    readLine, around, hhead, htail]
  rfl

theorem readLine_declaration (t : TypeExpr) :
    readLine (((Snippet.empty.type t).text " listener").text ";").fragments =
      some (.declare t "listener") := by
  have htail : whole declareTail (" listener" ++ ";") = some "listener" := by rfl
  have hfragments : (((Snippet.empty.type t).text " listener").text ";").fragments =
      [.type t, .text (" listener" ++ ";")] := by rfl
  rw [hfragments, readLine, htail]
  rfl

theorem readLine_making (t : TypeExpr) :
    readLine ((((Snippet.ofText "listener = new ").type t).text "()").text " \x7b").fragments =
      some (.make "listener" t) := by
  have hassign : whole assignHead "listener = new " = none := by rfl
  have hhead : whole makeHead "listener = new " = some "listener" := by rfl
  have htail : whole (word "() \x7b") ("()" ++ " \x7b") = some () := by rfl
  rw [fragments_around _ (by decide) (by decide), readLine, around, hassign, hhead, htail]
  rfl

theorem readLine_marking (t : TypeExpr) :
    readLine ((Snippet.ofText "@").type t).fragments = some (.annotate t) := by rfl

theorem readLine_entering (t : TypeExpr) {p : String} (hp : isIdentifier p.toList = true) :
    readLine ((((Snippet.ofText "public void onClick(").type t).text s!" {p})").text " \x7b").fragments =
      some (.enter "onClick" t p) := by
  have hassign : whole assignHead "public void onClick(" = none := by rfl
  have hmake : whole makeHead "public void onClick(" = none := by rfl
  have hhead : whole enterHead "public void onClick(" = some "onClick" := by rfl
  have htail : whole enterTail (s!" {p})" ++ " \x7b") = some p := by
    have hname := run_name (s := ") \x7b".toList) hp (by rfl)
    have hclose : ")".toList ++ " \x7b".toList = ") \x7b".toList := by simp
    refine whole_eq_some ?_
    simp only [toString_text, String.toList_append, List.append_assoc, hclose, enterTail, StateT.run_bind,
      run_word, hname, run_word_end, Option.bind_eq_bind, Option.bind_some, StateT.run_pure]
    rfl
  rw [fragments_around _ (by decide) (ne_empty (ne_empty (by decide))), readLine, around, hassign, hmake,
    hhead, htail]
  rfl

theorem readLine_leaving : readLine ((Snippet.ofText "\x7d").text "").fragments = some .leave := by rfl

theorem readLine_completion :
    readLine ((Snippet.ofText "\x7d").text ";").fragments = some .complete := by rfl

theorem readLine_text {a : String} (ha : a.toList.head? ≠ some '\x7d') :
    readLine [.text a] = (whole register a <|> whole call a) := by
  have hleave : a ≠ "\x7d" := fun h => ha (by rw [h]; rfl)
  have hcomplete : a ≠ "\x7d;" := fun h => ha (by rw [h]; rfl)
  rw [readLine, if_neg hleave, if_neg hcomplete]

theorem readLine_registration (id : ViewId) :
    readLine ((Snippet.ofText s!"{Companion.viewLookup id}.setOnClickListener(listener)").text
      ";").fragments = some (.register "root" id.toInt "listener") := by
  have htext : (s!"{Companion.viewLookup id}.setOnClickListener(listener)" ++ ";").toList =
      "(root.findViewById(".toList ++ ((toString id.toInt).toList ++ ("))".toList ++
        (".setOnClickListener(".toList ++ ("listener".toList ++ ");".toList)))) := by
    have hlistener : ".setOnClickListener(listener)".toList ++ ";".toList =
        ".setOnClickListener(".toList ++ ("listener".toList ++ ");".toList) := by simp
    simp only [toString_text, String.toList_append, viewLookup_toList, List.append_assoc, hlistener]
  have hregister : whole register (s!"{Companion.viewLookup id}.setOnClickListener(listener)" ++ ";") =
      some (.register "root" id.toInt "listener") := by
    have hslot := run_name (n := "listener") (s := ");".toList) (by decide) (by rfl)
    refine whole_eq_some ?_
    simp only [htext, register, StateT.run_bind, run_lookup, run_word, hslot, run_word_end,
      Option.bind_eq_bind, Option.bind_some, StateT.run_pure]
    rfl
  have hhead : (s!"{Companion.viewLookup id}.setOnClickListener(listener)" ++ ";").toList.head? ≠
      some '\x7d' := by
    rw [htext]
    exact fun h => absurd (Option.some.inj h) (by decide)
  have hlookup : Companion.viewLookup id ≠ "" := by
    unfold Companion.viewLookup
    exact ne_empty (ne_empty (by decide))
  have hne : s!"{Companion.viewLookup id}.setOnClickListener(listener)" ≠ "" := by
    rw [toString_text]
    exact ne_empty hlookup
  rw [fragments_text hne, readLine_text hhead, hregister]
  rfl

def passedName (b : MethodBinding) : Option String :=
  b.parameter.map fun _ => Companion.callbackName b

theorem readLine_call {b : MethodBinding} (hb : isIdentifier b.name.toList = true)
    (hp : isIdentifier (Companion.callbackName b).toList = true) :
    readLine ((Snippet.ofText (Companion.call b)).text ";").fragments =
      some (.call "target" b.name (passedName b)) := by
  have htext : (Companion.call b ++ ";").toList = "target.".toList ++ (b.name.toList ++
      ("(".toList ++ (((passedName b).getD "").toList ++ ");".toList))) := by
    have hclose : ")".toList ++ ";".toList = ");".toList := by simp
    unfold Companion.call passedName
    cases b.parameter <;>
      simp only [toString_text, String.toList_append, List.append_assoc, hclose] <;> rfl
  have hargument : name?.run (((passedName b).getD "").toList ++ ");".toList) =
      some (passedName b, ");".toList) := by
    rw [passedName]
    cases b.parameter with
    | none => rfl
    | some p =>
        have hname := run_name (s := ");".toList) hp (by rfl)
        simp only [StateT.run] at hname
        simp only [StateT.run, name?, Option.map_some, Option.getD_some, hname]
  have hcall : whole call (Companion.call b ++ ";") = some (.call "target" b.name (passedName b)) := by
    have hmember := fun s : List Char => run_member (s := "(".toList ++ s) hb (by rfl)
    refine whole_eq_some ?_
    simp only [htext, call, StateT.run_bind, hmember, hargument, run_word, run_word_end,
      Option.bind_eq_bind, Option.bind_some, StateT.run_pure]
    rfl
  have hregister : whole register (Companion.call b ++ ";") = none := by
    rw [whole, htext]
    rfl
  have hhead : (Companion.call b ++ ";").toList.head? ≠ some '\x7d' := by
    rw [htext]
    exact fun h => absurd (Option.some.inj h) (by decide)
  have hne : Companion.call b ≠ "" := by
    unfold Companion.call
    exact ne_empty (ne_empty (ne_empty (ne_empty (by decide))))
  rw [fragments_text hne, readLine_text hhead, hregister, hcall]
  rfl

end ViewBinding.Proofs.Line
