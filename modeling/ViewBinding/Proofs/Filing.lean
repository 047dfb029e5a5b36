import ViewBinding.Filer.Directory
import ViewBinding.Proofs.Deposit
import ViewBinding.Proofs.Placement

namespace ViewBinding.Proofs.Filing

open Java Handover History Deposit Placement

variable {σ : Type}

def textAt (disk : Disk (StateM σ)) (s : σ) (p : Path) : Option String :=
  ((disk.readText p).run s).1.toOption

/-- A disk that keeps one text under each path: what is written stands under its path, and no operation
has an effect under another one. -/
structure Keeps (disk : Disk (StateM σ)) : Prop where
  isDirectory : ∀ p s q, textAt disk ((disk.isDirectory p).run s).2 q = textAt disk s q
  makeDirectory : ∀ p s q, textAt disk ((disk.makeDirectory p).run s).2 q = textAt disk s q
  write_own : ∀ p text s, ((disk.writeText p text).run s).1 = .ok () →
    textAt disk ((disk.writeText p text).run s).2 p = some text
  write_other : ∀ p text s q, p.same q = false →
    textAt disk ((disk.writeText p text).run s).2 q = textAt disk s q

def Quiet (disk : Disk (StateM σ)) {α : Type} (program : StateM σ α) : Prop :=
  ∀ s q, textAt disk (program.run s).2 q = textAt disk s q

theorem quiet_pure (disk : Disk (StateM σ)) {α : Type} (a : α) : Quiet disk (pure a : StateM σ α) :=
  fun _ _ => rfl

theorem Quiet.bind {disk : Disk (StateM σ)} {α β : Type} {program : StateM σ α} {next : α → StateM σ β}
    (h : Quiet disk program) (hnext : ∀ a, Quiet disk (next a)) : Quiet disk (program >>= next) :=
  fun s q => (hnext _ _ q).trans (h s q)

namespace Keeps

variable {disk : Disk (StateM σ)} (h : Keeps disk)

include h

theorem quiet_accept (path : Path) (result : Except DiskFault Unit) :
    Quiet disk (Disk.makeDirectories.accept disk path result) := by
  cases result with
  | ok u => exact quiet_pure disk _
  | error fault =>
      refine Quiet.bind (h.isDirectory path) fun b => ?_
      cases b <;> exact quiet_pure disk _

theorem quiet_makeDirectories (paths : List Path) : Quiet disk (disk.makeDirectories paths) := by
  induction paths with
  | nil => exact quiet_pure disk _
  | cons path around ih =>
      refine Quiet.bind (h.makeDirectory path) fun made => ?_
      split
      · exact quiet_pure disk _
      · refine Quiet.bind ih fun result => ?_
        cases result with
        | error fault => exact quiet_pure disk _
        | ok u => exact Quiet.bind (h.makeDirectory path) (h.quiet_accept path)
      · exact h.quiet_accept path _

theorem place_cases (path : Path) (text : String) (s : σ) :
    ∃ t, (∀ q, textAt disk t q = textAt disk s q) ∧
      ((∃ fault, (disk.place path text).run s = (.error fault, t)) ∨
        (disk.place path text).run s = (disk.writeText path text).run t) := by
  have hquiet := h.quiet_makeDirectories (path.ancestry.drop 1) s
  generalize hmake : (disk.makeDirectories (path.ancestry.drop 1)).run s = made at hquiet
  obtain ⟨result, t⟩ := made
  refine ⟨t, hquiet, ?_⟩
  rw [Disk.place, StateT.run_bind, hmake]
  cases result with
  | error fault => exact .inl ⟨fault, rfl⟩
  | ok u => exact .inr rfl

theorem place_own {path : Path} {text : String} {s t : σ}
    (hplace : (disk.place path text).run s = (.ok (), t)) : textAt disk t path = some text := by
  obtain ⟨u, -, ⟨fault, hrun⟩ | hrun⟩ := h.place_cases path text s
  · rw [hrun] at hplace
    cases hplace
  · rw [hplace] at hrun
    have hwrite := h.write_own path text u
    rw [← hrun] at hwrite
    exact hwrite rfl

theorem place_other {path q : Path} (text : String) (s : σ) (hq : path.same q = false) :
    textAt disk ((disk.place path text).run s).2 q = textAt disk s q := by
  obtain ⟨u, hu, ⟨fault, hrun⟩ | hrun⟩ := h.place_cases path text s
  · rw [hrun, hu]
  · rw [hrun, h.write_other path text u q hq, hu]

end Keeps

/-- The filer below a root, in a world of the places created so far and the disk. -/
def below (disk : Disk (StateM σ)) (root : Path) : Filer (StateM (Created × σ)) := fun f (created, s) =>
  let x := ((disk.filer root f).run created).run s
  (x.1.1, x.1.2, x.2)

theorem run_below (disk : Disk (StateM σ)) (root : Path) (f : SourceFile) (x : Created × σ) :
    (below disk root f).run x =
      if x.1.any (root.join f.path).same then (.error (.recreated f.className.canonical), x)
      else match (disk.place (root.join f.path) f.render).run x.2 with
        | (.error fault, t) => (.error (.failed (root.join f.path) fault.message), x.1, t)
        | (.ok (), t) => (.ok (root.join f.path), x.1 ++ [root.join f.path], t) := by
  obtain ⟨created, s⟩ := x
  have hrun : (below disk root f).run (created, s) =
      let x := (disk.filer root f created).run s
      (x.1.1, x.1.2, x.2) := rfl
  rw [hrun, Disk.filer]
  dsimp only
  cases hany : created.any (root.join f.path).same with
  | true => rfl
  | false =>
      generalize hplace : (disk.place (root.join f.path) f.render).run s = placed
      obtain ⟨result, t⟩ := placed
      rw [if_neg Bool.false_ne_true, if_neg Bool.false_ne_true, StateT.run_bind, hplace]
      cases result <;> rfl

theorem stored_append_singleton (calls : List Call) (f : SourceFile) (answer : Except WriteFault Path) :
    stored (calls ++ [⟨f, answer⟩]) = stored calls ++ if answer.isOk then [f] else [] := by
  rw [stored_append]
  cases answer <;> rfl

theorem mem_created_iff {calls : List Call} {c : ClassName} :
    c ∈ created calls ↔ ∃ g ∈ stored calls, g.className = c := by
  rw [created_eq_stored, List.mem_map]

/-- How the filer below a root stands after the given calls. -/
structure Kept (disk : Disk (StateM σ)) (root : Path) (calls : List Call) (x : Created × σ) : Prop where
  placeable : ∀ g ∈ stored calls, Placeable g
  created_eq : x.1 = (stored calls).map fun g => root.join g.path
  texts : ∀ g ∈ stored calls, textAt disk x.2 (root.join g.path) = some g.render

namespace Kept

variable {disk : Disk (StateM σ)} {root : Path} {calls : List Call} {x : Created × σ} {f : SourceFile}

theorem any_same_iff (h : Kept disk root calls x) (hf : Placeable f) :
    x.1.any (root.join f.path).same = true ↔ f.className ∈ created calls := by
  simp only [h.created_eq, List.any_map, List.any_eq_true, Function.comp_apply, mem_created_iff]
  constructor
  · rintro ⟨g, hg, hsame⟩
    exact ⟨g, hg, ((hf.same_join_iff (h.placeable g hg) root).mp hsame).symm⟩
  · rintro ⟨g, hg, hclass⟩
    exact ⟨g, hg, (hf.same_join_iff (h.placeable g hg) root).mpr hclass.symm⟩

theorem run_eq (h : Kept disk root calls x) (hf : Placeable f) :
    (below disk root f).run x =
      if f.className ∈ created calls then (.error (.recreated f.className.canonical), x)
      else match (disk.place (root.join f.path) f.render).run x.2 with
        | (.error fault, t) => (.error (.failed (root.join f.path) fault.message), x.1, t)
        | (.ok (), t) => (.ok (root.join f.path), x.1 ++ [root.join f.path], t) := by
  rw [run_below]
  by_cases hc : f.className ∈ created calls
  · rw [(h.any_same_iff hf).mpr hc, if_pos rfl, if_pos hc]
  · rw [Bool.eq_false_iff.mpr fun hany => hc ((h.any_same_iff hf).mp hany), if_neg Bool.false_ne_true,
      if_neg hc]

theorem run_cases (h : Kept disk root calls x) (hf : Placeable f) :
    f.className ∈ created calls ∧
        (below disk root f).run x = (.error (.recreated f.className.canonical), x) ∨
      f.className ∉ created calls ∧ ∃ t,
        (∃ fault, (disk.place (root.join f.path) f.render).run x.2 = (.error fault, t) ∧
          (below disk root f).run x = (.error (.failed (root.join f.path) fault.message), x.1, t)) ∨
        (disk.place (root.join f.path) f.render).run x.2 = (.ok (), t) ∧
          (below disk root f).run x = (.ok (root.join f.path), x.1 ++ [root.join f.path], t) := by
  rw [h.run_eq hf]
  by_cases hc : f.className ∈ created calls
  · exact .inl ⟨hc, if_pos hc⟩
  · refine .inr ⟨hc, ?_⟩
    rw [if_neg hc]
    generalize (disk.place (root.join f.path) f.render).run x.2 = placed
    obtain ⟨result, t⟩ := placed
    cases result with
    | error fault => exact ⟨t, .inl ⟨fault, rfl, rfl⟩⟩
    | ok u => exact ⟨t, .inr ⟨rfl, rfl⟩⟩

theorem same_eq_false (h : Kept disk root calls x) (hf : Placeable f) (hc : f.className ∉ created calls) :
    ∀ g ∈ stored calls, (root.join f.path).same (root.join g.path) = false := by
  intro g hg
  rw [Bool.eq_false_iff]
  intro hsame
  exact hc (mem_created_iff.mpr ⟨g, hg, ((hf.same_join_iff (h.placeable g hg) root).mp hsame).symm⟩)

theorem refuse (h : Kept disk root calls x) {fault : WriteFault} {t : σ}
    (ht : ∀ g ∈ stored calls, textAt disk t (root.join g.path) = textAt disk x.2 (root.join g.path)) :
    Kept disk root (calls ++ [⟨f, .error fault⟩]) (x.1, t) := by
  have hstored : stored (calls ++ [⟨f, .error fault⟩]) = stored calls := by
    rw [stored_append_singleton]
    exact List.append_nil _
  refine ⟨hstored ▸ h.placeable, hstored ▸ h.created_eq, ?_⟩
  rw [hstored]
  exact fun g hg => (ht g hg).trans (h.texts g hg)

theorem next (hdisk : Keeps disk) (h : Kept disk root calls x) (hf : Placeable f) :
    Kept disk root (calls ++ [⟨f, ((below disk root f).run x).1⟩]) ((below disk root f).run x).2 := by
  rcases h.run_cases hf with ⟨-, hrun⟩ | ⟨hc, t, ⟨fault, hplace, hrun⟩ | ⟨hplace, hrun⟩⟩ <;> rw [hrun]
  · exact h.refuse fun _ _ => rfl
  · refine h.refuse fun g hg => ?_
    have hother := hdisk.place_other f.render x.2 (h.same_eq_false hf hc g hg)
    rw [hplace] at hother
    exact hother
  · have hstored : stored (calls ++ [⟨f, .ok (root.join f.path)⟩]) = stored calls ++ [f] :=
      stored_append_singleton calls f _
    refine ⟨?_, ?_, ?_⟩ <;> rw [hstored]
    · exact List.forall_mem_append.mpr ⟨h.placeable, List.forall_mem_singleton.mpr hf⟩
    · rw [List.map_append, ← h.created_eq]
      rfl
    · refine List.forall_mem_append.mpr ⟨fun g hg => ?_, List.forall_mem_singleton.mpr ?_⟩
      · have hother := hdisk.place_other f.render x.2 (h.same_eq_false hf hc g hg)
        rw [hplace] at hother
        exact hother.trans (h.texts g hg)
      · exact hdisk.place_own hplace

theorem again (hdisk : Keeps disk) (h : Kept disk root calls x) (hf : Placeable f)
    (hc : f.className ∉ created calls) {fault : DiskFault} {t : σ}
    (hfault : (disk.place (root.join f.path) f.render).run x.2 = (.error fault, t)) :
    created (calls ++ [⟨f, ((below disk root f).run x).1⟩]) = created calls ∧
    ∀ g u, g.className = f.className → (disk.place (root.join g.path) g.render).run t = (.ok (), u) →
      (below disk root g).run (x.1, t) = (.ok (root.join g.path), x.1 ++ [root.join g.path], u) := by
  have hrun : (below disk root f).run x =
      (.error (.failed (root.join f.path) fault.message), x.1, t) := by
    rw [h.run_eq hf, if_neg hc, hfault]
  have hnext := h.next hdisk hf
  have hcreated : created (calls ++ [⟨f, ((below disk root f).run x).1⟩]) = created calls := by
    rw [hrun, created_append]
    exact List.append_nil _
  refine ⟨hcreated, fun g u hclass hplace => ?_⟩
  rw [hrun] at hnext hcreated
  have hg : g.className ∉ created (calls ++ [⟨f, .error (.failed (root.join f.path) fault.message)⟩]) := by
    rw [hcreated, hclass]
    exact hc
  rw [hnext.run_eq (hf.of_className hclass), if_neg hg, hplace]

end Kept

theorem kept_answersTo {disk : Disk (StateM σ)} (hdisk : Keeps disk) (root : Path) (s : σ)
    {files : List SourceFile} (hfiles : ∀ g ∈ files, Placeable g) :
    Kept disk root (callsFor (below disk root) files ([], s))
      (answersTo (below disk root) files ([], s)).2 := by
  have hrun : ∀ files, (∀ g ∈ files, Placeable g) → ∀ calls x, Kept disk root calls x →
      Kept disk root (calls ++ callsFor (below disk root) files x)
        (answersTo (below disk root) files x).2 := by
    intro files
    induction files with
    | nil =>
        intro _ calls x h
        exact (List.append_nil calls).symm ▸ h
    | cons f files ih =>
        intro hfiles calls x h
        obtain ⟨hf, hfiles⟩ := List.forall_mem_cons.mp hfiles
        rw [callsFor_cons, answersTo_cons, List.append_cons]
        exact ih hfiles _ _ (h.next hdisk hf)
  exact hrun files hfiles [] ([], s) ⟨nofun, rfl, nofun⟩

theorem mem_of_mem_stored {τ : Type} {create : Filer (StateM τ)} {files : List SourceFile} {w : τ}
    {g : SourceFile} (hg : g ∈ stored (callsFor create files w)) : g ∈ files := by
  obtain ⟨call, hcall, rfl⟩ := List.mem_map.mp hg
  have hfile := List.mem_map_of_mem (f := Call.file) (List.mem_filter.mp hcall).1
  rwa [callsFor, map_file_zipWith _ _ (length_answersTo create files w)] at hfile

theorem get?_of_mem {files : MemoryFiles} {path : Path} {text : String}
    (hapart : files.entries.Pairwise fun a b => a.1.same b.1 = false)
    (hmem : (path, text) ∈ files.entries) : files.get? path = some text := by
  obtain ⟨before, after, hentries⟩ := List.append_of_mem hmem
  rw [hentries, List.pairwise_append] at hapart
  have hown : path.same path = true := decide_eq_true rfl
  have hbefore : before.find? (fun e => e.1.same path) = none := by
    rw [List.find?_eq_none]
    intro e he
    rw [hapart.2.2 e he _ List.mem_cons_self]
    exact Bool.false_ne_true
  rw [MemoryFiles.get?, hentries, List.find?_append, hbefore, Option.none_or, List.find?_cons, hown]
  rfl

section Memory

variable {files : List SourceFile} (hfiles : ∀ g ∈ files, Placeable g)

theorem entries_memory (files : List SourceFile) :
    (answersTo MemoryFiles.create files .empty).2.entries =
      (stored (callsFor MemoryFiles.create files .empty)).map fun g => (g.path, g.render) := by
  rw [entries_answersTo]
  rfl

theorem get?_memory {g : SourceFile} (hg : g ∈ stored (callsFor MemoryFiles.create files .empty)) :
    (answersTo MemoryFiles.create files .empty).2.get? g.path = some g.render := by
  refine get?_of_mem (pairwise_answersTo files .empty List.Pairwise.nil) ?_
  rw [entries_memory]
  exact List.mem_map_of_mem hg

include hfiles

theorem isSome_get?_iff {f : SourceFile} (hf : Placeable f) :
    ((answersTo MemoryFiles.create files .empty).2.get? f.path).isSome = true ↔
      f.className ∈ created (callsFor MemoryFiles.create files .empty) := by
  have hplaceable : ∀ g ∈ stored (callsFor MemoryFiles.create files .empty), Placeable g :=
    fun g hg => hfiles g (mem_of_mem_stored hg)
  simp only [MemoryFiles.get?, Option.isSome_map, List.find?_isSome, entries_memory, List.mem_map,
    mem_created_iff]
  constructor
  · rintro ⟨_, ⟨g, hg, rfl⟩, hsame⟩
    exact ⟨g, hg, ((hplaceable g hg).same_path_iff hf).mp hsame⟩
  · rintro ⟨g, hg, hclass⟩
    exact ⟨_, ⟨g, hg, rfl⟩, ((hplaceable g hg).same_path_iff hf).mpr hclass⟩

theorem run_memory {f : SourceFile} (hf : Placeable f) :
    let w := (answersTo MemoryFiles.create files .empty).2
    (MemoryFiles.create f).run w =
      if f.className ∈ created (callsFor MemoryFiles.create files .empty) then
        (.error (.recreated f.className.canonical), w)
      else (.ok f.path, ⟨w.entries ++ [(f.path, f.render)]⟩) := by
  intro w
  have hiff := isSome_get?_iff hfiles hf
  rcases run_create f w with ⟨htaken, hrun⟩ | ⟨hfree, hrun⟩
  · rw [hrun, if_pos (hiff.mp htaken)]
  · have hc : f.className ∉ created (callsFor MemoryFiles.create files .empty) := by
      intro hc
      have htaken := hiff.mpr hc
      rw [hfree] at htaken
      cases htaken
    rw [hrun, if_neg hc]

end Memory

theorem stored_map_answers (files : List SourceFile) (answers : List (Except WriteFault Path))
    (move : Path → Path) :
    stored (List.zipWith Call.mk files (answers.map (Except.map move))) =
      stored (List.zipWith Call.mk files answers) := by
  induction files generalizing answers with
  | nil => rfl
  | cons f files ih =>
      cases answers with
      | nil => rfl
      | cons answer answers =>
          have hrest := ih answers
          cases answer with
          | error fault => exact hrest
          | ok path => exact congrArg (f :: ·) hrest

/-- While the disk refuses none of the files, they are answered as in memory, but for the root. -/
theorem answersTo_below {disk : Disk (StateM σ)} (hdisk : Keeps disk) (root : Path) (s : σ)
    {files : List SourceFile} (hfiles : ∀ g ∈ files, Placeable g)
    (hplace : ∀ before g, before ++ [g] <+: files →
      ((disk.place (root.join g.path) g.render).run
        (answersTo (below disk root) before ([], s)).2.2).1 = .ok ()) :
    (answersTo (below disk root) files ([], s)).1 =
      (answersTo MemoryFiles.create files .empty).1.map (Except.map root.join) := by
  induction files using List.reverseRecOn with
  | nil => rfl
  | append_singleton files f ih =>
      obtain ⟨hfiles, hf⟩ := List.forall_mem_append.mp hfiles
      have hf : Placeable f := hf f List.mem_cons_self
      have hanswers := ih hfiles fun before g h => hplace before g (h.trans (List.prefix_append _ _))
      have hplace := hplace files f List.prefix_rfl
      have hcreated : created (callsFor (below disk root) files ([], s)) =
          created (callsFor MemoryFiles.create files .empty) := by
        rw [created_eq_stored, created_eq_stored, callsFor, hanswers, stored_map_answers]
        rfl
      have hlast : ((below disk root f).run (answersTo (below disk root) files ([], s)).2).1 =
          ((MemoryFiles.create f).run (answersTo MemoryFiles.create files .empty).2).1.map root.join := by
        rw [run_memory hfiles hf]
        rcases (kept_answersTo hdisk root s hfiles).run_cases hf with
          ⟨hc, hrun⟩ | ⟨hc, t, ⟨fault, hfault, -⟩ | ⟨-, hrun⟩⟩
        · rw [hrun, if_pos (hcreated ▸ hc)]
          rfl
        · rw [hfault] at hplace
          cases hplace
        · rw [hrun, if_neg (hcreated ▸ hc)]
          rfl
      rw [answersTo_append, answersTo_append, List.map_append, hanswers, answersTo_cons, answersTo_cons,
        hlast]
      rfl

/-- However files were handed over before, a file is created in memory exactly if none of its class
was, and else refused by its name with nothing changed; each text is that of the file created for the
class. Below a root, whatever stands there, the same classes are refused; for any other the disk
decides, and a class that it fails to write is not created, so that it can be later. What was created
stands there as it was rendered. While the disk fails at no file, the answers and the texts are those of
the memory, with all paths below the root. -/
theorem filers_create_classes_once {disk : Disk (StateM σ)} (hdisk : Keeps disk) (root : Path) (s : σ)
    {files : List SourceFile} (hfiles : ∀ g ∈ files, Placeable g) {f : SourceFile} (hf : Placeable f) :
    (let calls := callsFor MemoryFiles.create files .empty
     let w := (answersTo MemoryFiles.create files .empty).2
     (MemoryFiles.create f).run w =
        (if f.className ∈ created calls then (.error (.recreated f.className.canonical), w)
         else (.ok f.path, ⟨w.entries ++ [(f.path, f.render)]⟩)) ∧
      ∀ g ∈ stored calls, w.get? g.path = some g.render) ∧
    (let calls := callsFor (below disk root) files ([], s)
     let x := (answersTo (below disk root) files ([], s)).2
     (below disk root f).run x =
        (if f.className ∈ created calls then (.error (.recreated f.className.canonical), x)
         else match (disk.place (root.join f.path) f.render).run x.2 with
          | (.error fault, t) => (.error (.failed (root.join f.path) fault.message), x.1, t)
          | (.ok (), t) => (.ok (root.join f.path), x.1 ++ [root.join f.path], t)) ∧
      (∀ g ∈ stored calls, textAt disk x.2 (root.join g.path) = some g.render) ∧
      ∀ fault t, (disk.place (root.join f.path) f.render).run x.2 = (.error fault, t) →
        f.className ∉ created calls →
        created (callsFor (below disk root) (files ++ [f]) ([], s)) = created calls ∧
        ∀ g u, g.className = f.className →
          (disk.place (root.join g.path) g.render).run t = (.ok (), u) →
          (below disk root g).run (x.1, t) = (.ok (root.join g.path), x.1 ++ [root.join g.path], u)) ∧
    ((∀ before g, before ++ [g] <+: files →
        ((disk.place (root.join g.path) g.render).run
          (answersTo (below disk root) before ([], s)).2.2).1 = .ok ()) →
      (answersTo (below disk root) files ([], s)).1 =
        (answersTo MemoryFiles.create files .empty).1.map (Except.map root.join) ∧
      ∀ g ∈ stored (callsFor MemoryFiles.create files .empty),
        textAt disk (answersTo (below disk root) files ([], s)).2.2 (root.join g.path) =
          (answersTo MemoryFiles.create files .empty).2.get? g.path) := by
  have hkept := kept_answersTo hdisk root s hfiles
  refine ⟨⟨run_memory hfiles hf, fun g hg => get?_memory hg⟩,
    ⟨hkept.run_eq hf, hkept.texts, fun fault t hfault hc => ?_⟩, fun hplace => ?_⟩
  · rw [callsFor_append, callsFor_singleton]
    exact hkept.again hdisk hf hc hfault
  · have hanswers := answersTo_below hdisk root s hfiles hplace
    refine ⟨hanswers, fun g hg => ?_⟩
    rw [get?_memory hg]
    refine hkept.texts g ?_
    rw [callsFor, hanswers, stored_map_answers]
    exact hg

/-- Texts by their paths, and what the next writes meet. All directories are there. -/
structure Shelf where
  texts : List (Path × String)
  faults : List (Option DiskFault)

namespace Shelf

def text? (s : Shelf) (p : Path) : Except DiskFault String :=
  match s.texts.find? fun e => e.1.same p with
  | some e => .ok e.2
  | none => .error .notFound

def write (s : Shelf) (p : Path) (text : String) : Except DiskFault Unit × Shelf :=
  match s.faults with
  | some fault :: faults => (.error fault, ⟨s.texts, faults⟩)
  | faults => (.ok (), ⟨(p, text) :: s.texts, faults.tail⟩)

def disk : Disk (StateM Shelf) where
  readText p s := (s.text? p, s)
  isDirectory _ s := (true, s)
  makeDirectory _ s := (.ok (), s)
  writeText p text s := s.write p text

theorem keeps_disk : Keeps disk := by
  refine ⟨fun _ _ _ => rfl, fun _ _ _ => rfl, fun p text s hok => ?_, fun p text s q hq => ?_⟩
  · change (s.write p text).1 = .ok () at hok
    change ((s.write p text).2.text? p).toOption = some text
    rw [write] at hok ⊢
    split at hok
    · cases hok
    · have hown : p.same p = true := decide_eq_true rfl
      simp [text?, hown, Except.toOption]
  · change ((s.write p text).2.text? q).toOption = (s.text? q).toOption
    rw [write]
    split
    · rfl
    · simp [text?, hq]

theorem place_eq (p : Path) (text : String) (s : Shelf) :
    (disk.place p text).run s = s.write p text := by
  rw [Disk.place]
  cases p.ancestry.drop 1 <;> rfl

end Shelf

def screenFile : SourceFile := ⟨"app", none, ⟨"Screen", ∅, [], []⟩⟩

def staleShelf (faults : List (Option DiskFault)) : Shelf :=
  ⟨[(Path.join ⟨"out"⟩ screenFile.path, "stale")], faults⟩

/-- A class whose first file meets a full disk is created at the second attempt. On a disk that fails at
nothing the first attempt succeeds, with the text that a memory would hold, and the second is refused. -/
theorem filers_create_screenFile_once :
    Keeps Shelf.disk ∧ Placeable screenFile ∧
    (let x := (below Shelf.disk ⟨"out"⟩ screenFile).run ([], staleShelf [some (.other "disk full")])
     x.1 = .error (.failed (Path.join ⟨"out"⟩ screenFile.path) "disk full") ∧
     ((below Shelf.disk ⟨"out"⟩ screenFile).run x.2).1 = .ok (Path.join ⟨"out"⟩ screenFile.path)) ∧
    (let x := answersTo (below Shelf.disk ⟨"out"⟩) [screenFile] ([], staleShelf [])
     x.1 = [.ok (Path.join ⟨"out"⟩ screenFile.path)] ∧
     textAt Shelf.disk x.2.2 (Path.join ⟨"out"⟩ screenFile.path) = some screenFile.render ∧
     ((below Shelf.disk ⟨"out"⟩ screenFile).run x.2).1 = .error (.recreated "app.Screen")) := by
  have hplaceable : Placeable screenFile := ⟨⟨["app"], by decide +kernel, rfl⟩, by decide⟩
  have hwritten : (below Shelf.disk ⟨"out"⟩ screenFile).run ([], staleShelf []) =
      (.ok (Path.join ⟨"out"⟩ screenFile.path), [Path.join ⟨"out"⟩ screenFile.path],
        ((staleShelf []).write (Path.join ⟨"out"⟩ screenFile.path) screenFile.render).2) := by
    rw [run_below, Shelf.place_eq]
    rfl
  refine ⟨Shelf.keeps_disk, hplaceable, ?_, ?_⟩
  · have hnone : ∀ g ∈ ([] : List SourceFile), Placeable g := nofun
    obtain ⟨-, ⟨-, -, hagain⟩, -⟩ := filers_create_classes_once Shelf.keeps_disk ⟨"out"⟩
      (staleShelf [some (.other "disk full")]) hnone hplaceable
    have hfirst : (below Shelf.disk ⟨"out"⟩ screenFile).run
        ([], staleShelf [some (.other "disk full")]) =
        (.error (.failed (Path.join ⟨"out"⟩ screenFile.path) "disk full"), [], staleShelf []) := by
      rw [run_below, Shelf.place_eq]
      rfl
    obtain ⟨-, hsecond⟩ := hagain _ _ (Shelf.place_eq _ _ _) nofun
    rw [hfirst]
    exact ⟨rfl, congrArg Prod.fst (hsecond screenFile _ rfl (Shelf.place_eq _ _ _))⟩
  · obtain ⟨⟨-, hmemory⟩, ⟨hrun, -, -⟩, hagree⟩ := filers_create_classes_once Shelf.keeps_disk ⟨"out"⟩
      (staleShelf []) (List.forall_mem_singleton.mpr hplaceable) hplaceable
    have hstored : screenFile ∈ stored (callsFor MemoryFiles.create [screenFile] .empty) :=
      List.mem_cons_self
    have hcreated : screenFile.className ∈
        created (callsFor (below Shelf.disk ⟨"out"⟩) [screenFile] ([], staleShelf [])) := by
      rw [created_cons, hwritten]
      exact List.mem_cons_self
    obtain ⟨hanswers, htexts⟩ := hagree fun before g h => by
      cases before with
      | nil =>
          rw [Shelf.place_eq]
          rfl
      | cons f before => simp at h
    rw [if_pos hcreated] at hrun
    exact ⟨hanswers, (htexts screenFile hstored).trans (hmemory screenFile hstored),
      congrArg Prod.fst hrun⟩

end ViewBinding.Proofs.Filing
