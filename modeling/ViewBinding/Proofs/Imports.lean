import Mathlib.Data.List.Nodup
import ViewBinding.Proofs.Ownership

namespace ViewBinding.Proofs.Imports

open Text Java ClassName Reading Ownership

variable (package ownType : String) (classes : List ClassName)

theorem nodup_owners_claim {t : ImportTable} (h : (t.owners.map outermost).Nodup) (c : ClassName) :
    ((t.claim c).owners.map outermost).Nodup := by
  rw [ImportTable.claim]
  split
  · exact h
  · next hfree =>
      have hnew : c.outermost ∉ t.owners.map outermost := by
        intro hmem
        obtain ⟨o, ho, hname⟩ := List.mem_map.mp hmem
        exact hfree (List.find?_isSome.mpr ⟨o, ho, decide_eq_true hname⟩)
      rw [List.map_append, List.map_singleton]
      exact List.nodup_append.mpr ⟨h, List.pairwise_singleton _ _, by simpa [topLevel] using hnew⟩

theorem nodup_owners_foldl {t : ImportTable} (h : (t.owners.map outermost).Nodup) :
    ((classes.foldl ImportTable.claim t).owners.map outermost).Nodup := by
  induction classes generalizing t with
  | nil => exact h
  | cons c classes ih => exact ih (nodup_owners_claim h c)

theorem nodup_imports :
    ((ImportTable.collect package ownType classes).imports.map outermost).Nodup := by
  have howners : ((ImportTable.collect package ownType classes).owners.map outermost).Nodup :=
    nodup_owners_foldl _ List.nodup_nil
  have hsorted := (List.mergeSort_perm
    ((ImportTable.collect package ownType classes).owners.filter
      (ImportTable.collect package ownType classes).needsImport)
    fun c d => decide (c.canonical ≤ d.canonical)).map outermost
  exact hsorted.nodup_iff.mpr (howners.sublist (List.filter_sublist.map outermost))

theorem sorted_imports (t : ImportTable) :
    t.imports.Pairwise fun c d => c.canonical ≤ d.canonical := by
  have htrans (a b c : ClassName) (hab : decide (a.canonical ≤ b.canonical) = true)
      (hbc : decide (b.canonical ≤ c.canonical) = true) : decide (a.canonical ≤ c.canonical) = true :=
    decide_eq_true (String.le_trans (of_decide_eq_true hab) (of_decide_eq_true hbc))
  have htotal (a b : ClassName) :
      (decide (a.canonical ≤ b.canonical) || decide (b.canonical ≤ a.canonical)) = true := by
    simpa using String.le_total a.canonical b.canonical
  exact (List.pairwise_mergeSort htrans htotal _).imp of_decide_eq_true

theorem winner_eq_find? (simple : String) :
    winner package ownType classes simple =
      ((ofTopLevel package ownType :: classes).find? fun c => c.outermost = simple).map topLevel := by
  rw [winner, List.find?_cons]
  by_cases h : ownType = simple <;> simp [ofTopLevel, topLevel, h]

theorem listed_of_winner {simple : String} {o : ClassName}
    (h : winner package ownType classes simple = some o) :
    ∃ c ∈ ofTopLevel package ownType :: classes, c.outermost = simple ∧ c.topLevel = o := by
  rw [winner_eq_find?] at h
  obtain ⟨c, hc, ho⟩ := Option.map_eq_some_iff.mp h
  have hname : c.outermost = simple := by simpa using List.find?_some hc
  exact ⟨c, List.mem_of_find?_eq_some hc, hname, ho⟩

theorem mem_imports_iff {o : ClassName} :
    o ∈ (ImportTable.collect package ownType classes).imports ↔
      winner package ownType classes o.outermost = some o ∧
        o.package ≠ "" ∧ o.package ≠ package ∧ o.package ≠ "java.lang" := by
  rw [mem_imports, ImportTable.needsImport, package_collect]
  simp [and_assoc]

theorem listed_of_mem_imports {o : ClassName}
    (h : o ∈ (ImportTable.collect package ownType classes).imports) :
    ∃ c ∈ classes, c.topLevel = o := by
  obtain ⟨hwinner, -, hother, -⟩ := (mem_imports_iff package ownType classes).mp h
  obtain ⟨c, hc, -, rfl⟩ := listed_of_winner package ownType classes hwinner
  rcases List.mem_cons.mp hc with rfl | hc
  · exact absurd rfl hother
  · exact ⟨c, hc, rfl⟩

theorem simple_of_mem_imports {o : ClassName}
    (h : o ∈ (ImportTable.collect package ownType classes).imports) : o.simple = o.outermost := by
  obtain ⟨c, -, rfl⟩ := listed_of_mem_imports package ownType classes h
  rfl

theorem className_collect (c : ClassName) :
    (ImportTable.collect package ownType classes).className c =
      if winner package ownType classes c.outermost = some c.topLevel then c.dotted else c.canonical := by
  rw [ImportTable.className, owner?_collect]

theorem canonical_ne_dotted {c : ClassName} (h : c.package ≠ "") : c.canonical ≠ c.dotted := by
  intro heq
  have hlength := congrArg String.length heq
  rw [canonical, qualify, if_neg (fun he => h (String.isEmpty_iff.mp he))] at hlength
  simp only [String.length_append] at hlength
  have hdot : ".".length = 1 := by rfl
  omega

theorem className_eq_dotted_iff {c : ClassName} (h : c.package ≠ "") :
    (ImportTable.collect package ownType classes).className c = c.dotted ↔
      winner package ownType classes c.outermost = some c.topLevel := by
  rw [className_collect]
  split
  · next howner => exact ⟨fun _ => howner, fun _ => rfl⟩
  · next hother =>
      exact ⟨fun htext => absurd htext (canonical_ne_dotted h), fun howner => absurd howner hother⟩

/-- A simple name belongs to the type of the file if it is called so, and else to the outermost class
around the first class listed that has this name there. The imports are the owners that are neither in the
default package, nor in the file's, nor in `java.lang`, in the order of their texts and with no two of one
name. A class is written without its package if its outermost class owns its name, and in full otherwise;
in the default package the two texts are the same, in any other they differ. -/
theorem collect_resolves :
    ((ImportTable.collect package ownType classes).imports.Pairwise fun c d =>
      c.canonical ≤ d.canonical) ∧
    ((ImportTable.collect package ownType classes).imports.map simple).Nodup ∧
    (∀ o, o ∈ (ImportTable.collect package ownType classes).imports ↔
      winner package ownType classes o.outermost = some o ∧
        o.package ≠ "" ∧ o.package ≠ package ∧ o.package ≠ "java.lang") ∧
    ∀ c, (winner package ownType classes c.outermost = some c.topLevel →
        (ImportTable.collect package ownType classes).className c = c.dotted) ∧
      (winner package ownType classes c.outermost ≠ some c.topLevel →
        (ImportTable.collect package ownType classes).className c = c.canonical) ∧
      (c.package = "" → c.canonical = c.dotted) ∧ (c.package ≠ "" → c.canonical ≠ c.dotted) := by
  refine ⟨sorted_imports _, ?_, fun o => mem_imports_iff package ownType classes, fun c => ⟨?_, ?_, ?_,
    canonical_ne_dotted⟩⟩
  · rw [List.map_congr_left fun o ho => simple_of_mem_imports package ownType classes ho]
    exact nodup_imports package ownType classes
  · intro howner
    rw [className_collect, if_pos howner]
  · intro hother
    rw [className_collect, if_neg hother]
  · intro hdefault
    rw [canonical, qualify, hdefault]
    rfl

/-- No two outermost classes, that of the file among them, have one simple name. -/
def Uncontested : Prop :=
  ∀ c ∈ ofTopLevel package ownType :: classes, ∀ d ∈ ofTopLevel package ownType :: classes,
    c.outermost = d.outermost → c.topLevel = d.topLevel

instance : Decidable (Uncontested package ownType classes) :=
  inferInstanceAs (Decidable (∀ c ∈ _, ∀ d ∈ _, _ → _))

variable {package ownType classes}

theorem Uncontested.winner_eq_iff (h : Uncontested package ownType classes) {simple : String}
    {o : ClassName} : winner package ownType classes simple = some o ↔
      ∃ c ∈ ofTopLevel package ownType :: classes, c.outermost = simple ∧ c.topLevel = o := by
  refine ⟨listed_of_winner package ownType classes, ?_⟩
  rintro ⟨c, hc, hname, rfl⟩
  have hfound : ((ofTopLevel package ownType :: classes).find? fun d => d.outermost = simple).isSome =
      true := List.find?_isSome.mpr ⟨c, hc, decide_eq_true hname⟩
  obtain ⟨d, hd⟩ := Option.isSome_iff_exists.mp hfound
  have hname' : d.outermost = simple := by simpa using List.find?_some hd
  rw [winner_eq_find?, hd, Option.map_some,
    h d (List.mem_of_find?_eq_some hd) c hc (hname'.trans hname.symm)]

theorem Uncontested.of_mem_iff (h : Uncontested package ownType classes) {others : List ClassName}
    (hsame : ∀ c, c ∈ others ↔ c ∈ classes) : Uncontested package ownType others := by
  have hmem : ∀ c, c ∈ ofTopLevel package ownType :: others → c ∈ ofTopLevel package ownType :: classes :=
    fun c hc => List.mem_cons.mpr ((List.mem_cons.mp hc).imp_right (hsame c).mp)
  exact fun c hc d hd => h c (hmem c hc) d (hmem d hd)

theorem Uncontested.winner_eq (h : Uncontested package ownType classes) {others : List ClassName}
    (hsame : ∀ c, c ∈ others ↔ c ∈ classes) (simple : String) :
    winner package ownType others simple = winner package ownType classes simple := by
  apply Option.ext
  intro o
  rw [h.winner_eq_iff, (h.of_mem_iff hsame).winner_eq_iff]
  simp only [List.mem_cons, hsame]

theorem split_qualified {package name : String} (h : '.' ∉ name.toList) :
    split '.' (package ++ "." ++ name) = split '.' package ++ [name] := by
  have hlist : (package ++ "." ++ name).toList = package.toList ++ '.' :: name.toList := by simp
  rw [split, split, hlist, cut_append_sep, cut_of_notMem h, List.map_append, List.map_singleton,
    String.ofList_toList]

theorem split_canonical_topLevel {c : ClassName} (h : '.' ∉ c.outermost.toList) (hpackage : c.package ≠ "") :
    split '.' c.topLevel.canonical = split '.' c.package ++ [c.outermost] := by
  have hcanonical : c.topLevel.canonical = c.package ++ "." ++ c.outermost := by
    rw [canonical, qualify, topLevel, if_neg (fun he => hpackage (String.isEmpty_iff.mp he)), dotted, names,
      join_singleton]
  rw [hcanonical, split_qualified h]

theorem import_eq_of_canonical_eq {others : List ClassName}
    (hplain : ∀ c ∈ classes, '.' ∉ c.outermost.toList) (hsame : ∀ c, c ∈ others ↔ c ∈ classes)
    {o o' : ClassName}
    (ho : o ∈ (ImportTable.collect package ownType classes).imports)
    (ho' : o' ∈ (ImportTable.collect package ownType others).imports)
    (htext : o.canonical = o'.canonical) : o = o' := by
  have hpackage := ((mem_imports_iff package ownType classes).mp ho).2.1
  have hpackage' := ((mem_imports_iff package ownType others).mp ho').2.1
  obtain ⟨c, hc, rfl⟩ := listed_of_mem_imports package ownType classes ho
  obtain ⟨d, hd, rfl⟩ := listed_of_mem_imports package ownType others ho'
  have hsplit := split_canonical_topLevel (hplain c hc) hpackage
  rw [htext, split_canonical_topLevel (hplain d ((hsame d).mp hd)) hpackage'] at hsplit
  obtain ⟨hpackages, hnames⟩ := List.append_inj' hsplit rfl
  have hpackages : d.package = c.package := by
    rw [← join_split d.package, hpackages, join_split]
  have hnames : d.outermost = c.outermost := List.singleton_inj.mp hnames
  rw [topLevel, topLevel, hpackages, hnames]

/-- If no name is contested, a file resolves the classes it mentions in the same way in whatever order
they are listed and however often. -/
theorem collect_of_same_classes (hfree : Uncontested package ownType classes)
    (hplain : ∀ c ∈ classes, '.' ∉ c.outermost.toList) {others : List ClassName}
    (hsame : ∀ c, c ∈ others ↔ c ∈ classes) :
    let t := ImportTable.collect package ownType classes
    let t' := ImportTable.collect package ownType others
    t'.imports = t.imports ∧ (∀ c, t'.className c = t.className c) ∧ ∀ e, t'.typeName e = t.typeName e := by
  intro t t'
  have htexts : t'.className = t.className := by
    funext c
    rw [className_collect, className_collect, hfree.winner_eq hsame]
  have hperm : t'.imports.Perm t.imports := by
    refine (List.perm_ext_iff_of_nodup ?_ ?_).mpr fun o => ?_
    · exact List.Nodup.of_map outermost (nodup_imports package ownType others)
    · exact List.Nodup.of_map outermost (nodup_imports package ownType classes)
    · rw [mem_imports_iff, mem_imports_iff, hfree.winner_eq hsame]
  refine ⟨hperm.eq_of_pairwise ?_ (sorted_imports t') (sorted_imports t), congrFun htexts, fun e => ?_⟩
  · intro o o' ho ho' hle hle'
    exact (import_eq_of_canonical_eq hplain hsame ho' ho (String.le_antisymm hle' hle)).symm
  · rw [ImportTable.typeName, ImportTable.typeName, htexts]

def shopItem : ClassName := ofTopLevel "shop" "Item"

def stockCart : ClassName := ofTopLevel "stock" "Cart"

/-- The nested class is listed first, and its outermost class twice, in one of the lists. -/
theorem collect_of_same_classes_rows :
    Uncontested "app" "Screen" [shopItem, stockCart, shopRow] ∧
    (∀ c ∈ [shopItem, stockCart, shopRow], '.' ∉ c.outermost.toList) ∧
    (∀ c, c ∈ [shopRow, shopItem, stockCart, shopItem] ↔ c ∈ [shopItem, stockCart, shopRow]) ∧
    (ImportTable.collect "app" "Screen" [shopRow, shopItem, stockCart, shopItem]).imports =
      (ImportTable.collect "app" "Screen" [shopItem, stockCart, shopRow]).imports ∧
    (ImportTable.collect "app" "Screen" [shopRow, shopItem, stockCart, shopItem]).className shopRow =
      (ImportTable.collect "app" "Screen" [shopItem, stockCart, shopRow]).className shopRow := by
  have hfree : Uncontested "app" "Screen" [shopItem, stockCart, shopRow] := by decide
  have hplain : ∀ c ∈ [shopItem, stockCart, shopRow], '.' ∉ c.outermost.toList := by decide
  have hsame : ∀ c, c ∈ [shopRow, shopItem, stockCart, shopItem] ↔
      c ∈ [shopItem, stockCart, shopRow] := by
    intro c
    simp only [List.mem_cons, List.not_mem_nil, or_false]
    tauto
  obtain ⟨himports, htexts, -⟩ := collect_of_same_classes hfree hplain hsame
  exact ⟨hfree, hplain, hsame, himports, htexts shopRow⟩

end ViewBinding.Proofs.Imports
