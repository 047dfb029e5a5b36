import ViewBinding.Java.ImportTable
import ViewBinding.Proofs.Reading

namespace ViewBinding.Proofs.Ownership

open Java ClassName Reading

variable (package ownType : String) (classes : List ClassName)

theorem owner?_claim (t : ImportTable) (c : ClassName) (simple : String) :
    (t.claim c).owner? simple =
      (t.owner? simple).or (if c.outermost = simple then some c.topLevel else none) := by
  rw [ImportTable.claim]
  by_cases hn : c.outermost = simple
  · subst hn
    cases ho : t.owner? c.outermost with
    | some o => simp [ho]
    | none =>
        rw [ImportTable.owner?] at ho
        simp [ImportTable.owner?, List.find?_append, ho, topLevel]
  · rw [if_neg hn, Option.or_none]
    split
    · rfl
    · simp [ImportTable.owner?, List.find?_append, topLevel, hn]

/-- The owner of a simple name: the type of the file, or else the outermost class around the first
class listed that has this name there. -/
def winner (simple : String) : Option ClassName :=
  if ownType = simple then some (.ofTopLevel package ownType)
  else (classes.find? fun c => c.outermost = simple).map topLevel

theorem owner?_foldl (t : ImportTable) (simple : String) :
    (classes.foldl ImportTable.claim t).owner? simple =
      (t.owner? simple).or ((classes.find? fun c => c.outermost = simple).map topLevel) := by
  induction classes generalizing t with
  | nil => exact (Option.or_none).symm
  | cons c classes ih =>
      rw [List.foldl_cons, ih, owner?_claim, Option.or_assoc, List.find?_cons]
      by_cases hn : c.outermost = simple <;> simp [hn]

theorem owner?_collect (simple : String) :
    (ImportTable.collect package ownType classes).owner? simple =
      winner package ownType classes simple := by
  rw [ImportTable.collect, owner?_foldl, winner, List.find?_cons]
  by_cases hn : ownType = simple <;> simp [ImportTable.owner?, ofTopLevel, topLevel, hn]

theorem package_collect : (ImportTable.collect package ownType classes).package = package := by
  have hclaim : ∀ (t : ImportTable) (c : ClassName), (t.claim c).package = t.package := by
    intro t c
    rw [ImportTable.claim]
    split <;> rfl
  have hfold : ∀ (cs : List ClassName) (t : ImportTable),
      (cs.foldl ImportTable.claim t).package = t.package := by
    intro cs
    induction cs with
    | nil => exact fun t => rfl
    | cons c cs ih => exact fun t => (ih _).trans (hclaim t c)
  exact hfold _ _

theorem outermost_of_winner {simple : String} {o : ClassName}
    (h : winner package ownType classes simple = some o) : o.outermost = simple := by
  rw [winner] at h
  split at h
  · next hown =>
      cases h
      exact hown
  · obtain ⟨c, hc, rfl⟩ := Option.map_eq_some_iff.mp h
    have hname : c.outermost = simple := by simpa using List.find?_some hc
    exact hname

theorem mem_owners_claim {t : ImportTable} (h : ∀ o ∈ t.owners, t.owner? o.outermost = some o)
    (c : ClassName) : ∀ o ∈ (t.claim c).owners, (t.claim c).owner? o.outermost = some o := by
  intro o ho
  rw [owner?_claim]
  rw [ImportTable.claim] at ho
  split at ho
  · rw [h o ho, Option.some_or]
  · next hnone =>
      rcases List.mem_append.mp ho with ho | ho
      · rw [h o ho, Option.some_or]
      · obtain rfl := List.mem_singleton.mp ho
        have hfree : t.owner? c.outermost = none := by simpa using hnone
        simp [topLevel, hfree]

theorem mem_owners_collect {o : ClassName} :
    o ∈ (ImportTable.collect package ownType classes).owners ↔
      winner package ownType classes o.outermost = some o := by
  have hfold : ∀ (cs : List ClassName) (t : ImportTable),
      (∀ o ∈ t.owners, t.owner? o.outermost = some o) →
      ∀ o ∈ (cs.foldl ImportTable.claim t).owners,
        (cs.foldl ImportTable.claim t).owner? o.outermost = some o := by
    intro cs
    induction cs with
    | nil => exact fun t h => h
    | cons c cs ih => exact fun t h => ih _ (mem_owners_claim h c)
  rw [← owner?_collect]
  exact ⟨hfold _ ⟨package, []⟩ nofun o, List.mem_of_find?_eq_some⟩

theorem mem_imports {o : ClassName} :
    o ∈ (ImportTable.collect package ownType classes).imports ↔
      winner package ownType classes o.outermost = some o ∧
        (ImportTable.collect package ownType classes).needsImport o = true := by
  rw [ImportTable.imports, List.mem_mergeSort, List.mem_filter, mem_owners_collect]

theorem className_cases (t : ImportTable) (c : ClassName) :
    (t.owner? c.outermost = some c.topLevel ∧ t.className c = { c with package := "" }.canonical) ∨
      (t.owner? c.outermost ≠ some c.topLevel ∧ t.className c = c.canonical) := by
  by_cases h : t.owner? c.outermost = some c.topLevel
  · exact .inl ⟨h, if_pos h⟩
  · exact .inr ⟨h, if_neg h⟩

/-- Two classes of named packages are not written alike, be they listed or not. -/
theorem className_ne_of_ne {c d : ClassName} (hc : Readable c) (hd : Readable d)
    (hcp : c.package ≠ "") (hdp : d.package ≠ "") (hne : c ≠ d) :
    (ImportTable.collect package ownType classes).className c ≠
      (ImportTable.collect package ownType classes).className d := by
  have hc := conventional_of_readable hc
  have hd := conventional_of_readable hd
  generalize ImportTable.collect package ownType classes = t
  intro h
  rcases className_cases t c with ⟨hco, hct⟩ | ⟨-, hct⟩ <;>
    rcases className_cases t d with ⟨hdo, hdt⟩ | ⟨-, hdt⟩ <;> rw [hct, hdt] at h
  · -- both own the same name, so they have the same outermost class
    obtain ⟨-, houtermost, hinner⟩ := ClassName.mk.inj (hc.unpackaged.canonical_inj hd.unpackaged h)
    rw [houtermost, hdo] at hco
    obtain ⟨hpackage, -, -⟩ := ClassName.mk.inj (Option.some.inj hco)
    exact hne (ext_names hpackage.symm (by rw [names, names, houtermost, hinner]))
  · have hpackage := congrArg ClassName.package (hc.unpackaged.canonical_inj hd h)
    exact hdp hpackage.symm
  · have hpackage := congrArg ClassName.package (hc.canonical_inj hd.unpackaged h)
    exact hcp hpackage
  · exact hne (hc.canonical_inj hd h)

def shopRow : ClassName := (ofTopLevel "shop" "Item").nested "Row"

def stockRow : ClassName := (ofTopLevel "stock" "Item").nested "Row"

/-- The first owns the name of its outermost class without being listed itself. -/
theorem className_ne_rows :
    Readable shopRow ∧ Readable stockRow ∧ shopRow.package ≠ "" ∧ stockRow.package ≠ "" ∧
    shopRow ≠ stockRow ∧
    (ImportTable.collect "app" "Screen" [shopRow.topLevel, stockRow]).className shopRow = "Item.Row" ∧
    (ImportTable.collect "app" "Screen" [shopRow.topLevel, stockRow]).className shopRow ≠
      (ImportTable.collect "app" "Screen" [shopRow.topLevel, stockRow]).className stockRow := by
  have hshop : Readable shopRow := ⟨"shop.Item.Row", rfl⟩
  have hstock : Readable stockRow := ⟨"stock.Item.Row", rfl⟩
  have hshopPackage : shopRow.package ≠ "" := by decide
  have hstockPackage : stockRow.package ≠ "" := by decide
  have hne : shopRow ≠ stockRow := by decide
  exact ⟨hshop, hstock, hshopPackage, hstockPackage, hne, by decide +kernel,
    className_ne_of_ne _ _ _ hshop hstock hshopPackage hstockPackage hne⟩

end ViewBinding.Proofs.Ownership
