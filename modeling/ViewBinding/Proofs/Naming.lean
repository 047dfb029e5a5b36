import ViewBinding.Options
import ViewBinding.Proofs.Reading

namespace ViewBinding.Proofs.Naming

open Text ClassName Reading

theorem names_eq_of_binary_eq {h k : ClassName} (hh : ∀ n ∈ h.names, '$' ∉ n.toList)
    (hk : ∀ n ∈ k.names, '$' ∉ n.toList) (hbinary : h.binary = k.binary) : h.names = k.names := by
  have hsplit : split '$' h.binary = h.names := split_join_of_notMem rfl h.names_ne_nil hh
  rw [← hsplit, hbinary]
  exact split_join_of_notMem rfl k.names_ne_nil hk

theorem binary_eq_outermost {h : ClassName} (htop : h.inner = []) : h.binary = h.outermost := by
  rw [binary, names, htop, join_singleton]

theorem toList_binary (h : ClassName) : ∃ rest, h.binary.toList = h.outermost.toList ++ rest := by
  rw [binary, names]
  cases h.inner with
  | nil => exact ⟨[], by rw [join_singleton, List.append_nil]⟩
  | cons n ns => exact ⟨_, by rw [join_cons_cons, String.append_assoc, String.toList_append]⟩

theorem continues_binary {h : ClassName} (hnames : ∀ n ∈ h.names, isIdentifier n.toList = true) :
    ∀ a ∈ h.binary.toList, continuesIdentifier a = true := by
  intro a ha
  rcases mem_join ha with hsign | ⟨n, hn, ha⟩
  · rw [List.mem_singleton.mp hsign]
    decide +kernel
  · exact continues_of_isIdentifier (hnames n hn) a ha

theorem isIdentifier_append {s t : List Char} (hs : isIdentifier s = true)
    (ht : ∀ a ∈ t, continuesIdentifier a = true) : isIdentifier (s ++ t) = true := by
  cases s with
  | nil => cases hs
  | cons a s =>
      rw [isIdentifier, Bool.and_eq_true] at hs
      rw [List.cons_append, isIdentifier, List.all_append, hs.1, hs.2, List.all_eq_true.mpr ht]
      rfl

theorem startsUpper_append {s t : String} (h : startsUpper s = true) : startsUpper (s ++ t) = true := by
  rw [startsUpper, String.toList_append]
  rw [startsUpper] at h
  cases hs : s.toList with
  | nil =>
      rw [hs] at h
      cases h
  | cons a r =>
      rw [hs] at h
      exact h

variable (options : Options) (h k : ClassName)

theorem canonical_companionName :
    (options.companionName h).canonical = h.reflection ++ options.suffix := by
  change qualify h.package (join "." [h.binary ++ options.suffix]) = _
  rw [join_singleton, reflection, qualify, qualify]
  split
  · rfl
  · exact String.append_assoc.symm

theorem companionName_eq_iff :
    options.companionName h = options.companionName k ↔ h.package = k.package ∧ h.binary = k.binary := by
  rw [Options.companionName, Options.companionName, ofTopLevel, ofTopLevel, ClassName.mk.injEq,
    String.append_left_inj]
  exact ⟨fun ⟨hpackage, hbinary, _⟩ => ⟨hpackage, hbinary⟩,
    fun ⟨hpackage, hbinary⟩ => ⟨hpackage, hbinary, rfl⟩⟩

variable {options h k}

theorem companionName_ne (hne : h ≠ k) (hnames : ∀ n ∈ h.names ++ k.names, '$' ∉ n.toList) :
    options.companionName h ≠ options.companionName k := by
  intro heq
  obtain ⟨hpackage, hbinary⟩ := (companionName_eq_iff options h k).mp heq
  refine hne (ext_names hpackage (names_eq_of_binary_eq ?_ ?_ hbinary))
  · exact fun n hn => hnames n (List.mem_append_left _ hn)
  · exact fun n hn => hnames n (List.mem_append_right _ hn)

theorem companionName_ne_self (hsuffix : options.suffix ≠ "") (htop : h.inner = []) :
    options.companionName h ≠ h := by
  intro heq
  have houtermost : h.binary ++ options.suffix = h.outermost := congrArg ClassName.outermost heq
  rw [binary_eq_outermost htop, String.append_eq_left_iff] at houtermost
  exact hsuffix houtermost

theorem conventional_companionName (hc : Conventional h)
    (hsuffix : ∀ a ∈ options.suffix.toList, continuesIdentifier a = true) :
    Conventional (options.companionName h) := by
  have hnames : ∀ n ∈ h.names, isIdentifier n.toList = true :=
    fun n hn => hc.identifiers n (List.mem_append_right _ hn)
  obtain ⟨rest, hrest⟩ := toList_binary h
  have hname : (options.companionName h).outermost =
      h.outermost ++ String.ofList (rest ++ options.suffix.toList) := by
    apply String.toList_inj.mp
    simp [Options.companionName, ofTopLevel, hrest]
  refine ⟨fun s hs => ?_, hc.lower, ?_⟩
  · rcases List.mem_append.mp hs with hs | hs
    · exact hc.identifiers s (List.mem_append_left _ hs)
    · rw [List.mem_singleton.mp hs, hname, String.toList_append, String.toList_ofList]
      refine isIdentifier_append (hnames h.outermost List.mem_cons_self) fun a ha => ?_
      rcases List.mem_append.mp ha with ha | ha
      · exact continues_binary hnames a (hrest ▸ List.mem_append_right _ ha)
      · exact hsuffix a ha
  · rw [hname]
    exact startsUpper_append hc.upper

variable (options h k) in
/-- The companion of a host is a top-level class of the host's package, known to a class loader by the
name of the host and the suffix. Two hosts share a companion exactly if they share package and binary
name, so never if they differ and the joining sign is in none of their names. A suffix keeps the
companion of a top-level host apart from it, and one made of characters of identifiers lets it be read
from its text wherever the host can be read. -/
theorem companionName_tells_host :
    (options.companionName h).package = h.package ∧ (options.companionName h).isNested = false ∧
    (options.companionName h).canonical = h.reflection ++ options.suffix ∧
    (options.companionName h = options.companionName k ↔
      h.package = k.package ∧ join "$" h.names = join "$" k.names) ∧
    (h ≠ k → (∀ n ∈ h.names ++ k.names, '$' ∉ n.toList) →
      options.companionName h ≠ options.companionName k) ∧
    (options.suffix ≠ "" → h.isNested = false → options.companionName h ≠ h) ∧
    ((∀ a ∈ options.suffix.toList, continuesIdentifier a = true) → Readable h →
      guess (options.companionName h).canonical = .ok (options.companionName h)) := by
  refine ⟨rfl, rfl, canonical_companionName options h, companionName_eq_iff options h k,
    companionName_ne, fun hsuffix htop => ?_, fun hsuffix hread => ?_⟩
  · have hinner : h.inner = [] := by simpa [isNested] using htop
    exact companionName_ne_self hsuffix hinner
  · exact (conventional_companionName (conventional_of_readable hread) hsuffix).guess_canonical

def innerPanel : ClassName := (ofTopLevel "app" "Screen").nested "Panel"

def dollarPanel : ClassName := ofTopLevel "app" "Screen$Panel"

def innerSheet : ClassName := (ofTopLevel "app" "Screen").nested "Sheet"

/-- A nested class shares its companion with the top-level class that has its binary name, and with no
other class that is nested beside it. -/
theorem companionName_tells_innerPanel :
    innerPanel ≠ dollarPanel ∧
    Options.standard.companionName innerPanel = Options.standard.companionName dollarPanel ∧
    (∀ n ∈ innerPanel.names ++ innerSheet.names, '$' ∉ n.toList) ∧
    Options.standard.companionName innerPanel ≠ Options.standard.companionName innerSheet ∧
    (∀ a ∈ Options.standard.suffix.toList, continuesIdentifier a = true) ∧ Readable innerPanel ∧
    guess "app.Screen$Panel$$Proxy" = .ok (Options.standard.companionName innerPanel) := by
  have hsigns : ∀ n ∈ innerPanel.names ++ innerSheet.names, '$' ∉ n.toList := by decide
  have hall : "$$Proxy".toList.all continuesIdentifier = true := by rfl
  have hsuffix : ∀ a ∈ Options.standard.suffix.toList, continuesIdentifier a = true :=
    List.all_eq_true.mp hall
  have hread : Readable innerPanel := ⟨"app.Screen.Panel", rfl⟩
  obtain ⟨-, -, -, hshared, -, -, -⟩ := companionName_tells_host .standard innerPanel dollarPanel
  obtain ⟨-, -, hcanonical, -, hapart, -, hguess⟩ :=
    companionName_tells_host .standard innerPanel innerSheet
  refine ⟨by decide, hshared.mpr ⟨rfl, rfl⟩, hsigns, hapart (by decide) hsigns, hsuffix, hread, ?_⟩
  exact hguess hsuffix hread

end ViewBinding.Proofs.Naming
