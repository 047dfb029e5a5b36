import ViewBinding.Manifest.Basic
import ViewBinding.Proofs.Reading

namespace ViewBinding.Proofs.Qualified

open Text ClassName Reading

theorem split_of_afterPackage? {package name rest : String}
    (h : afterPackage? package name = some rest) :
    split '.' name = segments package ++ split '.' rest := by
  rw [afterPackage?] at h
  rw [segments]
  split at h
  · next hempty =>
      cases h
      rw [if_pos hempty, List.nil_append]
  · next hempty =>
      obtain ⟨r, hdrop, rfl⟩ := Option.map_eq_some_iff.mp h
      have hname : name.toList = package.toList ++ '.' :: r := by
        rw [dropStart?_eq_some_iff.mp hdrop]
        simp
      rw [if_neg hempty, split, split, split, hname, cut_append_sep, List.map_append,
        String.toList_ofList]

theorem within_trimmed (package name : String) :
    within (trimmed package) (trimmed name) = within package name := by
  rw [within, within, trimmed_trimmed, trimmed_trimmed]

theorem within_eq_ok {package name : String} {c : ClassName} (h : within package name = .ok c) :
    c.package = trimmed package ∧
      split '.' (trimmed name) = segments (trimmed package) ++ c.names ∧
      ∀ s ∈ split '.' (trimmed name), isIdentifier s.toList = true := by
  rw [within] at h
  dsimp only at h
  split at h
  · cases h
  split at h
  · cases h
  next rest hrest =>
  rw [split_of_afterPackage? hrest]
  split at h
  · cases h
  next hfind =>
  split at h
  · cases h
  next outermost inner hsplit =>
  obtain rfl := Except.ok.inj h
  refine ⟨rfl, by rw [hsplit, names], fun s hs => ?_⟩
  simpa using List.find?_eq_none.mp hfind s hs

theorem within_eq_ok_iff {package name : String} {c : ClassName} :
    within package name = .ok c ↔
      c.package = trimmed package ∧ c.canonical = trimmed name ∧
        split '.' (trimmed name) = segments (trimmed package) ++ c.names ∧
        ∀ s ∈ split '.' (trimmed name), isIdentifier s.toList = true := by
  constructor
  · intro h
    obtain ⟨hpackage, hsplit, hidentifiers⟩ := within_eq_ok h
    refine ⟨hpackage, ?_, hsplit, hidentifiers⟩
    rw [← hpackage] at hsplit
    exact canonical_of_split hsplit
  · rintro ⟨hpackage, hcanonical, hsplit, hidentifiers⟩
    rw [hsplit, ← hpackage] at hidentifiers
    rw [← within_trimmed, ← hpackage, ← hcanonical]
    exact within_canonical hidentifiers

theorem within_of_guess {name : String} {c : ClassName} (h : guess name = .ok c) :
    within c.package name = .ok c := by
  have hc := conventional_of_readable ⟨name, h⟩
  have hpackage := trimmed_package fun s hs => hc.identifiers s (List.mem_append_left _ hs)
  calc
    within c.package name = within (trimmed c.package) (trimmed name) :=
      (within_trimmed c.package name).symm
    _ = within c.package c.canonical := by rw [hpackage, canonical_of_guess h]
    _ = .ok c := within_canonical hc.identifiers

theorem typeName_package {name : String} {c : ClassName} (h : Manifest.typeName name none = .ok c) :
    Manifest.typeName name (some c.package) = .ok c := by
  simp only [Manifest.typeName] at h ⊢
  exact within_of_guess h

theorem name_of_typeDecl {name : String} {package : Option String} {rest} {t : TypeDecl}
    (h : Manifest.typeDecl (name, package, rest) = .ok t) :
    Manifest.typeName name package = .ok t.name := by
  obtain ⟨kind, modifiers, enclosing, fields, methods, ⟨⟩⟩ := rest
  rw [Manifest.typeDecl] at h
  cases hname : Manifest.typeName name package with
  | error fault =>
      rw [hname] at h
      cases h
  | ok c =>
      simp only [hname, Except.mapError, bind, Except.bind] at h
      split at h
      · cases h
      split at h
      · cases h
      split at h
      · cases h
      cases h
      rfl

theorem typeDecl_package {name : String} {rest} {t : TypeDecl}
    (h : Manifest.typeDecl (name, none, rest) = .ok t) :
    Manifest.typeDecl (name, some t.name.package, rest) = .ok t := by
  have hname := name_of_typeDecl h
  obtain ⟨kind, modifiers, enclosing, fields, methods, ⟨⟩⟩ := rest
  rw [Manifest.typeDecl, hname] at h
  rw [Manifest.typeDecl, typeName_package hname]
  exact h

/-- A class is read with its package known exactly if the package is the given one, the canonical text of
the class the given name, and all segments of the two are identifiers. Every class of identifiers is read
so from its package and its canonical text. A name that is read without its package is read as the same
class with it, so to give the package in a manifest changes nothing where it could be guessed. -/
theorem within_names_classes :
    (∀ package name c, within package name = .ok c ↔
      c.package = trimmed package ∧ c.canonical = trimmed name ∧
        split '.' (trimmed name) = segments (trimmed package) ++ c.names ∧
        ∀ s ∈ split '.' (trimmed name), isIdentifier s.toList = true) ∧
    (∀ c : ClassName, (∀ s ∈ segments c.package ++ c.names, isIdentifier s.toList = true) →
      within c.package c.canonical = .ok c) ∧
    (∀ name c, guess name = .ok c → within c.package name = .ok c) ∧
    ∀ name rest t, Manifest.typeDecl (name, none, rest) = .ok t →
      Manifest.typeDecl (name, some t.name.package, rest) = .ok t :=
  ⟨fun _ _ _ => within_eq_ok_iff, fun _ => within_canonical, fun _ _ => within_of_guess,
    fun _ _ _ => typeDecl_package⟩

end ViewBinding.Proofs.Qualified
