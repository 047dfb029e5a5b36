import Mathlib.Data.List.DropRight
import ViewBinding.ClassName

namespace ViewBinding.Proofs.Reading

open Text ClassName

/-- No white space continues an identifier. In ASCII they can be gone through; above, the tables have
no ranges that meet. -/
theorem not_continues_of_isBlank {c : Char} (h : isBlank c = true) : continuesIdentifier c = false := by
  have hascii : ∀ n < 0x80, isBlank (Char.ofNat n) = true → continuesIdentifier (Char.ofNat n) = false := by
    decide +kernel
  have halphabetic : Table.apart blankRanges alphabeticRanges = true := by decide +kernel
  have hnumeric : Table.apart blankRanges numericRanges = true := by decide +kernel
  by_cases hc : c.toNat < 0x80
  · rw [← Char.ofNat_toNat c] at h ⊢
    exact hascii c.toNat hc h
  · have hmark : c ≠ '_' ∧ c ≠ '$' := by
      constructor <;> rintro rfl <;> exact hc (by decide)
    simp [continuesIdentifier, startsIdentifier, isAlphabetic, isNumeric, hc, hmark,
      Table.covers_eq_false_of_apart halphabetic h, Table.covers_eq_false_of_apart hnumeric h]

theorem notMem_of_isIdentifier {c : Char} (hc : continuesIdentifier c = false) {n : List Char}
    (h : isIdentifier n = true) : c ∉ n := by
  intro hm
  rw [continues_of_isIdentifier h c hm] at hc
  cases hc

theorem exists_blank_around (s : List Char) :
    ∃ before after, (∀ c ∈ before, isBlank c = true) ∧ (∀ c ∈ after, isBlank c = true) ∧
      s = before ++ trim s ++ after := by
  have hstart := List.takeWhile_append_dropWhile (p := isBlank) (l := s)
  have hend := List.takeWhile_append_dropWhile (p := isBlank) (l := (trimStart s).reverse)
  refine ⟨s.takeWhile isBlank, ((trimStart s).reverse.takeWhile isBlank).reverse, ?_, ?_, ?_⟩
  · exact fun c hc => List.all_eq_true.mp List.all_takeWhile c hc
  · exact fun c hc => List.all_eq_true.mp List.all_takeWhile c (List.mem_reverse.mp hc)
  · rw [trim, trimEnd, List.append_assoc, ← List.reverse_append, hend, List.reverse_reverse]
    exact hstart.symm

theorem trimStart_trim (s : List Char) : trimStart (trim s) = trim s := by
  have hstarts : trim s <+: trimStart s := List.rdropWhile_prefix isBlank _
  refine List.dropWhile_eq_self_iff.mpr fun hl => ?_
  rw [hstarts.getElem hl]
  exact List.dropWhile_get_zero_not isBlank s (Nat.lt_of_lt_of_le hl hstarts.length_le)

theorem trim_trim (s : List Char) : trim (trim s) = trim s := by
  rw [trim, trimStart_trim, trim, trimEnd]
  exact List.rdropWhile_idempotent isBlank _

theorem trimmed_trimmed (text : String) : trimmed (trimmed text) = trimmed text := by
  rw [trimmed, toList_trimmed, trim_trim, trimmed]

theorem join_split (s : String) : join "." (split '.' s) = s := by
  simp [join, split, Function.comp_def, glue_cut]

theorem split_join {parts : List String} (hne : parts ≠ [])
    (h : ∀ p ∈ parts, isIdentifier p.toList = true) : split '.' (join "." parts) = parts :=
  split_join_of_notMem rfl hne fun p hp => notMem_of_isIdentifier (by decide +kernel) (h p hp)

theorem split_ne_nil (sep : Char) (s : String) : split sep s ≠ [] :=
  fun h => cut_ne_nil sep s.toList (List.map_eq_nil_iff.mp h)

theorem join_ne_empty {parts : List String} (hne : parts ≠ [])
    (h : ∀ p ∈ parts, isIdentifier p.toList = true) : join "." parts ≠ "" := by
  intro hj
  have hparts := split_join hne h
  rw [hj] at hparts
  subst hparts
  have hempty : isIdentifier "".toList = true := h "" (by decide)
  cases hempty

theorem continues_or_dot {parts : List String} (h : ∀ p ∈ parts, isIdentifier p.toList = true) :
    ∀ a ∈ (join "." parts).toList, a = '.' ∨ continuesIdentifier a = true := by
  intro a ha
  rcases mem_join ha with hdot | ⟨p, hp, ha⟩
  · exact .inl (List.mem_singleton.mp hdot)
  · exact .inr (continues_of_isIdentifier (h p hp) a ha)

theorem isBlank_join {parts : List String} (h : ∀ p ∈ parts, isIdentifier p.toList = true) :
    ∀ a ∈ (join "." parts).toList, isBlank a = false := by
  intro a ha
  rw [Bool.eq_false_iff]
  intro hblank
  rcases continues_or_dot h a ha with rfl | ha
  · revert hblank
    decide
  · rw [not_continues_of_isBlank hblank] at ha
    cases ha

theorem trimmed_join {parts : List String} (h : ∀ p ∈ parts, isIdentifier p.toList = true) :
    trimmed (join "." parts) = join "." parts := by
  rw [trimmed, trim_eq_self (isBlank_join h), String.ofList_toList]

def segments (package : String) : List String := if package.isEmpty then [] else split '.' package

theorem join_segments (package : String) : join "." (segments package) = package := by
  rw [segments]
  split
  · next h => rw [String.isEmpty_iff.mp h, join_nil]
  · exact join_split package

theorem segments_join {parts : List String} (h : ∀ p ∈ parts, isIdentifier p.toList = true) :
    segments (join "." parts) = parts := by
  cases parts with
  | nil => rfl
  | cons p ps =>
      have hne := List.cons_ne_nil p ps
      rw [segments, if_neg (fun he => join_ne_empty hne h (String.isEmpty_iff.mp he)), split_join hne h]

theorem trimmed_package {package : String}
    (h : ∀ s ∈ segments package, isIdentifier s.toList = true) : trimmed package = package := by
  have htrimmed := trimmed_join h
  rwa [join_segments] at htrimmed

theorem canonical_eq_join (c : ClassName) :
    c.canonical = join "." (segments c.package ++ c.names) := by
  rw [canonical, qualify, segments]
  split
  · rfl
  · rw [join_append _ (split_ne_nil '.' c.package) c.names_ne_nil, join_split, dotted]

theorem canonical_of_split {text : String} {c : ClassName}
    (h : split '.' text = segments c.package ++ c.names) : c.canonical = text := by
  rw [canonical_eq_join, ← h, join_split]

theorem isEmpty_canonical {c : ClassName}
    (h : ∀ s ∈ segments c.package ++ c.names, isIdentifier s.toList = true) :
    c.canonical.isEmpty = false := by
  rw [Bool.eq_false_iff, canonical_eq_join]
  exact fun he => join_ne_empty (List.append_ne_nil_of_right_ne_nil _ c.names_ne_nil) h
    (String.isEmpty_iff.mp he)

theorem within_canonical {c : ClassName}
    (h : ∀ s ∈ segments c.package ++ c.names, isIdentifier s.toList = true) :
    within c.package c.canonical = .ok c := by
  have hpackage := trimmed_package fun s hs => h s (List.mem_append_left _ hs)
  have hname : trimmed c.canonical = c.canonical := by
    rw [canonical_eq_join, trimmed_join h]
  have hafter : afterPackage? c.package c.canonical = some c.dotted := by
    rw [afterPackage?, canonical, qualify]
    split
    · rfl
    · have hdrop : dropStart? (c.package ++ ".").toList (c.package ++ "." ++ c.dotted).toList =
          some c.dotted.toList := dropStart?_eq_some_iff.mpr String.toList_append
      rw [hdrop, Option.map_some, String.ofList_toList]
  have hsplit : split '.' c.dotted = c.names :=
    split_join c.names_ne_nil fun s hs => h s (List.mem_append_right _ hs)
  have hfind : (segments c.package ++ c.names).find? (fun s => !isIdentifier s.toList) = none :=
    List.find?_eq_none.mpr fun s hs => by simp [h s hs]
  rw [segments] at hfind
  simp only [within, hpackage, hname, isEmpty_canonical h, hafter, hsplit, hfind, Bool.false_eq_true, if_false]
  rfl

/-- A class named by identifiers, those of packages in lower case and that of the outermost class in
upper case at the start. -/
structure Conventional (c : ClassName) : Prop where
  identifiers : ∀ s ∈ segments c.package ++ c.names, isIdentifier s.toList = true
  lower : ∀ s ∈ segments c.package, startsUpper s = false
  upper : startsUpper c.outermost = true

/-- A class that some text is read as. -/
def Readable (c : ClassName) : Prop := ∃ text, guess text = .ok c

theorem guess_trimmed (text : String) : guess (trimmed text) = guess text := by
  rw [guess, guess, trimmed_trimmed]

theorem guess_eq_ok {text : String} {c : ClassName} (h : guess text = .ok c) :
    split '.' (trimmed text) = segments c.package ++ c.names ∧ Conventional c := by
  rw [guess] at h
  generalize split '.' (trimmed text) = parts at h ⊢
  split at h
  · cases h
  split at h
  · cases h
  split at h
  · cases h
  next hfind =>
    split at h
    · cases h
    next outermost inner hdrop =>
      have hparts := List.takeWhile_append_dropWhile (p := fun s => !startsUpper s) (l := parts)
      have hhead := List.head?_dropWhile_not (fun s => !startsUpper s) parts
      have hidentifiers : ∀ s ∈ parts, isIdentifier s.toList = true := by simpa using hfind
      have hpackages : ∀ s ∈ parts.takeWhile fun s => !startsUpper s, s ∈ parts :=
        fun s hs => List.takeWhile_subset _ hs
      have hsegments := segments_join fun s hs => hidentifiers s (hpackages s hs)
      obtain rfl := Except.ok.inj h
      rw [hdrop] at hparts hhead
      refine ⟨by rw [hsegments, names, hparts], ?_, ?_, by simpa using hhead⟩
      · rw [hsegments, names, hparts]
        exact hidentifiers
      · rw [hsegments]
        intro s hs
        simpa using List.all_eq_true.mp List.all_takeWhile s hs

theorem canonical_of_guess {text : String} {c : ClassName} (h : guess text = .ok c) :
    c.canonical = trimmed text := canonical_of_split (guess_eq_ok h).1

theorem conventional_of_readable {c : ClassName} (h : Readable c) : Conventional c :=
  let ⟨_, hguess⟩ := h
  (guess_eq_ok hguess).2

namespace Conventional

variable {c d : ClassName}

theorem split_canonical (h : Conventional c) :
    split '.' c.canonical = segments c.package ++ c.names := by
  rw [canonical_eq_join, split_join _ h.identifiers]
  exact List.append_ne_nil_of_right_ne_nil _ c.names_ne_nil

theorem notMem_canonical (h : Conventional c) {a : Char} (ha : continuesIdentifier a = false)
    (hdot : a ≠ '.') : a ∉ c.canonical.toList := by
  intro hm
  rw [canonical_eq_join] at hm
  rcases continues_or_dot h.identifiers a hm with h | h
  · exact hdot h
  · rw [h] at ha
    cases ha

theorem trimmed_canonical (h : Conventional c) : trimmed c.canonical = c.canonical := by
  rw [canonical_eq_join, trimmed_join h.identifiers]

theorem dropWhile_lower (h : Conventional c) :
    (segments c.package ++ c.names).dropWhile (fun s => !startsUpper s) = c.names := by
  have hlower : ∀ s ∈ segments c.package, (!startsUpper s) = true := by
    simpa using h.lower
  rw [List.dropWhile_append_of_pos hlower, names, List.dropWhile_cons_of_neg (by simp [h.upper])]

theorem guess_canonical (h : Conventional c) : guess c.canonical = .ok c := by
  have hangle : c.canonical.toList.contains '<' = false := by
    simpa using h.notMem_canonical (a := '<') (by decide +kernel) (by decide)
  have hfind : (segments c.package ++ c.names).find? (fun s => !isIdentifier s.toList) = none :=
    List.find?_eq_none.mpr fun s hs => by simp [h.identifiers s hs]
  have hlower : ∀ s ∈ segments c.package, (!startsUpper s) = true := by
    simpa using h.lower
  have hdrop := h.dropWhile_lower
  have htake : (segments c.package ++ c.names).takeWhile (fun s => !startsUpper s) =
      segments c.package := by
    rw [List.takeWhile_append_of_pos hlower, names, List.takeWhile_cons_of_neg (by simp [h.upper]),
      List.append_nil]
  simp only [guess, h.trimmed_canonical, isEmpty_canonical h.identifiers, hangle, h.split_canonical, hfind, hdrop, htake,
    join_segments, Bool.false_eq_true, if_false]
  rfl

theorem guess_of_split {text : String} (h : Conventional c)
    (hsplit : split '.' (trimmed text) = segments c.package ++ c.names) : guess text = .ok c := by
  have hread := h.guess_canonical
  rwa [canonical_of_split hsplit, guess_trimmed] at hread

theorem canonical_inj (hc : Conventional c) (hd : Conventional d)
    (h : c.canonical = d.canonical) : c = d := by
  have hread := hc.guess_canonical
  rw [h, hd.guess_canonical] at hread
  exact (Except.ok.inj hread).symm

theorem unpackaged (h : Conventional c) : Conventional { c with package := "" } where
  identifiers s hs := h.identifiers s (List.mem_append_right _ hs)
  lower := nofun
  upper := h.upper

end Conventional

end ViewBinding.Proofs.Reading
