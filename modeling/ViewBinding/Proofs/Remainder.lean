import Mathlib.Tactic.SplitIfs
import ViewBinding.Json.Reader

namespace ViewBinding.Proofs.Remainder

open Json

theorem bind_eq_ok {ε α β : Type} {x : Except ε α} {f : α → Except ε β} {b : β} :
    (x >>= f) = .ok b ↔ ∃ a, x = .ok a ∧ f a = .ok b := by
  cases x with
  | error e => exact ⟨nofun, nofun⟩
  | ok a => exact ⟨fun h => ⟨a, rfl, h⟩, fun ⟨_, ha, h⟩ => Except.ok.inj ha ▸ h⟩

variable {s r : List Char}

theorem skipSpace_suffix (s : List Char) : skipSpace s <:+ s := List.dropWhile_suffix isSpace

theorem readWord_suffix {w : List Char} (h : readWord w s = .ok r) : r <:+ s := by
  induction w generalizing s with
  | nil => exact Except.ok.inj h ▸ List.suffix_refl s
  | cons a w ih =>
      cases s with
      | nil => cases h
      | cons c s =>
          rw [readWord] at h
          split_ifs at h
          exact (ih h).trans (List.suffix_cons c s)

theorem readHex4_suffix {n : Nat} (h : readHex4 s = .ok (n, r)) : r <:+ s := by
  rw [readHex4.eq_def] at h
  split_ifs at h
  split at h
  next a b c d t _ =>
    split at h <;> cases h
    exact List.suffix_append [a, b, c, d] r
  · cases h

theorem readTrailing_suffix {n : Nat} {c : Char} (h : readTrailing n s = .ok (c, r)) : r <:+ s := by
  rw [readTrailing.eq_def] at h
  split at h
  · cases h
  · cases h
  next s =>
    obtain ⟨⟨unit, t⟩, ht, h⟩ := bind_eq_ok.mp h
    dsimp only at h
    split_ifs at h
    obtain ⟨-, rfl⟩ := Prod.mk.inj (Except.ok.inj h)
    exact (readHex4_suffix ht).trans (List.suffix_append ['\\', 'u'] s)
  · cases h

theorem readEscape_suffix {c : Char} (h : readEscape s = .ok (c, r)) : r <:+ s := by
  rw [readEscape.eq_def] at h
  split at h
  case h_10 s =>
    obtain ⟨⟨unit, t⟩, ht, h⟩ := bind_eq_ok.mp h
    simp only at h
    have hs := (readHex4_suffix ht).trans (List.suffix_cons 'u' s)
    split_ifs at h
    · exact (readTrailing_suffix h).trans hs
    · cases h
      exact hs
  all_goals cases h
  all_goals exact List.suffix_cons _ _

theorem readStringBody_suffix {n : Nat} {t : List Char} (h : readStringBody n s = .ok (t, r)) :
    r <:+ s := by
  induction n generalizing s t with
  | zero => cases h
  | succ n ih =>
      cases s with
      | nil => cases h
      | cons c s =>
          rw [readStringBody] at h
          refine List.IsSuffix.trans ?_ (List.suffix_cons c s)
          split_ifs at h
          · cases h
            exact List.suffix_refl r
          · obtain ⟨⟨d, u⟩, hu, h⟩ := bind_eq_ok.mp h
            obtain ⟨⟨t, u'⟩, ht, h⟩ := bind_eq_ok.mp h
            cases h
            exact (ih ht).trans (readEscape_suffix hu)
          · obtain ⟨⟨t, u⟩, ht, h⟩ := bind_eq_ok.mp h
            cases h
            exact ih ht

theorem readString_suffix {w : String} (h : readString s = .ok (w, r)) : r <:+ s := by
  obtain ⟨⟨t, u⟩, ht, h⟩ := bind_eq_ok.mp h
  cases h
  exact readStringBody_suffix ht

theorem readDigits_suffix (s : List Char) : (readDigits s).2 <:+ s := by
  induction s with
  | nil => exact List.suffix_refl []
  | cons c s ih =>
      rw [readDigits]
      split
      · exact ih.trans (List.suffix_cons c s)
      · exact List.suffix_refl _

theorem readDigits1_suffix {ds : List Nat} (h : readDigits1 s = .ok (ds, r)) : r <:+ s := by
  have hs := readDigits_suffix s
  rw [readDigits1.eq_def] at h
  split at h
  · cases h
  · cases h
  next heq =>
    cases h
    rwa [heq] at hs

theorem readExponent_suffix {e : Option Int} (h : readExponent s = .ok (e, r)) : r <:+ s := by
  cases s with
  | nil =>
      cases h
      exact List.suffix_refl []
  | cons c s =>
      rw [readExponent.eq_def] at h
      dsimp only at h
      split at h
      · obtain ⟨⟨ds, t⟩, ht, h⟩ := bind_eq_ok.mp h
        cases h
        refine (readDigits1_suffix ht).trans (List.IsSuffix.trans ?_ (List.suffix_cons c s))
        split
        · exact List.suffix_cons '+' _
        · exact List.suffix_cons '-' _
        · exact List.suffix_refl s
      · cases h
        exact List.suffix_refl _

theorem readFraction_suffix {ds : Option (List Nat)} (h : readFraction s = .ok (ds, r)) : r <:+ s := by
  rw [readFraction.eq_def] at h
  split at h
  next s =>
    obtain ⟨⟨ds, t⟩, ht, h⟩ := bind_eq_ok.mp h
    cases h
    exact (readDigits1_suffix ht).trans (List.suffix_cons '.' s)
  · cases h
    exact List.suffix_refl _

theorem readWhole_suffix {ds : List Nat} (h : readWhole s = .ok (ds, r)) : r <:+ s := by
  obtain ⟨⟨ds, t⟩, ht, h⟩ := bind_eq_ok.mp h
  dsimp only at h
  split_ifs at h
  cases h
  exact readDigits1_suffix ht

theorem readNumber_suffix {v : Number} (h : readNumber s = .ok (v, r)) : r <:+ s := by
  obtain ⟨⟨m, t⟩, ht, h⟩ := bind_eq_ok.mp h
  obtain ⟨v, -, h⟩ := bind_eq_ok.mp h
  cases h
  obtain ⟨⟨whole, t1⟩, h1, ht⟩ := bind_eq_ok.mp ht
  obtain ⟨⟨fraction, t2⟩, h2, ht⟩ := bind_eq_ok.mp ht
  obtain ⟨⟨exponent, t3⟩, h3, ht⟩ := bind_eq_ok.mp ht
  cases ht
  refine ((readExponent_suffix h3).trans (readFraction_suffix h2)).trans
    ((readWhole_suffix h1).trans ?_)
  split
  · exact List.suffix_cons '-' _
  · exact List.suffix_refl s

theorem readComma_none_iff {close : Char} {unfinished missing : Fault} :
    readComma close unfinished missing s = .ok (none, r) ↔ skipSpace s = close :: r := by
  rw [readComma]
  split
  next hs => simp [hs]
  next c t hs =>
    rw [hs]
    split_ifs with hc
    · simp [hc]
    · simp only [List.cons.injEq, hc, false_and, iff_false]
      split
      · exact nofun
      · split_ifs <;> exact nofun
    · simp [hc]

theorem readComma_some_iff {close : Char} {unfinished missing : Fault} {next : List Char}
    (hclose : close ≠ ',') :
    readComma close unfinished missing s = .ok (some next, r) ↔
      ∃ t d u, skipSpace s = ',' :: t ∧ skipSpace t = d :: u ∧ d ≠ close ∧ next = d :: u ∧
        r = d :: u := by
  rw [readComma]
  constructor
  · intro h
    split at h
    · cases h
    next c t hs =>
      split_ifs at h with hc hcomma
      · cases h
      · subst hcomma
        split at h
        · cases h
        next d u ht =>
          split_ifs at h with hd
          cases h
          exact ⟨t, d, u, hs, ht, hd, rfl, rfl⟩
  · rintro ⟨t, d, u, hs, ht, hd, rfl, rfl⟩
    simp [hs, ht, hd, hclose.symm]

theorem readComma_length {close : Char} {unfinished missing : Fault} {next : Option (List Char)}
    (h : readComma close unfinished missing s = .ok (next, r)) : r.length < s.length := by
  have hs := (skipSpace_suffix s).length_le
  rw [readComma] at h
  split at h
  · cases h
  next c t ht =>
    rw [ht, List.length_cons] at hs
    split_ifs at h
    · cases h
      omega
    · have hu := (skipSpace_suffix t).length_le
      split at h
      · cases h
      next d u hd =>
        split_ifs at h
        cases h
        rw [hd] at hu
        omega

theorem readColon_suffix (h : readColon s = .ok r) : r <:+ s := by
  rw [readColon] at h
  split at h
  · cases h
  next c t ht =>
    split_ifs at h
    cases h
    exact (ht ▸ List.suffix_cons c r).trans (skipSpace_suffix s)

end ViewBinding.Proofs.Remainder
