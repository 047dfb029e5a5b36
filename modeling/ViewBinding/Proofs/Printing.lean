import ViewBinding.Json.Value
import ViewBinding.Proofs.Grammar

namespace ViewBinding.Proofs.Printing

open Json Remainder Grammar

theorem hexDigits_read : ∀ n < 0x20,
    utf8Length ['0', '0', hexDigit (n / 16), hexDigit (n % 16)] = 4 ∧
      hexValue? (hexDigit (n / 16)) = some (n / 16) ∧ hexValue? (hexDigit (n % 16)) = some (n % 16) ∧
      isLeading n = false ∧ isTrailing n = false := by
  decide

theorem readEscape_control {c : Char} (hc : c.toNat < 0x20) (s : List Char) :
    readEscape ('u' :: '0' :: '0' :: hexDigit (c.toNat / 16) :: hexDigit (c.toNat % 16) :: s) =
      .ok (c, s) := by
  obtain ⟨hlength, hhigh, hlow, hleading, htrailing⟩ := hexDigits_read c.toNat hc
  have hzero : hexValue? '0' = some 0 := by decide
  have hvalue : c.toNat / 16 * 16 + c.toNat % 16 = c.toNat := by omega
  simp [readEscape, readHex4, hlength, hhigh, hlow, hzero, hvalue, hleading, htrailing, bind,
    Except.bind, Char.ofNat_toNat]

theorem escapeChar_cases (c : Char) :
    (∃ e, escapeChar c = ['\\', e] ∧ 0x20 ≤ e.toNat ∧ ∀ s, readEscape (e :: s) = .ok (c, s)) ∨
      (c.toNat < 0x20 ∧ escapeChar c =
        ['\\', 'u', '0', '0', hexDigit (c.toNat / 16), hexDigit (c.toNat % 16)]) ∨
      c ≠ '"' ∧ c ≠ '\\' ∧ 0x20 ≤ c.toNat ∧ escapeChar c = [c] := by
  by_cases hletter : c ∈ ['"', '\\', '\x08', '\x0c', '\n', '\r', '\t']
  · simp only [List.mem_cons, List.not_mem_nil, or_false] at hletter
    refine .inl ?_
    rcases hletter with rfl | rfl | rfl | rfl | rfl | rfl | rfl
    all_goals exact ⟨_, rfl, by decide, fun s => rfl⟩
  · simp only [List.mem_cons, List.not_mem_nil, or_false, not_or] at hletter
    obtain ⟨hquote, hbackslash, hb, hf, hn, hr, ht⟩ := hletter
    rw [escapeChar, if_neg hquote, if_neg hbackslash, if_neg hb, if_neg hf, if_neg hn, if_neg hr, if_neg ht]
    by_cases hcontrol : c.toNat < 0x20
    · exact .inr (.inl ⟨hcontrol, if_pos hcontrol⟩)
    · exact .inr (.inr ⟨hquote, hbackslash, Nat.le_of_not_lt hcontrol, if_neg hcontrol⟩)

theorem readStringBody_escapeChar (c : Char) {n : Nat} {s t r : List Char}
    (h : readStringBody n s = .ok (t, r)) :
    readStringBody (n + 1) (escapeChar c ++ s) = .ok (c :: t, r) := by
  obtain ⟨e, he, -, hread⟩ | ⟨hcontrol, he⟩ | ⟨hquote, hbackslash, hplain, he⟩ := escapeChar_cases c
  · simp [he, readStringBody, hread, h, bind, Except.bind]
  · simp [he, readStringBody, readEscape_control hcontrol, h, bind, Except.bind]
  · simp [he, readStringBody, hquote, hbackslash, Nat.not_lt.mpr hplain, h, bind, Except.bind]

theorem readStringBody_escaped (w r : List Char) {n : Nat} (hn : w.length < n) :
    readStringBody n (w.flatMap escapeChar ++ '"' :: r) = .ok (w, r) := by
  induction w generalizing n with
  | nil =>
      obtain _ | n := n
      · omega
      · rfl
  | cons c w ih =>
      obtain _ | n := n
      · omega
      · rw [List.flatMap_cons, List.append_assoc]
        exact readStringBody_escapeChar c (ih (by simpa using hn))

theorem length_le_escaped (w : List Char) : w.length ≤ (w.flatMap escapeChar).length := by
  have hchar (c : Char) : 1 ≤ (escapeChar c).length := by
    obtain ⟨e, he, -⟩ | ⟨-, he⟩ | ⟨-, -, -, he⟩ := escapeChar_cases c <;> simp [he]
  induction w with
  | nil => exact Nat.le_refl 0
  | cons c w ih =>
      rw [List.flatMap_cons, List.length_append, List.length_cons, Nat.add_comm]
      exact Nat.add_le_add (hchar c) ih

theorem readString_escaped (w : String) (r : List Char) :
    readString (w.toList.flatMap escapeChar ++ '"' :: r) = .ok (w, r) := by
  have hlength := length_le_escaped w.toList
  rw [readString, readStringBody_escaped w.toList r (by rw [List.length_append, List.length_cons]; omega)]
  exact congrArg (fun t => Except.ok (t, r)) String.ofList_toList

theorem writeString_append (w : String) (r : List Char) :
    writeString w ++ r = '"' :: (w.toList.flatMap escapeChar ++ '"' :: r) := by
  simp [writeString]

def endsNumber : List Char → Bool
  | [] => true
  | c :: _ => !c.isDigit && c ≠ '.' && c ≠ 'e' && c ≠ 'E'

theorem readDigits_append {w r : List Char} (hw : ∀ c ∈ w, c.isDigit = true)
    (hr : endsNumber r = true) :
    readDigits (w ++ r) = (w.map fun c => c.toNat - '0'.toNat, r) := by
  induction w with
  | nil =>
      cases r with
      | nil => rfl
      | cons c r => simp_all [readDigits, digit?, endsNumber]
  | cons c w ih =>
      obtain ⟨hc, hw⟩ := List.forall_mem_cons.mp hw
      simp [readDigits, digit?, hc, ih hw]

def digits (n : Nat) : List Nat := (Decimal.numeral n).map fun c => c.toNat - '0'.toNat

theorem digits_eq (n : Nat) : digits n = if n < 10 then [n] else digits (n / 10) ++ [n % 10] := by
  have hdigit : ∀ d < 10, (Nat.digitChar d).toNat - '0'.toNat = d := by decide
  rw [digits, digits, Decimal.numeral, Nat.toDigits_eq_if (by decide)]
  split
  next hlt => rw [List.map_singleton, hdigit n hlt]
  next hge => rw [List.map_append, List.map_singleton, hdigit _ (Nat.mod_lt n (by decide)), Decimal.numeral]

theorem digits_ne_nil (n : Nat) : digits n ≠ [] := by
  rw [digits_eq]
  split <;> simp

theorem head?_digits {n : Nat} (hn : n ≠ 0) : (digits n).head? ≠ some 0 := by
  induction n using Nat.strongRecOn with
  | ind n ih =>
      rw [digits_eq]
      split
      · simpa using hn
      next hge =>
        rw [List.head?_append_of_ne_nil _ (digits_ne_nil _)]
        exact ih (n / 10) (by omega) (by omega)

theorem wholeValue_digits (n : Nat) : wholeValue (digits n) = n := by
  rw [wholeValue, digits, List.foldl_map]
  exact Nat.ofDigitChars_ten_toDigits

theorem isDigit_of_mem_numeral {n : Nat} {c : Char} (hc : c ∈ Decimal.numeral n) : c.isDigit = true :=
  Nat.isDigit_of_mem_toDigits (by decide) (by decide) hc

variable {r : List Char}

theorem readDigits1_numeral (n : Nat) (hr : endsNumber r = true) :
    readDigits1 (Decimal.numeral n ++ r) = .ok (digits n, r) := by
  have hread : readDigits (Decimal.numeral n ++ r) = (digits n, r) :=
    readDigits_append (fun c => isDigit_of_mem_numeral) hr
  obtain ⟨c, w, hw⟩ := List.exists_cons_of_ne_nil (Nat.toDigits_ne_nil (n := n) (b := 10))
  obtain ⟨d, ds, hds⟩ := List.exists_cons_of_ne_nil (digits_ne_nil n)
  rw [Decimal.numeral, hw, List.cons_append] at hread ⊢
  rw [readDigits1.eq_def, hread, hds]

theorem readWhole_numeral (n : Nat) (hr : endsNumber r = true) :
    readWhole (Decimal.numeral n ++ r) = .ok (digits n, r) := by
  have hzero : (digits n).head? = some 0 → (digits n).length = 1 := by
    intro h
    obtain rfl : n = 0 := by_contra fun hn => head?_digits hn h
    decide
  rw [readWhole, readDigits1_numeral n hr]
  simpa [bind, Except.bind] using hzero

theorem read_of_endsNumber (hr : endsNumber r = true) :
    readFraction r = .ok (none, r) ∧ readExponent r = .ok (none, r) := by
  cases r with
  | nil => exact ⟨rfl, rfl⟩
  | cons c r =>
      simp only [endsNumber, Bool.and_eq_true, decide_eq_true_eq] at hr
      obtain ⟨⟨⟨-, hpoint⟩, he⟩, hE⟩ := hr
      constructor
      · rw [readFraction]
        rintro s ⟨⟩
        exact hpoint rfl
      · rw [readExponent.eq_def]
        simp [he, hE]

theorem readNumeral_writeInt (n : Int) (hr : endsNumber r = true) :
    readNumeral (writeInt n ++ r) = .ok (⟨decide (n < 0), digits n.natAbs, [], none, false⟩, r) := by
  obtain ⟨hfraction, hexponent⟩ := read_of_endsNumber hr
  have hwhole := readWhole_numeral n.natAbs hr
  rw [writeInt]
  split
  next hn => simp [readNumeral, hwhole, hfraction, hexponent, hn, bind, Except.bind]
  next hn =>
    obtain ⟨c, w, hw⟩ := List.exists_cons_of_ne_nil (Nat.toDigits_ne_nil (n := n.natAbs) (b := 10))
    have hc : c ≠ '-' := by
      rintro rfl
      exact absurd (isDigit_of_mem_numeral (n := n.natAbs) (hw ▸ List.mem_cons_self)) (by decide)
    rw [Decimal.numeral, hw, List.cons_append] at hwhole ⊢
    simp [readNumeral, hwhole, hfraction, hexponent, hn, hc, bind, Except.bind]

theorem readNumber_writeInt {n : Int} (hlow : -0x8000000000000000 ≤ n)
    (hhigh : n < 0x10000000000000000) (hr : endsNumber r = true) :
    readNumber (writeInt n ++ r) = .ok (.integer n, r) := by
  have hvalue : Numeral.value ⟨decide (n < 0), digits n.natAbs, [], none, false⟩ = .ok (.integer n) := by
    rw [Numeral.value, wholeValue_digits]
    by_cases hn : n < 0
    · have hrange : 0 < n.natAbs ∧ n.natAbs ≤ Nat.pow 2 63 := by rw [Nat.pow_eq]; omega
      have habs : -(n.natAbs : Int) = n := by omega
      simp only [hn, hrange, habs, decide_true, and_self, if_true, Bool.false_eq_true, if_false]
    · have hrange : n.natAbs < Nat.pow 2 64 := by rw [Nat.pow_eq]; omega
      have habs : (n.natAbs : Int) = n := by omega
      simp only [hn, hrange, habs, decide_false, if_true, Bool.false_eq_true, if_false]
  rw [readNumber, readNumeral_writeInt n hr]
  simp [bind, Except.bind, hvalue]

mutual

/-- A value whose text stands for it exactly: real numbers, which are rounded, and whole numbers of
more than 64 bits, which are read as real, are kept out. -/
def Plain : Json → Prop
  | .null | .boolean _ | .string _ => True
  | .integer n => -0x8000000000000000 ≤ n ∧ n < 0x10000000000000000
  | .real _ => False
  | .array vs => PlainElements vs
  | .object ms => PlainMembers ms

def PlainElements : List Json → Prop
  | [] => True
  | v :: vs => Plain v ∧ PlainElements vs

def PlainMembers : List (String × Json) → Prop
  | [] => True
  | (_, v) :: ms => Plain v ∧ PlainMembers ms

end

theorem plainElements_iff {vs : List Json} : PlainElements vs ↔ ∀ v ∈ vs, Plain v := by
  induction vs with
  | nil => simp [PlainElements]
  | cons v vs ih => rw [PlainElements, ih, List.forall_mem_cons]

/-- A text that begins a value or a member: neither with white space nor with an end. -/
def Begins (s : List Char) : Prop :=
  ∃ c t, s = c :: t ∧ isSpace c = false ∧ c ≠ ']' ∧ c ≠ '\x7d'

theorem Begins.append {s : List Char} (h : Begins s) (r : List Char) : Begins (s ++ r) := by
  obtain ⟨c, t, rfl, hc⟩ := h
  exact ⟨c, t ++ r, rfl, hc⟩

theorem Begins.skipSpace {s : List Char} (h : Begins s) : skipSpace s = s := by
  obtain ⟨c, t, rfl, hc, -⟩ := h
  rw [Json.skipSpace, List.dropWhile_cons, hc]
  rfl

theorem writeInt_cons (n : Int) : ∃ c t, writeInt n = c :: t ∧ startsNumber c = true := by
  rw [writeInt]
  split
  · exact ⟨_, _, rfl, by decide⟩
  · obtain ⟨c, w, hw⟩ := List.exists_cons_of_ne_nil (Nat.toDigits_ne_nil (n := n.natAbs) (b := 10))
    have hc := isDigit_of_mem_numeral (n := n.natAbs) (hw ▸ List.mem_cons_self)
    exact ⟨c, w, hw, by simp [startsNumber, hc]⟩

theorem begins_of_startsNumber {c : Char} (hc : startsNumber c = true) (t : List Char) :
    Begins (c :: t) := by
  refine ⟨c, t, rfl, ?_, ?_, ?_⟩
  · by_contra hspace
    simp only [isSpace, Bool.not_eq_false, Bool.or_eq_true, decide_eq_true_eq] at hspace
    rcases hspace with ((rfl | rfl) | rfl) | rfl <;> revert hc <;> decide
  all_goals
    rintro rfl
    revert hc
    decide

theorem begins_write {v : Json} (h : Plain v) : Begins v.write := by
  have hbegins {c : Char} {t : List Char} (hc : (!isSpace c && c ≠ ']' && c ≠ '\x7d') = true) :
      Begins (c :: t) := ⟨c, t, rfl, by simpa [and_assoc] using hc⟩
  cases v with
  | null => exact hbegins rfl
  | boolean b => cases b <;> exact hbegins rfl
  | integer n =>
      obtain ⟨c, t, ht, hc⟩ := writeInt_cons n
      rw [write, ht]
      exact begins_of_startsNumber hc t
  | real x => exact h.elim
  | string w => exact hbegins rfl
  | array vs => exact hbegins rfl
  | object ms => exact hbegins rfl

theorem begins_writeElements {v : Json} (vs : List Json) (h : Plain v) :
    Begins (writeElements (v :: vs)) := by
  cases vs with
  | nil => exact begins_write h
  | cons w vs => exact (begins_write h).append _

theorem begins_writeMembers (m : String × Json) (ms : List (String × Json)) :
    Begins (writeMembers (m :: ms)) := by
  cases ms <;> exact ⟨_, _, rfl, by decide⟩

theorem readComma_begins {s t : List Char} (h : Begins t) (hs : Json.skipSpace s = t) {close : Char}
    (hclose : close = ']' ∨ close = '\x7d') {unfinished missing : Fault} :
    readComma close unfinished missing (',' :: s) = .ok (some t, t) := by
  obtain ⟨c, u, rfl, -, hlist, hobject⟩ := h
  refine (readComma_some_iff ?_).mpr ⟨s, c, u, rfl, hs, ?_, rfl, rfl⟩
  · rcases hclose with rfl | rfl <;> decide
  · rcases hclose with rfl | rfl
    exacts [hlist, hobject]

theorem listBody_begins {s t r : List Char} {vs : List Json} (h : Begins t)
    (hs : Json.skipSpace s = t) (hvs : Elements t vs r) : ListBody s vs r := by
  obtain ⟨c, u, rfl, -, hclose, -⟩ := h
  exact .inr ⟨c, u, hs, hclose, hvs⟩

theorem objectBody_begins {s t r : List Char} {ms : List (String × Json)} (h : Begins t)
    (hs : Json.skipSpace s = t) (hms : Entries t ms r) : ObjectBody s ms r := by
  obtain ⟨c, u, rfl, -, -, hclose⟩ := h
  exact .inr ⟨c, u, hs, hclose, hms⟩

mutual

theorem value_write (v : Json) (h : Plain v) {r : List Char} (hr : endsNumber r = true) :
    Value (v.write ++ r) v r := by
  match v, h with
  | .null, _ => exact value_iff.mpr (.null rfl)
  | .boolean true, _ => exact value_iff.mpr (.yes rfl)
  | .boolean false, _ => exact value_iff.mpr (.no rfl)
  | .integer n, hn =>
      have hread := readNumber_writeInt hn.1 hn.2 hr
      obtain ⟨c, t, ht, hc⟩ := writeInt_cons n
      rw [ht] at hread
      rw [write, ht]
      exact value_integer_iff.mpr ⟨c, t ++ r, (begins_of_startsNumber hc _).skipSpace, hc, hread⟩
  | .string w, _ =>
      rw [write, writeString_append]
      exact value_string_iff.mpr ⟨_, rfl, readString_escaped w r⟩
  | .array [], _ => exact value_iff.mpr (.emptyList rfl)
  | .array (v :: vs), h =>
      have hbegins := (begins_writeElements vs h.1).append (']' :: r)
      have helements := elements_write (v :: vs) h (List.cons_ne_nil v vs) r
      rw [write, List.cons_append, List.cons_append, List.append_assoc, List.singleton_append]
      exact value_array_iff.mpr ⟨_, rfl, listBody_begins hbegins hbegins.skipSpace helements⟩
  | .object [], _ => exact value_iff.mpr (.emptyObject rfl)
  | .object (m :: ms), h =>
      have hbegins := (begins_writeMembers m ms).append ('\x7d' :: r)
      have hentries := entries_write (m :: ms) h (List.cons_ne_nil m ms) r
      rw [write, List.cons_append, List.cons_append, List.append_assoc, List.singleton_append]
      exact value_object_iff.mpr ⟨_, rfl, objectBody_begins hbegins hbegins.skipSpace hentries⟩

theorem elements_write (vs : List Json) (h : PlainElements vs) (hne : vs ≠ []) (r : List Char) :
    Elements (writeElements vs ++ ']' :: r) vs r := by
  rw [elements_iff]
  match vs, h with
  | [], _ => exact absurd rfl hne
  | [v], ⟨hv, _⟩ => exact .last (value_write v hv rfl) (readComma_none_iff.mpr rfl)
  | v :: w :: vs, ⟨hv, hvs⟩ =>
      have helements := elements_write (w :: vs) hvs (List.cons_ne_nil w vs) r
      have hbegins := (begins_writeElements vs hvs.1).append (']' :: r)
      rw [writeElements, List.append_assoc, List.cons_append]
      exact .more (value_write v hv rfl) (readComma_begins hbegins hbegins.skipSpace (.inl rfl)) helements

theorem entries_write (ms : List (String × Json)) (h : PlainMembers ms) (hne : ms ≠ [])
    (r : List Char) : Entries (writeMembers ms ++ '\x7d' :: r) ms r := by
  rw [entries_iff]
  match ms, h with
  | [], _ => exact absurd rfl hne
  | [(key, v)], ⟨hv, _⟩ =>
      rw [writeMembers, List.append_assoc, writeString_append]
      exact .last (readString_escaped key _) rfl (value_write v hv rfl) (readComma_none_iff.mpr rfl)
  | (key, v) :: m :: ms, ⟨hv, hms⟩ =>
      have hentries := entries_write (m :: ms) hms (List.cons_ne_nil m ms) r
      have hbegins := (begins_writeMembers m ms).append ('\x7d' :: r)
      rw [writeMembers, List.append_assoc, writeString_append]
      simp only [List.cons_append, List.append_assoc]
      exact .more (readString_escaped key _) rfl (value_write v hv rfl)
        (readComma_begins hbegins hbegins.skipSpace (.inr rfl)) hentries

end

theorem parse_text {v : Json} (h : Plain v) : Json.parse v.text = .ok v := by
  refine parse_eq_ok_iff.mpr ⟨[], ?_, rfl⟩
  simpa [Json.text] using value_write v h (r := []) rfl

def Inline (s : List Char) : Prop := ∀ c ∈ s, 0x20 ≤ c.toNat

theorem inline_cons {c : Char} {s : List Char} : Inline (c :: s) ↔ 0x20 ≤ c.toNat ∧ Inline s :=
  List.forall_mem_cons

theorem inline_append {s t : List Char} : Inline (s ++ t) ↔ Inline s ∧ Inline t := by
  simp only [Inline, List.mem_append, or_imp, forall_and]

theorem inline_escapeChar (c : Char) : Inline (escapeChar c) := by
  have hdigit : ∀ n < 16, 0x20 ≤ (hexDigit n).toNat := by decide
  obtain ⟨e, he, hletter, -⟩ | ⟨hcontrol, he⟩ | ⟨-, -, hplain, he⟩ := escapeChar_cases c
  · simp [he, Inline, hletter]
  · have hhigh := hdigit (c.toNat / 16) (by omega)
    have hlow := hdigit (c.toNat % 16) (by omega)
    simp [he, Inline, hhigh, hlow]
  · simpa [he, Inline] using hplain

theorem inline_writeString (w : String) : Inline (writeString w) := by
  have hescaped : Inline (w.toList.flatMap escapeChar) := by
    intro d hd
    obtain ⟨c, -, hd⟩ := List.mem_flatMap.mp hd
    exact inline_escapeChar c d hd
  rw [writeString, inline_append, inline_cons]
  exact ⟨⟨by decide, hescaped⟩, by simp [Inline]⟩

theorem inline_writeInt (n : Int) : Inline (writeInt n) := by
  have hnumeral : Inline (Decimal.numeral n.natAbs) := by
    intro c hc
    have hdigit := isDigit_of_mem_numeral hc
    simp only [Char.isDigit, Bool.and_eq_true, decide_eq_true_eq] at hdigit
    exact Nat.le_trans (by decide) (UInt32.le_iff_toNat_le.mp hdigit.1)
  rw [writeInt]
  split
  · exact inline_cons.mpr ⟨by decide, hnumeral⟩
  · exact hnumeral

mutual

theorem inline_write (v : Json) (h : Plain v) : Inline v.write := by
  match v, h with
  | .null, _ => simp [write, Inline]
  | .boolean true, _ => simp [write, Inline]
  | .boolean false, _ => simp [write, Inline]
  | .integer n, _ => exact inline_writeInt n
  | .string w, _ => exact inline_writeString w
  | .array vs, h =>
      rw [write, inline_append, inline_cons]
      exact ⟨⟨by decide, inline_writeElements vs h⟩, by simp [Inline]⟩
  | .object ms, h =>
      rw [write, inline_append, inline_cons]
      exact ⟨⟨by decide, inline_writeMembers ms h⟩, by simp [Inline]⟩

theorem inline_writeElements (vs : List Json) (h : PlainElements vs) : Inline (writeElements vs) := by
  match vs, h with
  | [], _ => exact nofun
  | [v], ⟨hv, _⟩ => exact inline_write v hv
  | v :: w :: vs, ⟨hv, hvs⟩ =>
      rw [writeElements, inline_append, inline_cons]
      exact ⟨inline_write v hv, by decide, inline_writeElements (w :: vs) hvs⟩

theorem inline_writeMembers (ms : List (String × Json)) (h : PlainMembers ms) :
    Inline (writeMembers ms) := by
  match ms, h with
  | [], _ => exact nofun
  | [(key, v)], ⟨hv, _⟩ =>
      rw [writeMembers, inline_append, inline_cons]
      exact ⟨inline_writeString key, by decide, inline_write v hv⟩
  | (key, v) :: m :: ms, ⟨hv, hms⟩ =>
      rw [writeMembers, inline_append, inline_append, inline_cons, inline_cons]
      exact ⟨⟨inline_writeString key, by decide, inline_write v hv⟩, by decide,
        inline_writeMembers (m :: ms) hms⟩

end

end ViewBinding.Proofs.Printing
