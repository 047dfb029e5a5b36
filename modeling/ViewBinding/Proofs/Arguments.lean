import Mathlib.Data.Nat.Digits.Defs
import ViewBinding.CommandLine.Settings

namespace ViewBinding.Proofs.Arguments

open Text Settings

/-- A decimal numeral: digits, perhaps after a plus sign. -/
def Numeral (text : String) (n : Nat) : Prop :=
  ∃ digits : List Char, (text.toList = digits ∨ text.toList = '+' :: digits) ∧ digits ≠ [] ∧
    (∀ c ∈ digits, c.isDigit = true) ∧
    n = Nat.ofDigits 10 (digits.reverse.map fun c => c.toNat - '0'.toNat)

def unsigned : List Char → List Char
  | '+' :: s => s
  | s => s

theorem unsigned_eq_iff {s digits : List Char} (hdigits : ∀ c ∈ digits, c.isDigit = true) :
    unsigned s = digits ↔ s = digits ∨ s = '+' :: digits := by
  constructor
  · rintro rfl
    unfold unsigned
    split
    · exact .inr rfl
    · exact .inl rfl
  · rintro (rfl | rfl)
    · unfold unsigned
      split
      · cases hdigits '+' List.mem_cons_self
      · rfl
    · rfl

theorem foldl_digits (s : List Char) :
    s.foldl (fun n c => 10 * n + (c.toNat - '0'.toNat)) 0 =
      Nat.ofDigits 10 (s.reverse.map fun c => c.toNat - '0'.toNat) := by
  rw [Nat.ofDigits_eq_foldr, List.foldr_map, List.foldr_reverse]
  simp only [Nat.cast_id, Nat.add_comm]

theorem readNat?_eq_some_iff {bound n : Nat} {text : String} :
    Decimal.readNat? bound text.toList = some n ↔ Numeral text n ∧ n ≤ bound := by
  have hread : Decimal.readNat? bound text.toList =
      if (unsigned text.toList).isEmpty || !(unsigned text.toList).all Char.isDigit then none
      else if (unsigned text.toList).foldl (fun n c => 10 * n + (c.toNat - '0'.toNat)) 0 ≤ bound then
        some ((unsigned text.toList).foldl (fun n c => 10 * n + (c.toNat - '0'.toNat)) 0)
      else none := rfl
  rw [hread, foldl_digits]
  constructor
  · intro h
    split at h
    · cases h
    next hdigits =>
    split at h
    · next hbound =>
        obtain rfl := Option.some.inj h
        rw [Bool.or_eq_true, not_or, List.isEmpty_iff, Bool.not_eq_true', Bool.not_eq_false,
          List.all_eq_true] at hdigits
        exact ⟨⟨_, (unsigned_eq_iff hdigits.2).mp rfl, hdigits.1, hdigits.2, rfl⟩, hbound⟩
    · cases h
  · rintro ⟨⟨digits, htext, hne, hdigits, rfl⟩, hbound⟩
    have hall : digits.all Char.isDigit = true := List.all_eq_true.mpr hdigits
    rw [(unsigned_eq_iff hdigits).mpr htext, if_neg (by simp [hne, hall]), if_pos hbound]

def starts : List String :=
  ["--out-dir=", "--suffix=", "--registry=", "--format=", "--color=", "--error-limit="]

theorem map_fst_valued : valued.map Prod.fst = starts := rfl

theorem starts_apart : starts.Pairwise fun p q =>
    ¬ p.toList <+: q.toList ∧ ¬ q.toList <+: p.toList := by
  decide

theorem dropStart?_eq_none_of_apart {p q : List Char} (h : ¬ p <+: q ∧ ¬ q <+: p) (s : List Char) :
    dropStart? p (q ++ s) = none := by
  rw [Option.eq_none_iff_forall_ne_some]
  intro r hr
  have hp : p <+: q ++ s := ⟨r, (dropStart?_eq_some_iff.mp hr).symm⟩
  exact (List.prefix_or_prefix_of_prefix hp (List.prefix_append q s)).elim h.1 h.2

def attempt (x : String) (p : String × (String → Except Warning Change)) :
    Option (Except Warning Change) :=
  (dropStart? p.1.toList x.toList).map fun v => p.2 (String.ofList v)

theorem readArgument_eq (x : String) : readArgument x = (valued.findSome? (attempt x)).getD
    (if x = "--no-registry" then .ok (.registry none) else .error (.unknownOption x)) := by
  rw [readArgument]
  dsimp only
  split
  · next result hknown =>
      have hattempt : valued.findSome? (attempt x) = some result := hknown
      rw [hattempt, Option.getD_some]
  · next hknown =>
      have hattempt : valued.findSome? (attempt x) = none := hknown
      rw [hattempt, Option.getD_none]

theorem readArgument_valued {start : String} {read : String → Except Warning Change}
    (h : (start, read) ∈ valued) (v : String) : readArgument (start ++ v) = read v := by
  obtain ⟨before, after, hvalued⟩ := List.append_of_mem h
  have hapart := starts_apart
  rw [← map_fst_valued, List.pairwise_map, hvalued, List.pairwise_append] at hapart
  have hbefore : before.findSome? (attempt (start ++ v)) = none := by
    rw [List.findSome?_eq_none_iff]
    intro p hp
    have hstarts := hapart.2.2 p hp _ List.mem_cons_self
    rw [attempt, String.toList_append, dropStart?_eq_none_of_apart hstarts, Option.map_none]
  have hown : attempt (start ++ v) (start, read) = some (read v) := by
    rw [attempt, dropStart?_eq_some_iff.mpr String.toList_append, Option.map_some, String.ofList_toList]
  rw [readArgument_eq, hvalued, List.findSome?_append, hbefore, List.findSome?_cons, hown]
  rfl

theorem readArgument_of_notValued {x : String} (h : ∀ start ∈ starts, ¬ start.toList <+: x.toList) :
    readArgument x =
      if x = "--no-registry" then .ok (.registry none) else .error (.unknownOption x) := by
  have hnone : valued.findSome? (attempt x) = none := by
    rw [List.findSome?_eq_none_iff]
    intro p hp
    rw [attempt, Option.map_eq_none_iff, Option.eq_none_iff_forall_ne_some]
    exact fun r hr => h p.1 (List.mem_map_of_mem hp) ⟨r, (dropStart?_eq_some_iff.mp hr).symm⟩
  rw [readArgument_eq, hnone, Option.getD_none]

def formats : List (String × OutputFormat) := [("human", .human), ("text", .human), ("json", .json)]

def colors : List (String × Terminal.ColorMode) :=
  [("auto", .auto), ("always", .always), ("never", .never)]

/-- The arguments that make up an option, with the change it asks for. -/
inductive Asks : List String → Change → Prop
  | short (dir : String) : Asks ["-o", dir] (.outDir ⟨dir⟩)
  | outDir (dir : String) : Asks ["--out-dir=" ++ dir] (.outDir ⟨dir⟩)
  | suffix {s : String} (h : s ≠ "") : Asks ["--suffix=" ++ s] (.suffix s)
  | registry {name : String} {c : ClassName} (h : ClassName.guess name = .ok c) :
      Asks ["--registry=" ++ name] (.registry (some c))
  | noRegistry : Asks ["--no-registry"] (.registry none)
  | format {word : String} {f : OutputFormat} (h : (word, f) ∈ formats) :
      Asks ["--format=" ++ word] (.format f)
  | color {word : String} {c : Terminal.ColorMode} (h : (word, c) ∈ colors) :
      Asks ["--color=" ++ word] (.color c)
  | errorLimit {text : String} {n : Nat} (h : Numeral text n) (hn : n < 2 ^ 64) :
      Asks ["--error-limit=" ++ text] (.errorLimit n)

/-- An argument that means nothing: its value is rejected, or it is no option. -/
inductive Ignored : String → Prop
  | suffix : Ignored ("--suffix=" ++ "")
  | registry {name : String} (h : ∀ c, ClassName.guess name ≠ .ok c) : Ignored ("--registry=" ++ name)
  | format {word : String} (h : ∀ f, (word, f) ∉ formats) : Ignored ("--format=" ++ word)
  | color {word : String} (h : ∀ c, (word, c) ∉ colors) : Ignored ("--color=" ++ word)
  | errorLimit {text : String} (h : ∀ n, Numeral text n → 2 ^ 64 ≤ n) :
      Ignored ("--error-limit=" ++ text)
  | unknown {x : String} (hstart : ∀ start ∈ starts, ¬ start.toList <+: x.toList) (hshort : x ≠ "-o")
      (hregistry : x ≠ "--no-registry") : Ignored x

theorem format_parse?_eq_some_iff {word : String} {f : OutputFormat} :
    OutputFormat.parse? word = some f ↔ (word, f) ∈ formats := by
  unfold OutputFormat.parse? formats
  split <;> cases f <;> simp_all

theorem color_parse?_eq_some_iff {word : String} {c : Terminal.ColorMode} :
    Terminal.ColorMode.parse? word = some c ↔ (word, c) ∈ colors := by
  unfold Terminal.ColorMode.parse? colors
  split <;> cases c <;> simp_all

theorem readLimit_eq_some_iff {text : String} {n : Nat} :
    Decimal.readNat? (Nat.pow 2 64 - 1) text.toList = some n ↔ Numeral text n ∧ n < 2 ^ 64 := by
  have hbound : n ≤ Nat.pow 2 64 - 1 ↔ n < 2 ^ 64 := by
    have hpow : Nat.pow 2 64 = 2 ^ 64 := rfl
    omega
  rw [readNat?_eq_some_iff, hbound]

theorem append_ne {start x : String} (h : start ∈ starts)
    (hx : ∀ start ∈ starts, ¬ start.toList <+: x.toList) (v : String) : start ++ v ≠ x := by
  rintro rfl
  refine hx start h ?_
  rw [String.toList_append]
  exact List.prefix_append _ _

theorem start_not_short : ∀ start ∈ starts, ¬ start.toList <+: "-o".toList := by decide

theorem start_not_noRegistry : ∀ start ∈ starts, ¬ start.toList <+: "--no-registry".toList := by
  decide

theorem ne_short_of_asks {x : String} {c : Change} (h : Asks [x] c) : x ≠ "-o" := by
  cases h with
  | outDir | suffix | registry | format | color | errorLimit =>
      exact append_ne (by decide) start_not_short _
  | noRegistry => decide

theorem asks_cases {p : List String} {c : Change} (h : Asks p c) :
    (∃ dir, p = ["-o", dir] ∧ c = .outDir ⟨dir⟩) ∨ ∃ x, p = [x] ∧ Asks [x] c := by
  cases h with
  | short dir => exact .inl ⟨dir, rfl, rfl⟩
  | outDir dir => exact .inr ⟨_, rfl, .outDir dir⟩
  | suffix h => exact .inr ⟨_, rfl, .suffix h⟩
  | registry h => exact .inr ⟨_, rfl, .registry h⟩
  | noRegistry => exact .inr ⟨_, rfl, .noRegistry⟩
  | format h => exact .inr ⟨_, rfl, .format h⟩
  | color h => exact .inr ⟨_, rfl, .color h⟩
  | errorLimit h hn => exact .inr ⟨_, rfl, .errorLimit h hn⟩

theorem ne_short_of_ignored {x : String} (h : Ignored x) : x ≠ "-o" := by
  cases h with
  | suffix | registry | format | color | errorLimit =>
      exact append_ne (by decide) start_not_short _
  | unknown _ hshort _ => exact hshort

theorem readArgument_of_asks {x : String} {c : Change} (h : Asks [x] c) : readArgument x = .ok c := by
  cases h with
  | outDir dir => exact readArgument_valued (.head _) dir
  | suffix h => rw [readArgument_valued (.tail _ (.head _)), if_neg (String.isEmpty_iff.not.mpr h)]
  | registry h => rw [readArgument_valued (.tail _ (.tail _ (.head _))), h]
  | noRegistry => rw [readArgument_of_notValued start_not_noRegistry, if_pos rfl]
  | format h =>
      rw [readArgument_valued (.tail _ (.tail _ (.tail _ (.head _)))), format_parse?_eq_some_iff.mpr h]
  | color h =>
      rw [readArgument_valued (.tail _ (.tail _ (.tail _ (.tail _ (.head _))))),
        color_parse?_eq_some_iff.mpr h]
  | errorLimit h hn =>
      rw [readArgument_valued (.tail _ (.tail _ (.tail _ (.tail _ (.tail _ (.head _)))))),
        readLimit_eq_some_iff.mpr ⟨h, hn⟩]

theorem readArgument_of_ignored {x : String} (h : Ignored x) : ∃ w, readArgument x = .error w := by
  cases h with
  | suffix => exact ⟨_, readArgument_valued (.tail _ (.head _)) ""⟩
  | @registry name h =>
      rw [readArgument_valued (.tail _ (.tail _ (.head _)))]
      cases hguess : ClassName.guess name with
      | ok c => exact absurd hguess (h c)
      | error cause => exact ⟨_, rfl⟩
  | @format word h =>
      rw [readArgument_valued (.tail _ (.tail _ (.tail _ (.head _))))]
      cases hparse : OutputFormat.parse? word with
      | some f => exact absurd (format_parse?_eq_some_iff.mp hparse) (h f)
      | none => exact ⟨_, rfl⟩
  | @color word h =>
      rw [readArgument_valued (.tail _ (.tail _ (.tail _ (.tail _ (.head _)))))]
      cases hparse : Terminal.ColorMode.parse? word with
      | some c => exact absurd (color_parse?_eq_some_iff.mp hparse) (h c)
      | none => exact ⟨_, rfl⟩
  | @errorLimit text h =>
      rw [readArgument_valued (.tail _ (.tail _ (.tail _ (.tail _ (.tail _ (.head _))))))]
      cases hread : Decimal.readNat? (Nat.pow 2 64 - 1) text.toList with
      | some n =>
          obtain ⟨hnumeral, hn⟩ := readLimit_eq_some_iff.mp hread
          exact absurd hn (Nat.not_lt.mpr (h n hnumeral))
      | none => exact ⟨_, rfl⟩
  | unknown hstart _ hregistry => exact ⟨_, (readArgument_of_notValued hstart).trans (if_neg hregistry)⟩

theorem asks_or_ignored_of_start {start : String} (h : start ∈ starts) (v : String) :
    (∃ c, Asks [start ++ v] c) ∨ Ignored (start ++ v) := by
  simp only [starts, List.mem_cons, List.not_mem_nil, or_false] at h
  rcases h with rfl | rfl | rfl | rfl | rfl | rfl
  · exact .inl ⟨_, .outDir v⟩
  · by_cases hv : v = ""
    · exact .inr (hv ▸ .suffix)
    · exact .inl ⟨_, .suffix hv⟩
  · by_cases hv : ∃ c, ClassName.guess v = .ok c
    · exact .inl (hv.imp' _ fun _ => .registry)
    · exact .inr (.registry (not_exists.mp hv))
  · by_cases hv : ∃ f, (v, f) ∈ formats
    · exact .inl (hv.imp' _ fun _ => .format)
    · exact .inr (.format (not_exists.mp hv))
  · by_cases hv : ∃ c, (v, c) ∈ colors
    · exact .inl (hv.imp' _ fun _ => .color)
    · exact .inr (.color (not_exists.mp hv))
  · by_cases hv : ∃ n, Numeral v n ∧ n < 2 ^ 64
    · exact .inl (hv.imp' _ fun _ hn => .errorLimit hn.1 hn.2)
    · exact .inr (.errorLimit fun n hn => Nat.not_lt.mp fun hlt => hv ⟨n, hn, hlt⟩)

theorem asks_or_ignored {x : String} (hx : x ≠ "-o") : (∃ c, Asks [x] c) ∨ Ignored x := by
  by_cases hstart : ∃ start ∈ starts, start.toList <+: x.toList
  · obtain ⟨start, hmem, v, hv⟩ := hstart
    have happend : x = start ++ String.ofList v := by
      rw [← String.toList_inj, String.toList_append, String.toList_ofList, hv]
    rw [happend]
    exact asks_or_ignored_of_start hmem _
  · by_cases hregistry : x = "--no-registry"
    · exact .inl ⟨.registry none, hregistry ▸ .noRegistry⟩
    · exact .inr (.unknown (fun start hmem hpre => hstart ⟨start, hmem, hpre⟩) hx hregistry)

theorem ignored_iff {x : String} (hx : x ≠ "-o") : Ignored x ↔ ¬ ∃ c, Asks [x] c := by
  refine ⟨fun hignored => ?_, (asks_or_ignored hx).resolve_left⟩
  rintro ⟨c, hasks⟩
  obtain ⟨w, hw⟩ := readArgument_of_ignored hignored
  rw [readArgument_of_asks hasks] at hw
  cases hw

end ViewBinding.Proofs.Arguments
