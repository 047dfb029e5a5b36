import Mathlib.Data.List.Forall2
import ViewBinding.Diagnostic.Listing
import ViewBinding.Proofs.Printing
import ViewBinding.Text.Segments

namespace ViewBinding.Proofs.Transcript

open Json Text Grammar Printing Remainder

/-- The listing of diagnostics that come in batches. -/
def written (batches : List (List Diagnostic)) : String :=
  (batches.foldl Listing.addAll Listing.start).finish

structure TellsLabel (v : Json) (l : Label) : Prop where
  element : v.get? "element" = some (.string l.site.text)
  owner : v.get? "owner" = some (.string l.site.owner.canonical)
  member : ∀ name, l.site.member? = some name → v.get? "member" = some (.string name)
  noMember : l.site.member? = none → v.get? "member" = some .null
  message : v.get? "message" = some (.string l.message)
  primary : v.get? "primary" = some (.boolean l.isPrimary)

structure Tells (v : Json) (d : Diagnostic) : Prop where
  code : v.get? "code" = some (.string d.code.text)
  severity : v.get? "severity" = some (.string d.severity.text)
  message : v.get? "message" = some (.string d.message)
  notes : v.get? "notes" = some (.array (d.notes.map .string))
  suggestions : v.get? "suggestions" = some (.array (d.suggestions.map .string))
  labels : ∃ ls, v.get? "labels" = some (.array ls) ∧ List.Forall₂ TellsLabel ls d.labels

theorem tellsLabel_toJson (l : Label) : TellsLabel l.toJson l where
  element := rfl
  owner := rfl
  member name h := by simp [Label.toJson, h, get?]
  noMember h := by simp [Label.toJson, h, get?]
  message := rfl
  primary := rfl

theorem tells_toJson (d : Diagnostic) : Tells d.toJson d where
  code := rfl
  severity := rfl
  message := rfl
  notes := rfl
  suggestions := rfl
  labels := ⟨d.labels.map Label.toJson, rfl,
    List.forall₂_map_left_iff.mpr (List.forall₂_same.mpr fun l _ => tellsLabel_toJson l)⟩

theorem plain_strings (ws : List String) : PlainElements (ws.map .string) := by
  simp [plainElements_iff, Plain]

theorem plain_label (l : Label) : Plain l.toJson := by
  cases h : l.site.member? <;> simp [Label.toJson, h, Plain, PlainMembers]

theorem plain_toJson (d : Diagnostic) : Plain d.toJson := by
  have hlabels : PlainElements (d.labels.map Label.toJson) := by
    simp [plainElements_iff, plain_label]
  simp [Diagnostic.toJson, Plain, PlainMembers, hlabels, plain_strings]

def rest : List Diagnostic → List Char
  | [] => ['\n', ']', '\n']
  | d :: ds => ',' :: '\n' :: ' ' :: ' ' :: (d.toJson.write ++ rest ds)

theorem finish_foldl_add (ds : List Diagnostic) {l : Listing} (hl : l.isFirst = false) :
    (ds.foldl Listing.add l).finish.toList = l.text.toList ++ rest ds := by
  induction ds generalizing l with
  | nil => simp [Listing.finish, hl, rest]
  | cons d ds ih =>
      rw [List.foldl_cons, ih rfl]
      simp [Listing.add, hl, Json.text, rest]

theorem toList_written (batches : List (List Diagnostic)) :
    (written batches).toList = match batches.flatten with
      | [] => ['[', ']', '\n']
      | d :: ds => '[' :: '\n' :: ' ' :: ' ' :: (d.toJson.write ++ rest ds) := by
  have hflat : batches.foldl Listing.addAll Listing.start = batches.flatten.foldl Listing.add Listing.start :=
    List.foldl_flatten.symm
  rw [written, hflat]
  cases batches.flatten with
  | nil => rfl
  | cons d ds =>
      rw [List.foldl_cons, finish_foldl_add ds rfl]
      simp [Listing.add, Listing.start, Json.text]

theorem begins_row (d : Diagnostic) (ds : List Diagnostic) : Begins (d.toJson.write ++ rest ds) :=
  (begins_write (plain_toJson d)).append (rest ds)

theorem skipSpace_row (d : Diagnostic) (ds : List Diagnostic) :
    skipSpace ('\n' :: ' ' :: ' ' :: (d.toJson.write ++ rest ds)) = d.toJson.write ++ rest ds :=
  (begins_row d ds).skipSpace

theorem elements_rest (d : Diagnostic) (ds : List Diagnostic) :
    Elements (d.toJson.write ++ rest ds) ((d :: ds).map Diagnostic.toJson) ['\n'] := by
  induction ds generalizing d with
  | nil =>
      refine elements_iff.mpr (.last (value_write _ (plain_toJson d) rfl) ?_)
      exact readComma_none_iff.mpr rfl
  | cons e ds ih =>
      exact elements_iff.mpr (.more (value_write _ (plain_toJson d) rfl)
        (readComma_begins (begins_row e ds) (skipSpace_row e ds) (.inl rfl)) (ih e))

theorem parse_written (batches : List (List Diagnostic)) :
    Json.parse (written batches) = .ok (.array (batches.flatten.map Diagnostic.toJson)) := by
  refine parse_eq_ok_iff.mpr ⟨['\n'], ?_, rfl⟩
  rw [toList_written]
  cases batches.flatten with
  | nil => exact value_iff.mpr (.emptyList rfl)
  | cons d ds =>
      refine value_array_iff.mpr ⟨_, rfl, ?_⟩
      exact listBody_begins (begins_row d ds) (skipSpace_row d ds) (elements_rest d ds)

def ended (ws : List (List Char)) : List Char := ws.flatMap (· ++ ['\n'])

theorem lines_ended {ws : List (List Char)} (h : ∀ w ∈ ws, Inline w) :
    lines (String.ofList (ended ws)) = ws.map String.ofList := by
  have hreturn : ∀ w ∈ ws, (if w.getLast? = some '\r' then w.dropLast else w) = w := by
    intro w hw
    refine if_neg fun hlast => ?_
    exact absurd (h w hw _ (List.mem_of_getLast? hlast)) (by decide)
  have hcut : cut '\n' (ended ws) = ws ++ [[]] :=
    cut_ended fun w hw hmem => absurd (h w hw _ hmem) (by decide)
  simp [lines, hcut, List.map_congr_left hreturn]

def rows : Diagnostic → List Diagnostic → List (List Char)
  | d, [] => [' ' :: ' ' :: d.toJson.write]
  | d, e :: ds => (' ' :: ' ' :: d.toJson.write ++ [',']) :: rows e ds

theorem rest_eq (d : Diagnostic) (ds : List Diagnostic) :
    ' ' :: ' ' :: (d.toJson.write ++ rest ds) = ended (rows d ds ++ [[']']]) := by
  induction ds generalizing d with
  | nil => simp [rest, rows, ended]
  | cons e ds ih =>
      rw [rest, ih e]
      simp [rows, ended]

theorem inline_rows (d : Diagnostic) (ds : List Diagnostic) : ∀ w ∈ rows d ds, Inline w := by
  have hrow (d : Diagnostic) : Inline (' ' :: ' ' :: d.toJson.write) :=
    inline_cons.mpr ⟨by decide, inline_cons.mpr ⟨by decide, inline_write _ (plain_toJson d)⟩⟩
  induction ds generalizing d with
  | nil => simpa [rows] using hrow d
  | cons e ds ih =>
      refine List.forall_mem_cons.mpr ⟨inline_append.mpr ⟨hrow d, ?_⟩, ih e⟩
      simp [Inline]

theorem lines_rows (d : Diagnostic) (ds : List Diagnostic) :
    lines (String.ofList ('[' :: '\n' :: ' ' :: ' ' :: (d.toJson.write ++ rest ds))) =
      "[" :: ((rows d ds).map String.ofList ++ ["]"]) := by
  have htext : '[' :: '\n' :: ' ' :: ' ' :: (d.toJson.write ++ rest ds) =
      ended (['['] :: (rows d ds ++ [[']']])) := by
    rw [rest_eq]
    rfl
  have hinline : ∀ w ∈ ['['] :: (rows d ds ++ [[']']]), Inline w := by
    intro w hw
    rcases List.mem_cons.mp hw with rfl | hw
    · simp [Inline]
    · rcases List.mem_append.mp hw with hw | hw
      · exact inline_rows d ds w hw
      · rw [List.mem_singleton.mp hw]
        simp [Inline]
  rw [htext, lines_ended hinline, List.map_cons, List.map_append]
  rfl

/-- A line with a value that tells a diagnostic, and with the comma behind it where another follows. -/
def Row (line : String) (d : Diagnostic) : Prop :=
  ∃ object, (line = "  " ++ object ∨ line = "  " ++ object ++ ",") ∧
    ∃ v, Json.parse object = .ok v ∧ Tells v d

theorem rows_forall (d : Diagnostic) (ds : List Diagnostic) :
    List.Forall₂ Row ((rows d ds).map String.ofList) (d :: ds) := by
  have hrow (d : Diagnostic) {w : List Char}
      (hw : w = ' ' :: ' ' :: d.toJson.write ∨ w = ' ' :: ' ' :: d.toJson.write ++ [',']) :
      Row (String.ofList w) d := by
    refine ⟨d.toJson.text, ?_, d.toJson, parse_text (plain_toJson d), tells_toJson d⟩
    rcases hw with rfl | rfl
    · exact .inl (String.toList_inj.mp (by simp [Json.text]))
    · exact .inr (String.toList_inj.mp (by simp [Json.text]))
  induction ds generalizing d with
  | nil => exact .cons (hrow d (.inl rfl)) .nil
  | cons e ds ih => exact .cons (hrow d (.inr rfl)) (ih e)

/-- The lines of a listing. -/
def Lines (ls : List String) (ds : List Diagnostic) : Prop :=
  if ds = [] then ls = ["[]"]
  else ls.length = ds.length + 2 ∧ ∃ rows, ls = "[" :: (rows ++ ["]"]) ∧ List.Forall₂ Row rows ds

/-- A listing is one JSON value that tells the diagnostics of all batches in their order, and each has
its own line of the text. -/
theorem written_tells (batches : List (List Diagnostic)) :
    (∃ vs, Json.parse (written batches) = .ok (.array vs) ∧ List.Forall₂ Tells vs batches.flatten) ∧
      Lines (lines (written batches)) batches.flatten := by
  constructor
  · refine ⟨_, parse_written batches, ?_⟩
    exact List.forall₂_map_left_iff.mpr (List.forall₂_same.mpr fun d _ => tells_toJson d)
  · rw [← String.ofList_toList (s := written batches), toList_written, Lines]
    cases batches.flatten with
    | nil => exact (if_pos rfl).mpr (by decide)
    | cons d ds =>
        have hrows := rows_forall d ds
        dsimp only
        rw [lines_rows, if_neg (List.cons_ne_nil d ds)]
        refine ⟨?_, _, rfl, hrows⟩
        simp [hrows.length_eq]

end ViewBinding.Proofs.Transcript
