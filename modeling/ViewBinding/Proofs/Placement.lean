import ViewBinding.Java.SourceFile
import ViewBinding.Proofs.Reading

namespace ViewBinding.Proofs.Placement

open Text Java Reading

/-- A piece of a path that leads to a directory or a file of that name. -/
structure IsName (s : String) : Prop where
  piece : Path.ofPiece s.toList = some (.name s)
  noSlash : '/' ∉ s.toList

theorem ofPiece_eq {w : List Char} (hne : w ≠ []) (hcurrent : w ≠ ['.']) (hparent : w ≠ ['.', '.']) :
    Path.ofPiece w = some (.name (String.ofList w)) := by
  rw [Path.ofPiece.eq_def]
  split
  · exact absurd rfl hne
  · exact absurd rfl hcurrent
  · exact absurd rfl hparent
  · rfl

theorem IsName.of_identifier {s : String} (h : isIdentifier s.toList = true) : IsName s := by
  have hdot : '.' ∉ s.toList := notMem_of_isIdentifier (by decide +kernel) h
  refine ⟨?_, notMem_of_isIdentifier (by decide +kernel) h⟩
  rw [ofPiece_eq, String.ofList_toList]
  · intro hnil
    rw [hnil] at h
    cases h
  · exact fun hcurrent => hdot (hcurrent ▸ List.mem_cons_self)
  · exact fun hparent => hdot (hparent ▸ List.mem_cons_self)

theorem IsName.java {s : String} (h : '/' ∉ s.toList) : IsName (s ++ ".java") := by
  have hlength : 5 ≤ (s ++ ".java").toList.length := by
    rw [String.toList_append, List.length_append]
    exact Nat.le_add_left ..
  refine ⟨?_, ?_⟩
  · rw [ofPiece_eq, String.ofList_toList] <;> intro hw <;> rw [hw] at hlength <;> simp at hlength
  · rw [String.toList_append, List.mem_append]
    exact fun hm => hm.elim h (by decide)

theorem IsName.toList_ne_nil {s : String} (h : IsName s) : s.toList ≠ [] := by
  intro hnil
  have hpiece := h.piece
  rw [hnil] at hpiece
  cases hpiece

theorem IsName.toList_ne_current {s : String} (h : IsName s) : s.toList ≠ ['.'] := by
  intro hcurrent
  have hpiece := h.piece
  rw [hcurrent] at hpiece
  cases hpiece

section Pieces

variable {ps : List String} (hps : ∀ p ∈ ps, IsName p)

include hps

theorem cut_join (hne : ps ≠ []) : cut '/' (join "/" ps).toList = ps.map String.toList := by
  rw [join, String.toList_ofList]
  refine cut_glue (fun hnil => hne (List.map_eq_nil_iff.mp hnil)) ?_
  rw [List.forall_mem_map]
  exact fun p hp => (hps p hp).noSlash

theorem nil_notMem_pieces : [] ∉ ps.map String.toList := by
  intro hm
  obtain ⟨p, hp, hnil⟩ := List.mem_map.mp hm
  exact (hps p hp).toList_ne_nil hnil

theorem filterMap_ofPiece : (ps.map String.toList).filterMap Path.ofPiece = ps.map .name := by
  induction ps with
  | nil => rfl
  | cons p ps ih =>
      obtain ⟨hp, hps⟩ := List.forall_mem_cons.mp hps
      rw [List.map_cons, List.filterMap_cons_some hp.piece, ih hps, List.map_cons]

theorem push_join {s : String} (hs : IsName s) :
    Path.push ⟨join "/" ps⟩ s = ⟨join "/" (ps ++ [s])⟩ := by
  have hstart : s.startsWith '/' = false := by
    rw [String.startsWith_char_eq_head?, beq_eq_false_iff_ne]
    exact fun hhead => hs.noSlash (List.mem_of_head? hhead)
  by_cases hne : ps = []
  · subst hne
    rw [Path.push, hstart, List.nil_append, join_singleton, join_nil]
    exact congrArg Path.mk String.empty_append
  · have hempty : (join "/" ps).isEmpty = false := by
      rw [Bool.eq_false_iff]
      intro he
      have hcut := cut_join hps hne
      rw [String.isEmpty_iff.mp he] at hcut
      exact nil_notMem_pieces hps (hcut ▸ List.mem_cons_self)
    have hend : (join "/" ps).endsWith '/' = false := by
      rw [String.endsWith_char_eq_getLast?, beq_eq_false_iff_ne]
      intro hlast
      obtain ⟨w, hw⟩ := List.getLast?_eq_some_iff.mp hlast
      have hcut := cut_join hps hne
      rw [hw, cut_append_sep] at hcut
      exact nil_notMem_pieces hps (hcut ▸ List.mem_append_right _ List.mem_cons_self)
    rw [Path.push, hstart, hempty, hend, join_append _ hne (List.cons_ne_nil s []), join_singleton]
    rfl

theorem components_join_names : Path.components ⟨join "/" ps⟩ = ps.map .name := by
  cases ps with
  | nil => rfl
  | cons p ps =>
      rw [Path.components, cut_join hps (List.cons_ne_nil p ps), filterMap_ofPiece hps]
      split
      · next h => exact absurd (List.cons.inj h).1 (hps p List.mem_cons_self).toList_ne_nil
      · next h => exact absurd (List.cons.inj h).1 (hps p List.mem_cons_self).toList_ne_current
      · rfl

end Pieces

theorem foldl_push {ps qs : List String} (h : ∀ p ∈ ps ++ qs, IsName p) :
    qs.foldl Path.push ⟨join "/" ps⟩ = ⟨join "/" (ps ++ qs)⟩ := by
  induction qs generalizing ps with
  | nil => rw [List.append_nil, List.foldl_nil]
  | cons q qs ih =>
      have hps : ∀ p ∈ ps, IsName p := fun p hp => h p (List.mem_append_left _ hp)
      have hq : IsName q := h q (List.mem_append_right _ List.mem_cons_self)
      have happend : ps ++ q :: qs = ps ++ [q] ++ qs := List.append_cons ps q qs
      rw [happend] at h ⊢
      rw [List.foldl_cons, push_join hps hq, ih h]

def start (w : List Char) (ws : List (List Char)) : List Path.Component :=
  if w = [] ∧ ws ≠ [] then [.root] else if w = ['.'] then [.current] else []

theorem components_of_cut {p : Path} {w : List Char} {ws : List (List Char)}
    (h : cut '/' p.text.toList = w :: ws) :
    p.components = start w ws ++ (w :: ws).filterMap Path.ofPiece := by
  rw [Path.components, h]
  cases w with
  | nil => cases ws <;> rfl
  | cons c w =>
      by_cases hw : c :: w = ['.']
      · rw [hw]
        rfl
      · rw [start, if_neg (fun h => List.cons_ne_nil c w h.1), if_neg hw]
        split
        · next h => cases (List.cons.inj h).1
        · next h => exact absurd (List.cons.inj h).1 hw
        · rfl

theorem toList_append_slash (r s : String) : (r ++ "/" ++ s).toList = r.toList ++ '/' :: s.toList := by
  rw [String.append_assoc, String.toList_append, String.toList_append]
  rfl

theorem components_append_slash (r s : String) :
    Path.components ⟨r ++ "/" ++ s⟩ =
      Path.components ⟨r ++ "/"⟩ ++ (cut '/' s.toList).filterMap Path.ofPiece := by
  have hcut : ∀ s : String,
      cut '/' (r ++ "/" ++ s).toList = cut '/' r.toList ++ cut '/' s.toList := by
    intro s
    rw [toList_append_slash, cut_append_sep]
  obtain ⟨w, ws, hr⟩ := List.exists_cons_of_ne_nil (cut_ne_nil '/' r.toList)
  have hcomponents : ∀ s : String, Path.components ⟨r ++ "/" ++ s⟩ =
      start w [[]] ++ ((w :: ws).filterMap Path.ofPiece ++ (cut '/' s.toList).filterMap Path.ofPiece) := by
    intro s
    have hslash := hcut s
    rw [hr, List.cons_append] at hslash
    have hstart : start w (ws ++ cut '/' s.toList) = start w [[]] := by
      simp [start, cut_ne_nil]
    rw [components_of_cut hslash, hstart, ← List.cons_append, List.filterMap_append]
  have hend := hcomponents ""
  rw [String.append_empty] at hend
  rw [hend, hcomponents, List.append_assoc, List.append_assoc]
  rfl

/-- A slash at its end leads a path nowhere else, unless there is nothing before it. -/
theorem components_slash {r : String} (h : r ≠ "") :
    Path.components ⟨r ++ "/"⟩ = Path.components ⟨r⟩ := by
  obtain ⟨w, ws, hr⟩ := List.exists_cons_of_ne_nil (cut_ne_nil '/' r.toList)
  have hslash : cut '/' (r ++ "/").toList = w :: (ws ++ [[]]) := by
    rw [String.toList_append, ← List.cons_append, ← hr]
    exact cut_append_sep '/' r.toList []
  -- Only a text of nothing but slashes has an empty first piece, and more pieces after it.
  have hstart : start w (ws ++ [[]]) = start w ws := by
    by_cases hw : w = []
    · have hws : ws ≠ [] := by
        rintro rfl
        apply h
        apply String.toList_inj.mp
        rw [← glue_cut '/' r.toList, hr, hw]
        rfl
      simp [start, hws]
    · simp [start, hw]
  rw [components_of_cut hslash, components_of_cut (p := ⟨r⟩) hr, hstart, ← List.cons_append,
    List.filterMap_append]
  simp [Path.ofPiece]

theorem components_join (root : Path) {ps : List String} (hps : ∀ p ∈ ps, IsName p) (hne : ps ≠ []) :
    (root.join ⟨join "/" ps⟩).components = root.components ++ ps.map .name := by
  obtain ⟨r⟩ := root
  have hpieces : (cut '/' (join "/" ps).toList).filterMap Path.ofPiece = ps.map .name := by
    rw [cut_join hps hne, filterMap_ofPiece hps]
  have hstart : (join "/" ps).startsWith '/' = false := by
    rw [String.startsWith_char_eq_head?, beq_eq_false_iff_ne]
    intro hhead
    obtain ⟨w, hw⟩ := List.head?_eq_some_iff.mp hhead
    have hcut := cut_join hps hne
    rw [hw, cut, if_pos rfl] at hcut
    exact nil_notMem_pieces hps (hcut ▸ List.mem_cons_self)
  rw [Path.join, Path.push, hstart]
  by_cases hempty : r = ""
  · subst hempty
    exact (congrArg Path.components (congrArg Path.mk String.empty_append)).trans
      (components_join_names hps)
  · by_cases hend : r.endsWith '/' = true
    · have hr : ∃ s, r = s ++ "/" := by
        rw [String.endsWith_char_eq_getLast?, beq_iff_eq] at hend
        obtain ⟨w, hw⟩ := List.getLast?_eq_some_iff.mp hend
        refine ⟨String.ofList w, String.toList_inj.mp ?_⟩
        rw [hw, String.toList_append, String.toList_ofList]
        rfl
      obtain ⟨s, rfl⟩ := hr
      rw [if_neg Bool.false_ne_true, if_pos (by rw [hend, Bool.or_true]), components_append_slash,
        hpieces]
    · rw [if_neg Bool.false_ne_true, if_neg (by simp [hempty, hend]), components_append_slash, hpieces,
        components_slash hempty]

/-- A file of a package named by identifiers, whose class does not lead elsewhere by its name. -/
structure Placeable (f : SourceFile) : Prop where
  package : ∃ parts, (∀ p ∈ parts, isIdentifier p.toList = true) ∧ f.package = join "." parts
  name : '/' ∉ f.type.name.toList

def steps (f : SourceFile) : List String := segments f.package ++ [f.type.name ++ ".java"]

theorem steps_ne_nil (f : SourceFile) : steps f ≠ [] :=
  List.append_ne_nil_of_right_ne_nil _ (List.cons_ne_nil _ [])

theorem steps_eq_iff {f g : SourceFile} : steps f = steps g ↔ f.className = g.className := by
  constructor
  · intro h
    obtain ⟨hsegments, hname⟩ := List.append_inj' h rfl
    have hpackage : f.package = g.package := by
      rw [← join_segments f.package, hsegments, join_segments]
    have htype : f.type.name = g.type.name := (String.append_left_inj _).mp (List.singleton_inj.mp hname)
    rw [SourceFile.className, SourceFile.className, hpackage, htype]
  · intro h
    obtain ⟨hpackage, hname, -⟩ := ClassName.mk.inj h
    rw [steps, steps, hpackage, hname]

theorem map_name_inj {ss ts : List String} :
    ss.map Path.Component.name = ts.map Path.Component.name ↔ ss = ts :=
  List.map_inj_right fun _ _ => Path.Component.name.inj

namespace Placeable

variable {f g : SourceFile}

theorem of_className (hf : Placeable f) (h : g.className = f.className) : Placeable g := by
  obtain ⟨hpackage, hname, -⟩ := ClassName.mk.inj h
  exact ⟨hpackage ▸ hf.package, hname ▸ hf.name⟩

theorem names (hf : Placeable f) : ∀ s ∈ steps f, IsName s := by
  obtain ⟨⟨parts, hparts, hpackage⟩, hname⟩ := hf
  intro s hs
  rcases List.mem_append.mp hs with hs | hs
  · rw [hpackage, segments_join hparts] at hs
    exact IsName.of_identifier (hparts s hs)
  · rw [List.mem_singleton.mp hs]
    exact IsName.java hname

theorem path_eq (hf : Placeable f) : f.path = ⟨join "/" (steps f)⟩ := by
  obtain ⟨parts, hparts, hpackage⟩ := hf.package
  have hsplit : (split '.' f.package).filter (fun s => !s.isEmpty) = segments f.package := by
    rw [hpackage, segments_join hparts]
    cases parts with
    | nil => rfl
    | cons p ps =>
        rw [split_join (List.cons_ne_nil p ps) hparts, List.filter_eq_self]
        intro s hs
        have hne := (IsName.of_identifier (hparts s hs)).toList_ne_nil
        simpa using hne
  have hpush : (steps f).foldl Path.push ⟨""⟩ = ⟨join "/" (steps f)⟩ := @foldl_push [] _ hf.names
  rw [← hpush, SourceFile.path, hsplit, steps, List.foldl_append]
  rfl

theorem components_path (hf : Placeable f) : f.path.components = (steps f).map .name := by
  rw [hf.path_eq, components_join_names hf.names]

theorem components_join_path (hf : Placeable f) (root : Path) :
    (root.join f.path).components = root.components ++ (steps f).map .name := by
  rw [hf.path_eq, components_join root hf.names (steps_ne_nil f)]

theorem same_path_iff (hf : Placeable f) (hg : Placeable g) :
    f.path.same g.path = true ↔ f.className = g.className := by
  rw [Path.same, decide_eq_true_iff, hf.components_path, hg.components_path, map_name_inj,
    steps_eq_iff]

theorem same_join_iff (hf : Placeable f) (hg : Placeable g) (root : Path) :
    (root.join f.path).same (root.join g.path) = true ↔ f.className = g.className := by
  rw [Path.same, decide_eq_true_iff, hf.components_join_path, hg.components_join_path,
    List.append_right_inj, map_name_inj, steps_eq_iff]

end Placeable

end ViewBinding.Proofs.Placement
