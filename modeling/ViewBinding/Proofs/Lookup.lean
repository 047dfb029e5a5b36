import ViewBinding.Proofs.Line
import ViewBinding.Registry

namespace ViewBinding.Proofs.Lookup

open Java Line

variable (options : Options)

inductive SearchLine where
  | test (name : String) (type : ClassName)
  | give (type : ClassName)
  | leave
  | giveNull

def testHead : Reader String := do
  word "if ("
  let tested ← name
  word " == "
  pure tested

def readSearch : List Fragment → Option SearchLine
  | [.text a, .type (.declared (.ofClass c)), .text b] => do
      let tested ← whole testHead a
      whole (word ".class) \x7b") b
      pure (.test tested c)
  | [.text a, .type _, .text b, .type (.declared (.ofClass c)), .text d] => do
      whole (word "return (") a
      whole (word ") new ") b
      whole (word "();") d
      pure (.give c)
  | [.text a] =>
      if a = "\x7d" then some .leave
      else if a = "return null;" then some .giveNull
      else none
  | _ => none

/-- What a search comes to for a class given under a name: the class of the object that is made, or
null. A search that tests anything else, or does not come to an end, comes to nothing. -/
def search (parameter : String) (given : ClassName) : List SearchLine → Option (Option ClassName)
  | .test tested c :: .give d :: .leave :: rest =>
      if tested = parameter then
        if given = c then some (some d) else search parameter given rest
      else none
  | .giveNull :: _ => some none
  | _ => none

def callWith (method : Method) (given : ClassName) : Option (Option ClassName) := do
  let statements ← method.body.lines.toList.mapM fun l => readSearch l.snippet.fragments
  match method.parameters with
  | [p] => search p.name given statements
  | _ => none

def entryStatements (e : RegistryEntry) : List SearchLine :=
  [.test "hostType" e.host, .give e.companion, .leave]

theorem says_addEntry {code : CodeBlock} {ss : List SearchLine} (e : RegistryEntry)
    (h : Says readSearch code ss) :
    Says readSearch (Registry.addEntry options code e) (ss ++ entryStatements e) := by
  have htest : readSearch ((((Snippet.ofText "if (hostType == ").cls e.host).text ".class)").text
      " \x7b").fragments = some (.test "hostType" e.host) := by rfl
  have hgive : readSearch ((((((Snippet.ofText "return (").type (Registry.companionType options)).text
      ") new ").cls e.companion).text "()").text ";").fragments = some (.give e.companion) := by rfl
  have hleave : readSearch ((Snippet.ofText "\x7d").text "").fragments = some .leave := by rfl
  have hall := says_closing (says_statement (says_opening h htest) hgive) hleave
  rw [List.append_assoc, List.append_assoc] at hall
  exact hall

theorem says_addEntries {code : CodeBlock} {ss : List SearchLine} (entries : List RegistryEntry)
    (h : Says readSearch code ss) :
    Says readSearch (entries.foldl (Registry.addEntry options) code)
      (ss ++ entries.flatMap entryStatements) :=
  says_foldl (fun e _ => says_addEntry options e) h

theorem says_body (entries : List RegistryEntry) :
    Says readSearch (Registry.find options entries).body
      (entries.flatMap entryStatements ++ [.giveNull]) :=
  says_statement (says_addEntries options entries says_empty) (by rfl)

theorem search_entries (entries : List RegistryEntry) (host : ClassName) :
    search "hostType" host (entries.flatMap entryStatements ++ [.giveNull]) =
      some ((entries.find? fun e => host = e.host).map RegistryEntry.companion) := by
  induction entries with
  | nil => rfl
  | cons e entries ih =>
      rw [List.flatMap_cons, List.append_assoc, entryStatements]
      simp only [List.cons_append, List.nil_append, search, if_true, ih, List.find?_cons]
      by_cases h : host = e.host <;> simp [h]

theorem callWith_eq {method : Method} {p : Parameter} {ss : List SearchLine}
    (hp : method.parameters = [p]) (hs : Says readSearch method.body ss) (given : ClassName) :
    callWith method given = search p.name given ss := by
  unfold Says at hs
  rw [callWith, hs, hp]
  rfl

theorem callWith_find (entries : List RegistryEntry) (host : ClassName) :
    callWith (Registry.find options entries) host =
      some ((entries.find? fun e => host = e.host).map RegistryEntry.companion) := by
  rw [← search_entries]
  exact callWith_eq rfl (says_body options entries) host

theorem find?_host {entries : List RegistryEntry} (h : (entries.map RegistryEntry.host).Nodup)
    {e : RegistryEntry} (he : e ∈ entries) : (entries.find? fun d => e.host = d.host) = some e := by
  induction entries with
  | nil => cases he
  | cons d entries ih =>
      rw [List.map_cons, List.nodup_cons] at h
      rcases List.mem_cons.mp he with rfl | he
      · exact List.find?_cons_of_pos (decide_eq_true rfl)
      · have hne : e.host ≠ d.host := fun hd => h.1 (hd ▸ List.mem_map_of_mem he)
        rw [List.find?_cons_of_neg (by simpa using hne)]
        exact ih h.2 he

theorem callWith_find_of_nodup {entries : List RegistryEntry}
    (h : (entries.map RegistryEntry.host).Nodup) :
    (∀ e ∈ entries, callWith (Registry.find options entries) e.host = some (some e.companion)) ∧
    ∀ host ∉ entries.map RegistryEntry.host,
      callWith (Registry.find options entries) host = some none := by
  constructor
  · intro e he
    rw [callWith_find, find?_host h he]
    rfl
  · intro host hn
    have hfind : (entries.find? fun d => host = d.host) = none := by
      rw [List.find?_eq_none]
      intro d hd hh
      exact hn (List.mem_map.mpr ⟨d, hd, (of_decide_eq_true hh).symm⟩)
    rw [callWith_find, hfind]
    rfl

end ViewBinding.Proofs.Lookup
