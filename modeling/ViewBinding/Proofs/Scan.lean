import ViewBinding.Proofs.Collection
import ViewBinding.Proofs.Grounds
import ViewBinding.Session

namespace ViewBinding.Proofs.Scan

open Grouping Collection Grounds

variable (options : Options)

/-- Everything that is reported about a member that cannot be bound. -/
def complaints : Marked → List Diagnostic
  | .field f => Admission.objections options .viewById f.host (f.field.member f.host)
  | .method m =>
      match Admission.objections options .onClick m.host (m.method.member m.host) with
      | [] =>
          match MethodBinding.ofMethod options.viewType m.host m.method m.ids with
          | .ok _ => []
          | .error fault => [fault.diagnostic]
      | objections => objections

/-- What is reported about a member that is bound. -/
def warnings : Marked → List Diagnostic
  | .field _ => []
  | .method m => if m.ids.isEmpty then [Session.noIdsWarning m.site] else []

theorem of_mem_objections {marker : Marker} {host : TypeDecl} {member : Member} {d : Diagnostic}
    (hd : d ∈ Admission.objections options marker host member) :
    d.severity = .error ∧
    (d.code = .hiddenMember ∨ d.code = .notInClass ∨ ∃ n ∈ options.reserved, d.code = n.code) ∧
    (d.primary? = some member.site ∨ d.primary? = some host.site ∨
      ∃ scope, OutermostPrivate host scope ∧ d.primary? = some (.type scope)) := by
  obtain ⟨hseverity, g, htells⟩ := tells_of_mem_objections options marker host member hd
  refine ⟨hseverity, ?_⟩
  cases g with
  | hidden =>
      obtain ⟨hcode, hsubjects, -⟩ := htells
      exact ⟨.inl hcode, .inl (primary?_eq_some hsubjects)⟩
  | enclosed =>
      obtain ⟨hcode, scope, hscope, hsubjects⟩ := htells
      exact ⟨.inl hcode, .inr (.inr ⟨scope, hscope, primary?_eq_some hsubjects⟩)⟩
  | kind =>
      obtain ⟨hcode, hsubjects⟩ := htells
      exact ⟨.inr (.inl hcode), .inr (.inl (primary?_eq_some hsubjects))⟩
  | reserved =>
      obtain ⟨hsubjects, before, n, after, hreserved, -, -, hcode⟩ := htells
      have hn : n ∈ options.reserved := hreserved ▸ List.mem_append_right _ List.mem_cons_self
      exact ⟨.inr (.inr ⟨n, hn, hcode⟩), .inl (primary?_eq_some hsubjects)⟩

theorem complaints_cases {e : Marked} {d : Diagnostic} (hd : d ∈ complaints options e) :
    (∃ marker member, member.site.owner = e.host.name ∧
        d ∈ Admission.objections options marker e.host member) ∨
      ∃ fault : HandlerFault, fault.method.owner = e.host.name ∧ d = fault.diagnostic := by
  cases e with
  | field f => exact .inl ⟨_, _, rfl, hd⟩
  | method m =>
      rw [complaints] at hd
      split at hd
      · split at hd
        · cases hd
        · next fault hfault =>
            refine .inr ⟨fault, ?_, List.mem_singleton.mp hd⟩
            rw [MethodBinding.ofMethod] at hfault
            split at hfault
            · cases hfault
            · split at hfault <;> cases hfault
              rfl
            · cases hfault
              rfl
      · exact .inl ⟨_, _, rfl, hd⟩

/-- The bindings after a scan, if it was not stopped, and the queue. -/
def scan : List Marked → RoundBindings → Queue → Option RoundBindings × Queue
  | [], r, q => (some r, q)
  | e :: es, r, q =>
      if complaints options e = [] then scan es (add r e) (q.addAll (warnings e))
      else (none, q.addAll (complaints options e))

theorem scan_append (es fs : List Marked) (r : RoundBindings) (q : Queue) :
    scan options (es ++ fs) r q =
      match scan options es r q with
      | (some r, q) => scan options fs r q
      | (none, q) => (none, q) := by
  induction es generalizing r q with
  | nil => rfl
  | cons e es ih =>
      simp only [List.cons_append, scan]
      split
      · exact ih _ _
      · rfl

theorem addAll_append (q : Queue) (ds es : List Diagnostic) :
    q.addAll (ds ++ es) = (q.addAll ds).addAll es := List.foldl_append

theorem scan_cases (es : List Marked) (r : RoundBindings) (q : Queue) :
    ((∀ e ∈ es, complaints options e = []) ∧
      scan options es r q = (some (es.foldl add r), q.addAll (es.flatMap warnings))) ∨
    ∃ before e after, es = before ++ e :: after ∧ (∀ b ∈ before, complaints options b = []) ∧
      complaints options e ≠ [] ∧
      scan options es r q = (none, q.addAll (before.flatMap warnings ++ complaints options e)) := by
  induction es generalizing r q with
  | nil => exact .inl ⟨nofun, rfl⟩
  | cons e es ih =>
      by_cases h : complaints options e = []
      · rcases ih (add r e) (q.addAll (warnings e)) with
          ⟨hall, hscan⟩ | ⟨before, d, after, hes, hb, hd, hscan⟩
        · refine .inl ⟨List.forall_mem_cons.mpr ⟨h, hall⟩, ?_⟩
          rw [scan, if_pos h, hscan, List.flatMap_cons, addAll_append, List.foldl_cons]
        · refine .inr ⟨e :: before, d, after, by rw [hes, List.cons_append],
            List.forall_mem_cons.mpr ⟨h, hb⟩, hd, ?_⟩
          rw [scan, if_pos h, hscan, List.flatMap_cons, List.append_assoc, ← addAll_append]
      · exact .inr ⟨[], e, es, rfl, nofun, h, by rw [scan, if_neg h]; rfl⟩

/-- What a pass leaves, without the evidence that errors were reported. -/
def outcome (x : Except ErrorsReported RoundBindings × Queue) : Option RoundBindings × Queue :=
  (x.1.toOption, x.2)

theorem ofMethod_eq_ok {viewType : ClassName} {m : MarkedMethod} {b : MethodBinding}
    (h : MethodBinding.ofMethod viewType m.host m.method m.ids = .ok b) : b = methodBinding m := by
  unfold MethodBinding.ofMethod at h
  unfold methodBinding
  split at h
  · next hp => cases h; rw [hp]; rfl
  · next p hp =>
      split at h
      · cases h; rw [hp]; rfl
      · cases h
  · cases h

theorem bindFields_eq (fs : List MarkedField) (r : RoundBindings) (q : Queue) :
    outcome (Session.bindFields options fs r q) = scan options (fs.map .field) r q := by
  induction fs generalizing r q with
  | nil => rfl
  | cons f fs ih =>
      rw [Session.bindFields, check_eq, List.map_cons, scan, complaints]
      cases Admission.objections options .viewById f.host (f.field.member f.host) with
      | nil => exact ih _ _
      | cons d ds => rfl

theorem bindMethods_eq (ms : List MarkedMethod) (r : RoundBindings) (q : Queue) :
    outcome (Session.bindMethods options ms r q) = scan options (ms.map .method) r q := by
  induction ms generalizing r q with
  | nil => rfl
  | cons m ms ih =>
      rw [Session.bindMethods, check_eq, List.map_cons, scan, complaints]
      cases Admission.objections options .onClick m.host (m.method.member m.host) with
      | cons d ds => rfl
      | nil =>
          cases hm : MethodBinding.ofMethod options.viewType m.host m.method m.ids with
          | error fault => rfl
          | ok b =>
              cases ofMethod_eq_ok hm
              have hq : (if m.ids.isEmpty then q.add (Session.noIdsWarning m.site) else q) =
                  q.addAll (warnings (.method m)) := by
                rw [warnings]
                split <;> rfl
              rw [if_pos rfl, ← hq]
              exact ih _ _

theorem bind_eq (round : Round) (q : Queue) :
    outcome (Session.bind options round q) = scan options (scanned round) .empty q := by
  rw [scanned, scan_append, ← bindFields_eq, Session.bind]
  cases Session.bindFields options round.markedFields .empty q with
  | mk result q =>
      cases result with
      | error reported => rfl
      | ok r => exact bindMethods_eq options _ r q

/-- Binding a round succeeds when nothing speaks against any member, and then gives the companions of
the groups. Otherwise the queue gets the warnings about the members before the first offending one
and the complaints about that one. -/
theorem bind_cases (round : Round) (q : Queue) :
    ((∀ e ∈ scanned round, complaints options e = []) ∧
      ∃ r, Session.bind options round q = (.ok r, q.addAll ((scanned round).flatMap warnings)) ∧
        r.companions.map Aggregates.bare = companions (scanned round)) ∨
    ∃ before e after, scanned round = before ++ e :: after ∧
      (∀ b ∈ before, complaints options b = []) ∧ complaints options e ≠ [] ∧
      ∃ reported, Session.bind options round q =
        (.error reported, q.addAll (before.flatMap warnings ++ complaints options e)) := by
  have hbind := bind_eq options round q
  generalize Session.bind options round q = x at hbind
  obtain ⟨result, left⟩ := x
  rcases scan_cases options (scanned round) .empty q with
    ⟨hall, hscan⟩ | ⟨before, e, after, hes, hb, he, hscan⟩
  · rw [hscan] at hbind
    obtain ⟨hr, rfl⟩ := Prod.mk.inj hbind
    cases result with
    | error reported => cases hr
    | ok r =>
        cases hr
        exact .inl ⟨hall, _, rfl, (collects_foldl collects_empty _).companions_eq⟩
  · rw [hscan] at hbind
    obtain ⟨hr, rfl⟩ := Prod.mk.inj hbind
    cases result with
    | error reported => exact .inr ⟨before, e, after, hes, hb, he, reported, rfl⟩
    | ok r => cases hr

end ViewBinding.Proofs.Scan
