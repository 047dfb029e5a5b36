import ViewBinding.Proofs.Attempts

namespace ViewBinding.Proofs.Attribution

open Java Grouping Grounds Scan Handover History Course Verdict Attempts

def Around (d c : ClassName) : Prop := d.package = c.package ∧ d.names <+: c.names

theorem around_self (c : ClassName) : Around c c := ⟨rfl, List.prefix_rfl⟩

theorem around_enclosing (c : ClassName) (depth : Nat) : Around (c.enclosing depth) c :=
  ⟨rfl, (List.prefix_cons_inj c.outermost).mpr (List.take_prefix depth c.inner)⟩

theorem around_outermostPrivate {host : TypeDecl} {scope : ClassName}
    (h : OutermostPrivate host scope) : Around scope host.name := by
  obtain ⟨depth, rfl, -⟩ := h
  exact around_enclosing host.name depth

/-- A report about a host or the classes around it, for which a round is given up or not. -/
structure Attributed (host : ClassName) (aborts : Bool) (d : Diagnostic) : Prop where
  aborts : d.code.abortsRound = aborts
  severity : d.severity = .error ↔ d.code.isWarning = false
  site : ∃ site, d.primary? = some site ∧ Around site.owner host

variable {σ : Type} (options : Options)

/-- The codes of reserved namespaces are those of classes that may not be hosts. -/
def HostCodes : Prop := ∀ n ∈ options.reserved, n.code = .frameworkHost ∨ n.code = .coreHost

variable {options}

theorem attributed_objections (hcodes : HostCodes options) {marker : Marker} {host : TypeDecl}
    {member : Member} {d : Diagnostic} (hsite : member.site.owner = host.name)
    (hd : d ∈ Admission.objections options marker host member) : Attributed host.name true d := by
  obtain ⟨hseverity, hcode, hprimary⟩ := of_mem_objections options hd
  have hobjects : d.code.abortsRound = true ∧ d.code.isWarning = false := by
    rcases hcode with hcode | hcode | ⟨n, hn, hcode⟩
    · rw [hcode]
      exact ⟨rfl, rfl⟩
    · rw [hcode]
      exact ⟨rfl, rfl⟩
    · rcases hcodes n hn with hn | hn <;> rw [hcode, hn] <;> exact ⟨rfl, rfl⟩
  refine ⟨hobjects.1, iff_of_true hseverity hobjects.2, ?_⟩
  rcases hprimary with hprimary | hprimary | ⟨scope, hscope, hprimary⟩
  · exact ⟨member.site, hprimary, hsite ▸ around_self _⟩
  · exact ⟨host.site, hprimary, around_self _⟩
  · exact ⟨.type scope, hprimary, around_outermostPrivate hscope⟩

theorem attributed_handlerFault (fault : HandlerFault) :
    Attributed fault.method.owner true fault.diagnostic := by
  cases fault <;> exact ⟨rfl, iff_of_true rfl rfl, _, rfl, around_self _⟩

theorem attributed_complaints (hcodes : HostCodes options) {e : Marked} {d : Diagnostic}
    (hd : d ∈ complaints options e) : Attributed e.host.name true d := by
  rcases complaints_cases options hd with ⟨marker, member, hsite, hd⟩ | ⟨fault, howner, rfl⟩
  · exact attributed_objections hcodes hsite hd
  · exact howner ▸ attributed_handlerFault fault

theorem attributed_warnings {e : Marked} {d : Diagnostic} (hd : d ∈ warnings e) :
    Attributed e.host.name false d := by
  cases e with
  | field f => cases hd
  | method m =>
      rw [warnings] at hd
      split at hd
      · have hseverity : (Session.noIdsWarning m.site).severity ≠ .error := by
          intro h
          cases h
        rw [List.mem_singleton.mp hd]
        exact ⟨rfl, iff_of_false hseverity Bool.noConfusion, m.site, rfl, around_self _⟩
      · cases hd

theorem attributed_writeError (fault : WriteFault) (c : ClassName) :
    Attributed c false (Session.writeError fault c) := by
  cases fault <;> exact ⟨rfl, iff_of_true rfl rfl, .type c, rfl, around_self c⟩

/-- What a report was made for: a handler without views, something that keeps a member from being bound,
or the companion of the member's host, which could not be written. -/
inductive Cause (options : Options) (round : Round) (calls : List Call) (e : Marked) (d : Diagnostic) : Prop
  | warning (h : d ∈ warnings e)
  | complaint (h : d ∈ complaints options e)
  | refusal (call : Call) (fault : WriteFault) (hcall : (e.host.name, call) ∈ attempts round calls)
      (hanswer : call.answer = .error fault) (h : d = Session.writeError fault e.host.name)

theorem Cause.attributed (hcodes : HostCodes options) {round : Round} {calls : List Call} {e : Marked}
    {d : Diagnostic} (h : Cause options round calls e d) : ∃ aborts, Attributed e.host.name aborts d := by
  cases h with
  | warning h => exact ⟨false, attributed_warnings h⟩
  | complaint h => exact ⟨true, attributed_complaints hcodes h⟩
  | refusal call fault _ _ h => exact ⟨false, h ▸ attributed_writeError fault e.host.name⟩

theorem cause_of_refusal {round : Round} {calls : List Call} {d : Diagnostic}
    (hd : d ∈ refusals (companions (scanned round)) (calls.map Call.answer)) :
    ∃ e ∈ scanned round, Cause options round calls e d := by
  rw [refusals_eq_attempts] at hd
  obtain ⟨⟨host, call⟩, hattempt, hrefusal⟩ := List.mem_filterMap.mp hd
  obtain ⟨e, he, rfl⟩ := mem_hosts.mp (List.of_mem_zip hattempt).1
  rw [refusal?] at hrefusal
  split at hrefusal
  · cases hrefusal
  · next fault hanswer =>
      cases hrefusal
      exact ⟨e, he, .refusal call fault hattempt hanswer rfl⟩

theorem aborts_mem_reports (hcodes : HostCodes options) (round : Round)
    (answers : List (Except WriteFault Path)) :
    (∃ d ∈ reports options round answers, d.code.abortsRound = true) ↔ givenUp options round = true := by
  have hscan : (∃ d ∈ scanReports options (scanned round), d.code.abortsRound = true) ↔
      givenUp options round = true := by
    rw [exists_mem_scanReports options
      (fun e d hd => Bool.eq_false_iff.mp (attributed_warnings hd).aborts)
      (fun e d hd => (attributed_complaints hcodes hd).aborts), givenUp, List.any_eq_true]
    simp
  have hrefusals : ¬ ∃ d ∈ refusals (companions (scanned round)) answers, d.code.abortsRound = true := by
    rintro ⟨d, hd, haborts⟩
    obtain ⟨⟨c, answer⟩, -, hanswer⟩ := List.mem_filterMap.mp hd
    cases answer with
    | ok path => cases hanswer
    | error fault =>
        cases hanswer
        rw [(attributed_writeError fault c.host).aborts] at haborts
        cases haborts
  simp only [reports, List.mem_append, or_and_right, exists_or, hscan]
  exact or_iff_left hrefusals

variable (options)

/-- With an unlimited queue a round is given up exactly if something is reported for whose code a round
is given up. Every report is an error exactly if its code is none of a warning. It has a cause among the
marked members, and the declaration it is about belongs to the host of that member or to a class around
the host. -/
theorem process_attributes_reports (hcodes : HostCodes options) (create : Filer (StateM σ)) (round : Round)
    (s : Session) (hqueue : s.queue.config = .unlimited) (w : σ) :
    match observe (Session.process options (logged create) round s) w with
    | ((result, after), calls, _) =>
        ∃ queued, after.queue.items = s.queue.items ++ queued ∧
          ((∃ reported, result = .error reported) ↔ ∃ d ∈ queued, d.code.abortsRound = true) ∧
          ∀ d ∈ queued, (d.severity = .error ↔ d.code.isWarning = false) ∧
            ∃ e ∈ scanned round, Cause options round calls e d ∧
              ∃ site, d.primary? = some site ∧ Around site.owner e.host.name := by
  obtain ⟨result, after, hrun, hresult, -, hafter⟩ := observe_process_cases options create round s w
  have haborts := aborts_mem_reports hcodes round (answersTo create (handed options round) w).1
  rw [hrun]
  refine ⟨_, by rw [hafter, items_addAll_unlimited hqueue], Iff.trans ?_ haborts.symm, fun d hd => ?_⟩
  · rcases hresult with ⟨hup, -, reported, rfl⟩ | ⟨hup, rfl⟩
    · exact iff_of_true ⟨reported, rfl⟩ hup
    · exact iff_of_false nofun (Bool.eq_false_iff.mp hup)
  · have hcause : ∃ e ∈ scanned round,
        Cause options round (callsFor create (handed options round) w) e d := by
      rcases List.mem_append.mp hd with hd | hd
      · obtain ⟨e, he, hd | hd⟩ := mem_scanReports options hd
        · exact ⟨e, he, .warning hd⟩
        · exact ⟨e, he, .complaint hd⟩
      · rw [← map_answer_callsFor] at hd
        exact cause_of_refusal hd
    obtain ⟨e, he, hcause⟩ := hcause
    obtain ⟨aborts, hattributed⟩ := hcause.attributed hcodes
    exact ⟨hattributed.severity, e, he, hcause, hattributed.site⟩

def privateInner : TypeDecl :=
  ⟨(ClassName.ofTopLevel "app" "Screen").nested "Panel", .ordinary, ∅, [.ofList [.privateAccess]],
    [⟨"title", .ofClass Options.viewClass, ∅, some 1⟩], []⟩

/-- The round is given up for the class around the host of the field. -/
theorem process_attributes_privateInner :
    HostCodes .standard ∧ (Session.start .unlimited).queue.config = .unlimited ∧
    match observe (Session.process .standard (logged MemoryFiles.create) ⟨[privateInner]⟩
      (.start .unlimited)) .empty with
    | ((result, after), _, _) =>
        (∃ reported, result = .error reported) ∧
        after.queue.items.map (fun d => (d.code, d.primary?)) =
          [(.hiddenMember, some (.type (.ofTopLevel "app" "Screen")))] ∧
        Around (.ofTopLevel "app" "Screen") privateInner.name := by
  have hcodes : HostCodes .standard := by
    rw [HostCodes]
    decide
  have h := process_attributes_reports .standard hcodes MemoryFiles.create ⟨[privateInner]⟩
    (.start .unlimited) rfl .empty
  obtain ⟨result, after, hrun, -, -, hafter⟩ :=
    observe_process_cases .standard MemoryFiles.create ⟨[privateInner]⟩ (.start .unlimited) .empty
  have hitems : after.queue.items.map (fun d => (d.code, d.primary?)) =
      [(.hiddenMember, some (.type (.ofTopLevel "app" "Screen")))] := by
    rw [hafter]
    rfl
  rw [hrun] at h ⊢
  obtain ⟨queued, hqueued, hresult, hreports⟩ := h
  change after.queue.items = [] ++ queued at hqueued
  rw [hqueued, List.nil_append] at hitems
  obtain ⟨d, rfl, hd⟩ := List.map_eq_singleton_iff.mp hitems
  obtain ⟨hcode, hprimary⟩ := Prod.mk.inj hd
  obtain ⟨-, e, he, -, site, hsite, haround⟩ := hreports d List.mem_cons_self
  have hhost : e.host = privateInner := by
    rw [List.mem_singleton.mp (show e ∈ [_] from he)]
    rfl
  rw [hsite] at hprimary
  cases hprimary
  rw [hhost] at haround
  refine ⟨hcodes, rfl, hresult.mpr ⟨d, List.mem_cons_self, ?_⟩, ?_, haround⟩
  · rw [hcode]
    rfl
  · rw [hqueued]
    exact hitems

end ViewBinding.Proofs.Attribution
