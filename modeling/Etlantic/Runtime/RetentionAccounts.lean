import Etlantic.Runtime.RetentionRuns

/-!
# The accounts of the references

Where an expired reference of a row stands: it is deferred, or it is in the
ledger of the settled and carried references.  A report is complete when nothing
of it is deferred and none of its files failed.
-/

namespace Etlantic.Runtime

open ControlPlane (Instant seconds)

variable {h : Host}

def System.ledger (s : System) : List (String × String) := s.settled ++ s.carried

/-- Every expired reference of a row that is still to be completed is accounted for. -/
def RowAccounted (ledger : List (String × String)) (row : PipelineRunReport) : Prop :=
  row.retention = some .complete ∨
    ∀ a ∈ row.artifacts, a.durable = true → a.expired = true →
      a.identity ∈ row.deferred ∨ (row.runId, a.identity) ∈ ledger

/-- Where the work on a report stands. -/
structure WorkAccounted (h : Host) (d : Disk) (ledger : List (String × String))
    (work : ReportSection) : Prop where
  running : work.working.retention = some .running
  expired : ∀ a ∈ work.working.artifacts, a.durable = true → a.expired = true →
    a.identity ∈ work.working.deferred ∨ (work.working.runId, a.identity) ∈ ledger
  passed : work.failed = 0 → ∀ i < work.index, ∀ a, work.working.artifacts[i]? = some a →
    a.durable = true → a.expired = true
  unlinked : work.step = .expire → ∀ a, work.working.artifacts[work.index]? = some a →
    work.spares (h.hash a.identity) = true ∨ (work.workspace, h.hash a.identity) ∉ d.files
  marked : work.step = .record → ∀ a, work.working.artifacts[work.index]? = some a →
    work.defers (h.hash a.identity) = true ∨ (work.working.runId, a.identity) ∈ ledger

def PassAccounted (h : Host) (d : Disk) (ledger : List (String × String)) (p : Pass) : Prop :=
  match p.stage with
  | .report work _ => WorkAccounted h d ledger work
  | _ => True

theorem RowAccounted.mono {ledger ledger' : List (String × String)} {row : PipelineRunReport}
    (hacc : RowAccounted ledger row) (hsub : ∀ r ∈ ledger, r ∈ ledger') :
    RowAccounted ledger' row := by
  rcases hacc with hcomplete | hall
  · exact .inl hcomplete
  · exact .inr fun a ha hd hx => (hall a ha hd hx).imp_right (hsub _)

theorem PassAccounted.mono {d d' : Disk} {ledger ledger' : List (String × String)} {p : Pass}
    (hacc : PassAccounted h d ledger p) (hsafe : PassSafe h d p)
    (hsub : ∀ r ∈ ledger, r ∈ ledger')
    (hfiles : ∀ workspace, p.holds = some workspace → ∀ stem,
      (workspace, stem) ∈ d'.files → (workspace, stem) ∈ d.files) :
    PassAccounted h d' ledger' p := by
  unfold PassAccounted at hacc ⊢
  unfold PassSafe at hsafe
  unfold Pass.holds at hfiles
  cases hstage : p.stage with
  | report work rest =>
      simp only [hstage] at hacc hsafe hfiles ⊢
      refine ⟨hacc.running, fun a ha hd hx => (hacc.expired a ha hd hx).imp_right (hsub _),
        hacc.passed, fun hstep a hart => ?_,
        fun hstep a hart => (hacc.marked hstep a hart).imp_right (hsub _)⟩
      have hguarded : work.guarded = true :=
        hsafe.locked (by rw [hstep]; decide) (by rw [hstep]; decide)
      rcases hacc.unlinked hstep a hart with hspares | hfile
      · exact .inl hspares
      · exact .inr fun hmem => hfile (hfiles work.workspace (by rw [if_pos hguarded]) _ hmem)
  | orphan _ _ => trivial
  | orphans _ => trivial
  | selecting => trivial
  | reports _ => trivial
  | ended => trivial

theorem PassAccounted.of_idle {d : Disk} {ledger : List (String × String)} {p : Pass}
    (hidle : p.stage.idle) : PassAccounted h d ledger p := by
  unfold PassAccounted
  cases hstage : p.stage with
  | report work rest => exact absurd hidle (by rw [hstage]; exact id)
  | orphan _ _ => trivial
  | orphans _ => trivial
  | selecting => trivial
  | reports _ => trivial
  | ended => trivial

/-! ## One step -/

/-- What a step does to the accounts. -/
structure StepAccounted (h : Host) (d : Disk) (ledger : List (String × String)) (o : Outcome) :
    Prop where
  pass : PassAccounted h (d.after o.write) (o.settles.toList ++ ledger) o.pass
  row : ∀ row, o.write = some (.putRow row) → RowAccounted (o.settles.toList ++ ledger) row
  complete : ∀ row, o.write = some (.putRow row) → row.retention = some .complete →
    ∀ a ∈ row.artifacts, a.durable = true → (row.runId, a.identity) ∈ ledger

theorem StepAccounted.of_no_row {d : Disk} {ledger : List (String × String)} {o : Outcome}
    (hpass : PassAccounted h (d.after o.write) (o.settles.toList ++ ledger) o.pass)
    (hwrite : ∀ row, o.write ≠ some (.putRow row)) : StepAccounted h d ledger o :=
  ⟨hpass, fun row hw => absurd hw (hwrite row), fun row hw => absurd hw (hwrite row)⟩

/-- A pass that is not at work on a report has nothing to account for. -/
theorem PassAccounted.of_other {d : Disk} {ledger : List (String × String)} {p : Pass}
    (hother : ∀ work rest, p.stage ≠ .report work rest) : PassAccounted h d ledger p := by
  unfold PassAccounted
  cases hstage : p.stage with
  | report work rest => exact absurd hstage (hother work rest)
  | orphan _ _ => trivial
  | orphans _ => trivial
  | selecting => trivial
  | reports _ => trivial
  | ended => trivial

theorem openOrphans_stage {d : Disk} {acquired : Bool} {p : Pass} {workspace : String}
    {rest : List String} (work : ReportSection) (rest' : List PipelineRunReport) :
    (openOrphans h d acquired p workspace rest).stage ≠ .report work rest' := by
  unfold openOrphans
  split
  · exact fun hno => by cases hno
  split
  · exact fun hno => by cases hno
  dsimp only
  split
  · exact fun hno => by cases hno
  split
  · split
    · exact fun hno => by cases hno
    · split
      · exact fun hno => by cases hno
      · exact fun hno => by cases hno
  · exact fun hno => by cases hno

theorem orphanStep_accounted {d : Disk} {ledger : List (String × String)} {ok : Bool} {p : Pass}
    {work : OrphanSection} {rest : List String} :
    StepAccounted h d ledger (orphanStep ok p work rest) := by
  have hnone : ∀ (p' : Pass) (w : Option Write), (∀ work rest, p'.stage ≠ .report work rest) →
      (∀ row, w ≠ some (.putRow row)) → StepAccounted h d ledger { pass := p', write := w } :=
    fun p' w hstage hw => StepAccounted.of_no_row (PassAccounted.of_other hstage) hw
  have hreport : ∀ (work' : OrphanSection) (rest' : List String) (work : ReportSection)
      (rest : List PipelineRunReport), Stage.orphan work' rest' ≠ .report work rest :=
    fun _ _ _ _ hno => by cases hno
  have hno : ∀ row, (none : Option Write) ≠ some (.putRow row) := fun _ hno => by cases hno
  unfold orphanStep
  split
  · exact hnone _ none (fun _ _ hno => by cases hno) hno
  dsimp only
  split
  · split
    · exact hnone _ none (fun _ _ hno => by cases hno) hno
    · split
      · exact hnone _ (some (.expire _ _)) (hreport _ _) fun _ hno => by cases hno
      · exact hnone _ none (hreport _ _) hno
  · split
    · exact hnone _ none (hreport _ _) hno
    · split
      · exact hnone _ (some (.unlink _ _)) (hreport _ _) fun _ hno => by cases hno
      · exact hnone _ none (hreport _ _) hno
  · split
    · exact hnone _ none (fun _ _ hno => by cases hno) hno
    · cases ok with
      | true => exact hnone _ (some (.putOwner _ _ _)) (hreport _ _) fun _ hno => by cases hno
      | false => exact hnone _ none (hreport _ _) hno

theorem deferred_announced (settings : RetentionSettings) (report : PipelineRunReport) :
    (announced settings report).deferred = report.deferred := by
  unfold PipelineRunReport.deferred announced
  cases report.details with
  | none => rfl
  | some details => rfl

theorem openReport_accounted {d : Disk} {ledger : List (String × String)} {p : Pass}
    {candidate : PipelineRunReport} {workspace : String} {durable : Bool}
    {rest : List PipelineRunReport} (hrows : ∀ row ∈ d.inventory, RowAccounted ledger row) :
    PassAccounted h d ledger (openReport h d p candidate workspace durable rest) := by
  unfold openReport
  split
  · exact PassAccounted.of_idle trivial
  rename_i reports hreports
  split
  · exact PassAccounted.of_idle trivial
  rename_i report hfind
  by_cases helig : p.settings.eligible report = true
  · rw [if_neg (by simp [helig])]
    split
    · exact PassAccounted.of_idle trivial
    split
    · exact PassAccounted.of_idle trivial
    split
    · exact PassAccounted.of_idle trivial
    obtain ⟨row, hrow, hn⟩ : ∃ row ∈ d.inventory, normalize h row = some report := by
      have hmem := List.mem_of_find?_eq_some hfind
      exact Checked.exists_of_forall₂ (Checked.forall₂_of_mapM_some hreports).flip hmem
    have hspec := normalize_spec h hn
    -- An eligible report is verified and not complete.
    have hpending : report.retention ≠ some .complete ∧ report.unverified = false := by
      unfold RetentionSettings.eligible RetentionSettings.pending at helig
      simp only [Bool.and_eq_true, decide_eq_true_eq, Bool.not_eq_true'] at helig
      exact ⟨helig.1.1.2, helig.1.2⟩
    refine ⟨rfl, fun a ha hd hx => ?_, fun _ i hi => absurd hi (Nat.not_lt_zero i),
      fun hstep => (by cases hstep), fun hstep => (by cases hstep)⟩
    show a.identity ∈ (announced p.settings report).deferred ∨ (report.runId, a.identity) ∈ ledger
    rw [deferred_announced]
    rcases hspec.kept with ⟨hartifacts, hdetails, hstate⟩ | hfresh
    · have hretention : row.retention ≠ some .complete := by
        rcases hstate with hunverified | hstate
        · rw [hpending.2] at hunverified
          cases hunverified
        · rw [← hstate]
          exact hpending.1
      have hdeferred : report.deferred = row.deferred := by
        unfold PipelineRunReport.deferred
        rw [hdetails]
      rcases hrows row hrow with hcomplete | hall
      · exact absurd hcomplete hretention
      · rw [hdeferred, hspec.runId]
        exact hall a (hartifacts ▸ ha) hd hx
    · rw [hfresh a ha hd] at hx
      cases hx
  · rw [if_pos (by simpa using helig)]
    exact PassAccounted.of_idle trivial

theorem openCandidate_accounted {d : Disk} {ledger : List (String × String)}
    {acquired : String → Bool} {p : Pass} {candidate : PipelineRunReport}
    {rest : List PipelineRunReport} (hrows : ∀ row ∈ d.inventory, RowAccounted ledger row) :
    PassAccounted h d ledger (openCandidate h d acquired p candidate rest) := by
  unfold openCandidate
  split
  · exact PassAccounted.of_idle trivial
  split
  · exact PassAccounted.of_idle trivial
  split
  · exact PassAccounted.of_idle trivial
  dsimp only
  split
  · exact PassAccounted.of_idle trivial
  split
  · exact PassAccounted.of_idle trivial
  · exact openReport_accounted hrows

/-- Concluding a report changes neither its artifacts nor what is deferred. -/
theorem concluded_same (settings : RetentionSettings) (work : ReportSection) :
    (work.concluded h settings).runId = work.working.runId ∧
      (work.concluded h settings).artifacts = work.working.artifacts ∧
      (work.concluded h settings).deferred = work.working.deferred := by
  have hdeferred : ∀ f : RetentionDetails → RetentionDetails,
      (∀ details, (f details).deferredArtifactIds = details.deferredArtifactIds) →
      (f (work.working.details.getD {})).deferredArtifactIds = work.working.deferred := by
    intro f hf
    rw [hf]
    unfold PipelineRunReport.deferred
    cases work.working.details with
    | none => rfl
    | some details => rfl
  unfold ReportSection.concluded
  dsimp only
  split
  · exact ⟨rfl, rfl, hdeferred (fun details => { details with
      updatedAt := some settings.current
      failedArtifacts := work.failed
      failureCode := if work.failed = 0 then none else some "filesystem_cleanup_failed" })
      fun _ => rfl⟩
  · split
    · exact ⟨rfl, rfl, hdeferred (fun details => { details with
        updatedAt := some settings.current
        failedArtifacts := work.failed
        failureCode := if work.failed = 0 then none else some "filesystem_cleanup_failed"
        retryAfter := work.retryAt h settings }) fun _ => rfl⟩
    · exact ⟨rfl, rfl, hdeferred (fun details => { details with
        updatedAt := some settings.current
        failedArtifacts := work.failed
        failureCode := if work.failed = 0 then none else some "filesystem_cleanup_failed" })
        fun _ => rfl⟩

/-- A report is completed only without failures and without deferred artifacts. -/
theorem of_concluded_complete {settings : RetentionSettings} {work : ReportSection}
    (hcomplete : (work.concluded h settings).retention = some .complete) :
    work.failed = 0 ∧ work.working.deferred = [] := by
  unfold ReportSection.concluded at hcomplete
  dsimp only at hcomplete
  split at hcomplete
  · cases hcomplete
  · rename_i hfailed
    split at hcomplete
    · cases hcomplete
    · rename_i hdeferred
      exact ⟨not_not.mp hfailed, by simpa using hdeferred⟩

/-- After the expiry of its artifact, a row is still accounted for. -/
theorem recorded_expired {d : Disk} {ledger : List (String × String)} {work : ReportSection}
    (hacc : WorkAccounted h d ledger work) (hstep : work.step = .record) {a : ArtifactResult}
    (hart : work.working.artifacts[work.index]? = some a) :
    ∀ b ∈ (work.recorded h a).artifacts, b.durable = true → b.expired = true →
      b.identity ∈ (work.recorded h a).deferred ∨ (work.working.runId, b.identity) ∈ ledger := by
  intro b hb hd hx
  have hdeferred : (work.recorded h a).deferred = sortedSet
      (if work.defers (h.hash a.identity) then a.identity :: work.working.deferred
        else work.working.deferred.filter (· ≠ a.identity)) := rfl
  rw [hdeferred, mem_sortedSet]
  have hmarked := hacc.marked hstep a hart
  by_cases hsame : b.identity = a.identity
  · rw [hsame]
    rcases hmarked with hdefers | hledger
    · rw [if_pos hdefers]
      exact .inl List.mem_cons_self
    · exact .inr hledger
  · have hold : b ∈ work.working.artifacts := by
      rcases List.mem_or_eq_of_mem_set hb with hmem | rfl
      · exact hmem
      · exact absurd rfl hsame
    rcases hacc.expired b hold hd hx with hin | hledger
    · left
      split
      · exact List.mem_cons_of_mem _ hin
      · exact List.mem_filter.mpr ⟨hin, by simpa using hsame⟩
    · exact .inr hledger

section Report

variable {d : Disk} {ledger : List (String × String)} {ok : Bool} {p : Pass}
  {work : ReportSection} {rest : List PipelineRunReport}

theorem WorkAccounted.pass (hacc : WorkAccounted h d ledger work)
    (hstage : p.stage = .report work rest) : PassAccounted h d ledger p := by
  unfold PassAccounted
  simp only [hstage]
  exact hacc

/-- The loop goes on to another artifact. -/
theorem WorkAccounted.scan (hacc : WorkAccounted h d ledger work) (index failed : Nat)
    (hstage : p.stage = .report { work with index := index, failed := failed, step := .scan } rest)
    (hpassed : failed = 0 → ∀ i < index, ∀ a, work.working.artifacts[i]? = some a →
      a.durable = true → a.expired = true) : StepAccounted h d ledger { pass := p } := by
  have hscan : WorkAccounted h d ledger
      { work with index := index, failed := failed, step := .scan } :=
    ⟨hacc.running, hacc.expired, hpassed, fun hstep => (by cases hstep),
      fun hstep => (by cases hstep)⟩
  exact StepAccounted.of_no_row (hscan.pass hstage) fun _ hno => by cases hno

/-- The loop goes on past an artifact that has expired if it is durable. -/
theorem WorkAccounted.skip (hacc : WorkAccounted h d ledger work) {a : ArtifactResult}
    (hart : work.working.artifacts[work.index]? = some a)
    (hskipped : a.durable = true → a.expired = true)
    (hstage : p.stage = .report { work with index := work.index + 1, step := .scan } rest) :
    StepAccounted h d ledger { pass := p } := by
  refine hacc.scan (work.index + 1) work.failed hstage fun hfailed i hi b hb hd => ?_
  rcases Nat.lt_succ_iff_lt_or_eq.mp hi with hlt | rfl
  · exact hacc.passed hfailed i hlt b hb hd
  · rw [hart] at hb
    obtain rfl := Option.some.inj hb
    exact hskipped hd

/-- Every artifact of a report that ends complete is in the ledger. -/
theorem WorkAccounted.complete (hacc : WorkAccounted h d ledger work)
    {settings : RetentionSettings} (hlast : work.working.artifacts[work.index]? = none)
    (hcomplete : (work.concluded h settings).retention = some .complete) {a : ArtifactResult}
    (ha : a ∈ work.working.artifacts) (hd : a.durable = true) :
    (work.working.runId, a.identity) ∈ ledger := by
  obtain ⟨hfailed, hnone⟩ := of_concluded_complete hcomplete
  obtain ⟨i, hi, hget⟩ := List.mem_iff_getElem.mp ha
  have hlength : work.working.artifacts.length ≤ work.index := List.getElem?_eq_none_iff.mp hlast
  have hx := hacc.passed hfailed i (Nat.lt_of_lt_of_le hi hlength) a
    (List.getElem?_eq_some_iff.mpr ⟨hi, hget⟩) hd
  rcases hacc.expired a ha hd hx with hin | hledger
  · rw [hnone] at hin
    cases hin
  · exact hledger

theorem reportStep_accounted (hacc : WorkAccounted h d ledger work) :
    StepAccounted h d ledger (reportStep h d ok p work rest) := by
  have hidle : ∀ p' : Pass, p'.stage.idle → StepAccounted h d ledger { pass := p' } :=
    fun p' hidle => StepAccounted.of_no_row (PassAccounted.of_idle hidle) fun _ hno => by cases hno
  have hwork : ∀ (p' : Pass) (work' : ReportSection) (d' : Disk) (ledger' : List (String × String)),
      p'.stage = .report work' rest → WorkAccounted h d' ledger' work' →
      PassAccounted h d' ledger' p' := fun _ _ _ _ hst hacc' => hacc'.pass hst
  have hmiss : ∀ p' : Pass, p'.stage = .report { work with
      index := work.index + 1, failed := work.failed + 1, step := .scan } rest →
      StepAccounted h d ledger { pass := p' } :=
    fun _ hst => hacc.scan _ _ hst fun hzero => by cases hzero
  have hrunning : ∀ row : PipelineRunReport, row.retention = some .running →
      row.retention = some .complete → False := by
    intro row hrun hcomplete
    rw [hrun] at hcomplete
    cases hcomplete
  unfold reportStep
  cases hstep : work.step with
  | announce =>
      dsimp only
      split
      · refine ⟨hwork _ _ _ _ rfl ⟨hacc.running, hacc.expired, hacc.passed,
          fun hstep => (by cases hstep), fun hstep => (by cases hstep)⟩, ?_, ?_⟩
        · intro row hw
          obtain ⟨⟩ := Option.some.inj hw
          exact .inr hacc.expired
        · intro row hw hcomplete
          obtain ⟨⟩ := Option.some.inj hw
          exact (hrunning _ hacc.running hcomplete).elim
      · exact hidle _ trivial
  | scan =>
      cases hart : work.working.artifacts[work.index]? with
      | none =>
          dsimp only
          split
          · obtain ⟨hrunId, hartifacts, hdeferred⟩ := concluded_same (h := h) p.settings work
            refine ⟨PassAccounted.of_idle trivial, ?_, ?_⟩
            · intro row hw
              obtain ⟨⟩ := Option.some.inj hw
              right
              rw [hrunId, hartifacts, hdeferred]
              exact hacc.expired
            · intro row hw hcomplete a ha hd
              obtain ⟨⟩ := Option.some.inj hw
              rw [hartifacts] at ha
              rw [hrunId]
              exact hacc.complete hart hcomplete ha hd
          · exact hidle _ trivial
      | some a =>
          dsimp only
          split
          · rename_i hdone
            refine hacc.skip hart (fun hd => ?_) rfl
            rw [hd] at hdone
            simp only [Bool.not_true, Bool.false_or, Bool.and_eq_true] at hdone
            exact hdone.1
          split
          · rename_i hdeferred
            refine hacc.skip hart (fun _ => ?_) rfl
            simp only [Bool.and_eq_true] at hdeferred
            exact hdeferred.1.1
          split
          · exact hidle _ trivial
          split
          · exact hidle _ trivial
          · exact StepAccounted.of_no_row (hwork _ _ _ _ rfl ⟨hacc.running, hacc.expired,
              hacc.passed, fun hstep => (by cases hstep), fun hstep => (by cases hstep)⟩)
              fun _ hno => by cases hno
  | unlink =>
      cases hart : work.working.artifacts[work.index]? with
      | none => exact hidle _ trivial
      | some a =>
          -- The file is spared, or it is gone.
          have hnext : ∀ (p' : Pass) (d' : Disk),
              p'.stage = .report { work with step := .expire } rest →
              (work.spares (h.hash a.identity) = true ∨
                (work.workspace, h.hash a.identity) ∉ d'.files) →
              PassAccounted h d' ledger p' := by
            intro p' d' hst hgone
            refine hwork p' _ d' ledger hst ⟨hacc.running, hacc.expired, hacc.passed,
              fun _ b hb => ?_, fun hstep => (by cases hstep)⟩
            rw [hart] at hb
            obtain rfl := Option.some.inj hb
            exact hgone
          dsimp only
          split
          · rename_i hspares
            exact StepAccounted.of_no_row (hnext _ _ rfl (.inl hspares)) fun _ hno => by cases hno
          split
          · refine StepAccounted.of_no_row (hnext _ _ rfl (.inr fun hmem => ?_))
              fun _ hno => by cases hno
            have hkept := (List.mem_filter.mp hmem).2
            simp at hkept
          · exact hmiss _ rfl
  | expire =>
      cases hart : work.working.artifacts[work.index]? with
      | none => exact hidle _ trivial
      | some a =>
          dsimp only
          split
          · refine StepAccounted.of_no_row (hwork _ _ _ _ rfl ⟨hacc.running,
              fun b hb hd hx => (hacc.expired b hb hd hx).imp_right
                (List.mem_append_right _), hacc.passed, fun hstep => (by cases hstep),
              fun _ b hb => ?_⟩) fun _ hno => by cases hno
            rw [hart] at hb
            obtain rfl := Option.some.inj hb
            by_cases hsettles : h.hash a.identity ∈ work.kept ∨
                (work.workspace, h.hash a.identity) ∉ d.files
            · right
              rw [if_pos hsettles]
              exact List.mem_append_left _ List.mem_cons_self
            · left
              rw [not_or] at hsettles
              rcases hacc.unlinked hstep a hart with hspares | hfile
              · unfold ReportSection.spares at hspares
                unfold ReportSection.defers
                simpa [hsettles.1] using hspares
              · exact absurd hfile hsettles.2
          · exact hmiss _ rfl
  | record =>
      cases hart : work.working.artifacts[work.index]? with
      | none => exact hidle _ trivial
      | some a =>
          have hexpired := recorded_expired hacc hstep hart
          dsimp only
          split
          · refine ⟨hwork _ _ _ _ rfl ⟨hacc.running, hexpired, fun hfailed i hi b hb hd => ?_,
              fun hstep => (by cases hstep), fun hstep => (by cases hstep)⟩, ?_, ?_⟩
            · change (work.working.artifacts.set work.index a.expire)[i]? = some b at hb
              rcases Nat.lt_succ_iff_lt_or_eq.mp hi with hlt | rfl
              · rw [List.getElem?_set_ne (Nat.ne_of_gt hlt)] at hb
                exact hacc.passed hfailed i hlt b hb hd
              · rw [List.getElem?_set_self (List.getElem?_eq_some_iff.mp hart).1] at hb
                obtain rfl := Option.some.inj hb
                exact ArtifactResult.expire_expired a
            · intro row hw
              obtain ⟨⟩ := Option.some.inj hw
              exact .inr hexpired
            · intro row hw hcomplete
              obtain ⟨⟩ := Option.some.inj hw
              exact (hrunning _ hacc.running hcomplete).elim
          · exact hidle _ trivial

end Report

theorem advance_accounted {d : Disk} {ledger : List (String × String)} {free : String → Bool}
    {ok : Bool} {p : Pass} (hrows : ∀ row ∈ d.inventory, RowAccounted ledger row)
    (hacc : PassAccounted h d ledger p) : StepAccounted h d ledger (advance h d free ok p) := by
  have hpass : ∀ p' : Pass, PassAccounted h d ledger p' → StepAccounted h d ledger { pass := p' } :=
    fun p' hacc' => StepAccounted.of_no_row hacc' fun _ hno => by cases hno
  unfold advance
  unfold PassAccounted at hacc
  cases hstage : p.stage with
  | orphans todo =>
      cases todo with
      | nil => exact hpass _ (PassAccounted.of_idle trivial)
      | cons workspace rest => exact hpass _ (PassAccounted.of_other openOrphans_stage)
  | orphan work rest => exact orphanStep_accounted
  | selecting =>
      apply hpass
      unfold select
      split
      · exact PassAccounted.of_idle trivial
      · exact PassAccounted.of_idle trivial
  | reports todo =>
      cases todo with
      | nil => exact hpass _ (PassAccounted.of_idle trivial)
      | cons candidate rest => exact hpass _ (openCandidate_accounted hrows)
  | report work rest =>
      simp only [hstage] at hacc
      exact reportStep_accounted hacc
  | ended =>
      apply hpass
      unfold PassAccounted
      simp only [hstage]

/-! ## Every run -/

structure Accounted (h : Host) (s : System) : Prop where
  locks : LockInvariant h s
  rows : ∀ row ∈ s.disk.inventory, RowAccounted s.ledger row
  passes : ∀ p ∈ s.passes, PassAccounted h s.disk s.ledger p

theorem accounted_fresh : Accounted h System.fresh :=
  ⟨lockInvariant_fresh, fun _ hrow => (by cases hrow), fun _ hp => (by cases hp)⟩

theorem mem_inventory_after {d : Disk} {w : Option Write} {row : PipelineRunReport}
    (hrow : row ∈ (d.after w).inventory) : row ∈ d.inventory ∨ w = some (.putRow row) := by
  cases w with
  | none => exact .inl hrow
  | some w =>
      cases w with
      | putRow put =>
          rcases Disk.mem_inventory_putRow.mp hrow with rfl | ⟨-, hold⟩
          · exact .inr rfl
          · exact .inl hold
      | expire _ _ => exact .inl hrow
      | unlink _ _ => exact .inl hrow
      | putOwner _ _ _ => exact .inl hrow

theorem Accounted.settle {s : System} (hinv : Accounted h s) {i : Nat} {p : Pass}
    (hp : s.passes[i]? = some p) {o : Outcome}
    (hstep : StepSafe h s.disk (fun workspace => !s.locked workspace) p o)
    (hacc : StepAccounted h s.disk s.ledger o) : Accounted h (s.settle i o) := by
  have hledger : (s.settle i o).ledger = o.settles.toList ++ s.ledger :=
    List.append_assoc _ _ _
  have hsub : ∀ r ∈ s.ledger, r ∈ (s.settle i o).ledger := by
    intro r hr
    rw [hledger]
    exact List.mem_append_right _ hr
  refine ⟨hinv.locks.settle hp hstep, fun row hrow => ?_, fun q hq => ?_⟩
  · rcases mem_inventory_after hrow with hold | hput
    · exact (hinv.rows row hold).mono hsub
    · rw [hledger]
      exact hacc.row row hput
  · obtain ⟨j, hj, hget⟩ := List.mem_iff_getElem.mp hq
    have hq' : (s.passes.set i o.pass)[j]? = some q := List.getElem?_eq_some_iff.mpr ⟨hj, hget⟩
    by_cases hij : i = j
    · subst hij
      rw [List.getElem?_set_self (List.getElem?_eq_some_iff.mp hp).1] at hq'
      obtain rfl := Option.some.inj hq'
      rw [hledger]
      exact hacc.pass
    · rw [List.getElem?_set_ne hij] at hq'
      have hmem := List.mem_of_getElem? hq'
      exact (hinv.passes q hmem).mono (hinv.locks.safe q hmem) hsub fun workspace hholds =>
        (noNew_advance hinv.locks hp hq' hij hstep.allowed hholds).files

/-- What happens outside the passes keeps the accounts, if what it puts is accounted for. -/
theorem Accounted.of_outside {s s' : System} (hinv : Accounted h s)
    (hlocks : LockInvariant h s') (hpasses : s'.passes = s.passes)
    (hledger : ∀ r ∈ s.ledger, r ∈ s'.ledger)
    (hrows : ∀ row ∈ s'.disk.inventory, row ∈ s.disk.inventory ∨ RowAccounted s'.ledger row)
    (hfiles : ∀ p ∈ s.passes, ∀ workspace, p.holds = some workspace → ∀ stem,
      (workspace, stem) ∈ s'.disk.files → (workspace, stem) ∈ s.disk.files) : Accounted h s' := by
  refine ⟨hlocks, fun row hrow => ?_, fun p hp => ?_⟩
  · rcases hrows row hrow with hold | hacc
    · exact (hinv.rows row hold).mono hledger
    · exact hacc
  · rw [hpasses] at hp
    exact (hinv.passes p hp).mono (hinv.locks.safe p hp) hledger (hfiles p hp)

theorem recordArtifactOwnership_same (workspace : String) (report : PipelineRunReport) (d : Disk) :
    ((recordArtifactOwnership h workspace report).foldl Disk.apply d).rows = d.rows ∧
      ((recordArtifactOwnership h workspace report).foldl Disk.apply d).files = d.files := by
  unfold recordArtifactOwnership
  dsimp only
  split
  · exact ⟨rfl, rfl⟩
  · exact ⟨rfl, rfl⟩

/-- A row that is put is accounted for by what it carries. -/
theorem rowAccounted_carries (row : PipelineRunReport) (settled carried : List (String × String)) :
    RowAccounted (settled ++ (carries row ++ carried)) row := by
  refine .inr fun a ha hd hx => ?_
  by_cases hdeferred : a.identity ∈ row.deferred
  · exact .inl hdeferred
  · refine .inr (List.mem_append_right _ (List.mem_append_left _ ?_))
    refine List.mem_map.mpr ⟨a, List.mem_filter.mpr ⟨ha, ?_⟩, rfl⟩
    simp [hd, hx, hdeferred]

theorem accounted_next {s : System} (hinv : Accounted h s) (a : Action) :
    Accounted h (next h s a) := by
  have hlocks := lockInvariant_next hinv.locks a
  cases a with
  | start settings =>
      refine ⟨hlocks, hinv.rows, fun p hp => ?_⟩
      rcases List.mem_append.mp hp with hmem | hlast
      · exact hinv.passes p hmem
      · rw [List.mem_singleton] at hlast
        rw [hlast]
        exact PassAccounted.of_idle trivial
  | advance i ok =>
      cases hp : s.passes[i]? with
      | none =>
          simp only [next, hp]
          exact hinv
      | some p =>
          simp only [next, hp]
          have hmem := List.mem_of_getElem? hp
          exact hinv.settle hp (advance_safe (hinv.locks.safe p hmem))
            (advance_accounted hinv.rows (hinv.passes p hmem))
  | crash i =>
      cases hp : s.passes[i]? with
      | none =>
          simp only [next, hp]
          exact hinv
      | some p =>
          simp only [next, hp] at hlocks ⊢
          refine ⟨hlocks, hinv.rows, fun q hq => ?_⟩
          rcases List.mem_or_eq_of_mem_set hq with hold | rfl
          · exact hinv.passes q hold
          · exact PassAccounted.of_idle trivial
  | writeArtifact workspace stem =>
      cases hlocked : s.locked workspace with
      | true =>
          simp only [next, hlocked, if_true]
          exact hinv
      | false =>
          simp only [next, hlocked, Bool.false_eq_true, if_false] at hlocks ⊢
          refine hinv.of_outside hlocks rfl (fun _ hr => hr) (fun _ hrow => .inl hrow)
            fun p hp workspace' hholds stem' hfile => ?_
          rcases List.mem_cons.mp hfile with heq | hfile
          · exact absurd (Prod.mk.inj heq).1 (holds_of_not_locked hlocked hp hholds)
          · exact hfile
  | recordOwnership workspace report =>
      cases hlocked : s.locked workspace with
      | true =>
          simp only [next, hlocked, if_true]
          exact hinv
      | false =>
          simp only [next, hlocked, Bool.false_eq_true, if_false] at hlocks ⊢
          obtain ⟨hrows, hfiles⟩ := recordArtifactOwnership_same (h := h) workspace report s.disk
          refine hinv.of_outside hlocks rfl (fun _ hr => hr) (fun row hrow => .inl ?_)
            fun p hp workspace' hholds stem' hfile => hfiles ▸ hfile
          rw [Disk.mem_inventory] at hrow ⊢
          exact hrows ▸ hrow
  | publish publication =>
      cases hpub : published h s.disk publication with
      | none =>
          simp only [next, hpub]
          exact hinv
      | some found =>
          obtain ⟨workspace, row, owned⟩ := found
          simp only [next, hpub] at hlocks ⊢
          by_cases hbusy : (row.hasDurable && s.locked workspace) = true
          · rw [if_pos hbusy]
            exact hinv
          · rw [if_neg hbusy] at hlocks ⊢
            have hsame : ∀ d : Disk, ((if owned = true then
                recordArtifactOwnership h workspace row else []).foldl Disk.apply d).rows = d.rows ∧
                ((if owned = true then recordArtifactOwnership h workspace row else []).foldl
                  Disk.apply d).files = d.files := by
              intro d
              cases owned with
              | true => exact recordArtifactOwnership_same workspace row d
              | false => exact ⟨rfl, rfl⟩
            refine hinv.of_outside hlocks rfl (fun r hr => ?_) (fun row' hrow => ?_)
              fun p hp workspace' hholds stem' hfile => ?_
            · rcases List.mem_append.mp hr with hsettled | hcarried
              · exact List.mem_append_left _ hsettled
              · exact List.mem_append_right _ (List.mem_append_right _ hcarried)
            · change row' ∈ (List.foldl Disk.apply s.disk _).inventory at hrow
              rw [List.foldl_append] at hrow
              rcases Disk.mem_inventory_putRow.mp hrow with rfl | ⟨-, hold⟩
              · exact .inr (rowAccounted_carries row' _ _)
              · left
                rw [Disk.mem_inventory] at hold ⊢
                exact (hsame s.disk).1 ▸ hold
            · change (workspace', stem') ∈ (List.foldl Disk.apply s.disk _).files at hfile
              rw [List.foldl_append] at hfile
              exact (hsame s.disk).2 ▸ hfile

/-! ## Safety of retention -/

/-- A step of a pass makes no file disappear that is still referenced in its workspace. -/
def RemovalSafe (h : Host) (s : System) : Action → Prop
  | .advance i ok => ∀ p, s.passes[i]? = some p → ∀ workspace stem,
      (workspace, stem) ∈ s.disk.files →
      (workspace, stem) ∉ (next h s (.advance i ok)).disk.files →
      ¬ Referenced h s.disk p.cutoff workspace stem
  | _ => True

/-- The row that a step of a pass puts as complete, and the pass. -/
def completion (h : Host) (s : System) : Action → Option (Pass × PipelineRunReport)
  | .advance i ok => do
      let p ← s.passes[i]?
      match (advance h s.disk (fun workspace => !s.locked workspace) ok p).write with
      | some (.putRow row) => if row.retention = some .complete then some (p, row) else none
      | _ => none
  | _ => none

/-- The file of every durable artifact of a completed report is absent or still referenced. -/
def CompletionProtected (h : Host) (s : System) (a : Action) : Prop :=
  ∀ p row, completion h s a = some (p, row) → ∀ artifact ∈ row.artifacts,
    artifact.durable = true → ∀ workspace, homeOf h row = some workspace →
      (workspace, h.hash artifact.identity) ∉ s.disk.files ∨
        Referenced h s.disk p.cutoff workspace (h.hash artifact.identity)

/-- The reference of every durable artifact of a completed report has been settled by a pass, or
a publication put it as expired. -/
def CompletionSettled (h : Host) (s : System) (a : Action) : Prop :=
  ∀ p row, completion h s a = some (p, row) → ∀ artifact ∈ row.artifacts,
    artifact.durable = true →
      (row.runId, artifact.identity) ∈ s.settled ∨ (row.runId, artifact.identity) ∈ s.carried

theorem completion_cases {s : System} {a : Action} {p : Pass} {row : PipelineRunReport}
    (hcomp : completion h s a = some (p, row)) : ∃ i ok, a = .advance i ok ∧
      s.passes[i]? = some p ∧ row.retention = some .complete ∧
      (advance h s.disk (fun workspace => !s.locked workspace) ok p).write =
        some (.putRow row) := by
  cases a with
  | advance i ok =>
      obtain ⟨p', hp, hcomp⟩ := Option.bind_eq_some_iff.mp hcomp
      split at hcomp
      · rename_i row' hwrite
        split at hcomp
        · rename_i hcomplete
          obtain ⟨rfl, rfl⟩ := Prod.mk.inj (Option.some.inj hcomp)
          exact ⟨i, ok, rfl, hp, hcomplete, hwrite⟩
        · cases hcomp
      · cases hcomp
  | start _ => cases hcomp
  | crash _ => cases hcomp
  | writeArtifact _ _ => cases hcomp
  | recordOwnership _ _ => cases hcomp
  | publish _ => cases hcomp

theorem removalSafe_of_accounted {s : System} (hinv : Accounted h s) (a : Action) :
    RemovalSafe h s a := by
  cases a with
  | advance i ok =>
      intro p hp workspace stem hfile hgone href
      have hmem := List.mem_of_getElem? hp
      have hstep : StepSafe h s.disk (fun workspace => !s.locked workspace) p
          (advance h s.disk (fun workspace => !s.locked workspace) ok p) :=
        advance_safe (hinv.locks.safe p hmem)
      simp only [next, hp] at hgone
      change (workspace, stem) ∉ (s.disk.after _).files at hgone
      cases hw : (advance h s.disk (fun workspace => !s.locked workspace) ok p).write with
      | none =>
          rw [hw] at hgone
          exact hgone hfile
      | some w =>
          rw [hw] at hgone
          cases w with
          | unlink workspace' stem' =>
              have hallowed := hstep.allowed _ hw
              by_cases heq : (workspace, stem) = (workspace', stem')
              · obtain ⟨rfl, rfl⟩ := Prod.mk.inj heq
                exact hallowed ⟨href, hfile⟩
              · exact hgone (List.mem_filter.mpr ⟨hfile, decide_eq_true heq⟩)
          | expire _ _ => exact hgone hfile
          | putOwner _ _ _ => exact hgone hfile
          | putRow _ => exact hgone hfile
  | start _ => trivial
  | crash _ => trivial
  | writeArtifact _ _ => trivial
  | recordOwnership _ _ => trivial
  | publish _ => trivial

theorem completionSettled_of_accounted {s : System} (hinv : Accounted h s) (a : Action) :
    CompletionSettled h s a := by
  intro p row hcomp artifact hartifact hdurable
  obtain ⟨i, ok, -, hp, hcomplete, hwrite⟩ := completion_cases hcomp
  have hmem := List.mem_of_getElem? hp
  have hacc : StepAccounted h s.disk s.ledger
      (advance h s.disk (fun workspace => !s.locked workspace) ok p) :=
    advance_accounted hinv.rows (hinv.passes p hmem)
  exact List.mem_append.mp (hacc.complete row hwrite hcomplete artifact hartifact hdurable)

/-- In every run of passes, crashes, publications and ownership records, no pass removes a file
that is still referenced, and a report is completed only when every reference of it was expired:
by a pass that found the file absent or protected, or by a publication. -/
theorem artifact_retention_safe (h : Host) (actions : List Action) :
    Runs.Guarded (next h) (fun s a => RemovalSafe h s a ∧ CompletionSettled h s a)
      System.fresh actions :=
  Runs.Guarded.along (I := Accounted h) (fun _ a hinv _ => accounted_next hinv a)
    (fun _ a hinv _ => ⟨removalSafe_of_accounted hinv a, completionSettled_of_accounted hinv a⟩)
    accounted_fresh (Runs.guarded_true _ _)

/-! ## A completed report with a file that nothing refers to -/

theorem not_referenced {d : Disk} {cutoff : Instant} {workspace stem : String}
    (hrows : ∀ row ∈ d.inventory, row.isOver cutoff = true)
    (howners : ∀ e ∈ d.owners.entries, e.1.2 ∈ d.inventory.map fun row => h.hash row.runId) :
    ¬ Referenced h d cutoff workspace stem := by
  rintro (⟨row, hrow, report, storage, hn, hover, -⟩ | ⟨name, owner, howner, hunknown, -⟩)
  · rw [(normalize_spec h hn).isOver, hrows row hrow] at hover
    cases hover
  · obtain ⟨row, hrow, hname⟩ :=
      List.mem_map.mp (howners _ (Dict.mem_entries_iff.mpr howner))
    exact hunknown row hrow hname

/-- What a run must show so that its last step completes a report whose file is there. -/
theorem not_completionProtected {actions : List Action} {a : Action} (cutoff : Instant)
    (workspace : String) (artifact : ArtifactResult)
    (hcomp : (completion h (Runs.run (next h) System.fresh actions) a).map (fun c =>
      (c.1.cutoff, homeOf h c.2, decide (artifact ∈ c.2.artifacts))) =
        some (cutoff, some workspace, true))
    (hdurable : artifact.durable = true)
    (hfile : (workspace, h.hash artifact.identity) ∈
      (Runs.run (next h) System.fresh actions).disk.files)
    (hrows : ∀ row ∈ (Runs.run (next h) System.fresh actions).disk.inventory,
      row.isOver cutoff = true)
    (howners : ∀ e ∈ (Runs.run (next h) System.fresh actions).disk.owners.entries,
      e.1.2 ∈ (Runs.run (next h) System.fresh actions).disk.inventory.map
        fun row => h.hash row.runId) :
    ¬ Runs.Guarded (next h) (CompletionProtected h) System.fresh (actions ++ [a]) := by
  intro hguarded
  have hlast := Runs.guarded_iff.mp hguarded actions a [] rfl
  obtain ⟨⟨p, row⟩, hsome, hfacts⟩ := Option.map_eq_some_iff.mp hcomp
  obtain ⟨hcutoff, hfacts⟩ := Prod.mk.inj hfacts
  obtain ⟨hhome, hartifact⟩ := Prod.mk.inj hfacts
  rcases hlast p row hsome artifact (of_decide_eq_true hartifact) hdurable workspace hhome with
    hno | href
  · exact hno hfile
  · rw [hcutoff] at href
    exact not_referenced hrows howners href

/-- Digests and fragments as the texts themselves; the reports of run `u` cannot be verified. -/
def sampleHost : Host where
  hash := id
  scopeFragment := id
  verdict := fun runId _ _ => if runId = "u" then .unverified else .verified none

def sampleReport (runId : String) (endedAt : Instant) (artifacts : List ArtifactResult) :
    PipelineRunReport :=
  { runId := runId, intent := .standard, status := .succeeded, endedAt := some endedAt
    artifacts := artifacts }

/-- A pass whose cutoff is the given instant, for a window of one second. -/
def samplePass (cutoff : Instant) (limit : Nat) (hlimit : 1 ≤ limit ∧ limit ≤ maxBatch) :
    Action :=
  .start ⟨cutoff + seconds 1, 1, limit, Nat.le_refl 1, hlimit.1, hlimit.2⟩

/-- Two runs share artifact `a`. The first pass expires one reference while the other run is
retained; the second pass finds both runs over. -/
def sharedArtifact : List Action :=
  [.writeArtifact "w" "a", .writeArtifact "w" "b",
    .publish (.stamped "w" (sampleReport "r" 0 [⟨"a", "durable", "available"⟩,
      ⟨"b", "durable", "available"⟩])),
    .publish (.stamped "w" (sampleReport "s" 5 [⟨"a", "durable", "available"⟩])),
    samplePass 1 1 (by decide)] ++ List.replicate 11 (.advance 0 true) ++
    [samplePass 5 10 (by decide)] ++ List.replicate 11 (.advance 1 true)

/-- The file is kept for a report that cannot be verified. -/
def unverifiedReport : List Action :=
  [.writeArtifact "w" "a",
    .publish (.stamped "w" (sampleReport "r" 0 [⟨"a", "durable", "available"⟩])),
    .publish (.stamped "v" (sampleReport "u" 0 [])),
    samplePass 5 10 (by decide)] ++ List.replicate 10 (.advance 0 true)

/-- The reference comes expired from its publication. -/
def carriedReference : List Action :=
  [.writeArtifact "w" "a",
    .publish (.stamped "w" (sampleReport "r" 0 [⟨"a", "durable", "expired"⟩])),
    samplePass 5 10 (by decide)] ++ List.replicate 5 (.advance 0 true)

theorem completed_with_file :
    ¬ Runs.Guarded (next sampleHost) (CompletionProtected sampleHost) System.fresh
        (sharedArtifact ++ [.advance 1 true]) ∧
      ¬ Runs.Guarded (next sampleHost) (CompletionProtected sampleHost) System.fresh
        (unverifiedReport ++ [.advance 0 true]) ∧
      ¬ Runs.Guarded (next sampleHost) (CompletionProtected sampleHost) System.fresh
        (carriedReference ++ [.advance 0 true]) := by
  refine ⟨?_, ?_, ?_⟩
  · exact not_completionProtected 5 "w" ⟨"a", "durable", "expired"⟩ (by decide)
      (by decide) (by decide) (by decide) (by decide)
  · exact not_completionProtected 5 "w" ⟨"a", "durable", "expired"⟩ (by decide)
      (by decide) (by decide) (by decide) (by decide)
  · exact not_completionProtected 5 "w" ⟨"a", "durable", "expired"⟩ (by decide)
      (by decide) (by decide) (by decide) (by decide)

end Etlantic.Runtime
