import Etlantic.Runtime.RetentionSafety

/-!
# The steps of a retention pass

Every step of a pass makes an allowed write at most, keeps to the workspaces it
has locked, and leaves its knowledge of the workspace right.
-/

namespace Etlantic.Runtime

open ControlPlane (Instant seconds)

variable {h : Host}

/-- The disk after the write of a step, if it made one. -/
def Disk.after (d : Disk) (write : Option Write) : Disk := (write.map d.apply).getD d

@[simp] theorem Disk.after_none (d : Disk) : d.after none = d := rfl

@[simp] theorem Disk.after_some (d : Disk) (w : Write) : d.after (some w) = d.apply w := rfl

/-- No lock is held. -/
def Stage.idle : Stage → Prop
  | .orphan _ _ | .report _ _ => False
  | _ => True

theorem Pass.holds_idle {p : Pass} (hidle : p.stage.idle) : p.holds = none := by
  unfold Pass.holds
  cases hstage : p.stage with
  | orphan work rest => exact absurd hidle (by rw [hstage]; exact id)
  | report work rest => exact absurd hidle (by rw [hstage]; exact id)
  | orphans _ => rfl
  | selecting => rfl
  | reports _ => rfl
  | ended => rfl

theorem PassSafe.of_idle {d : Disk} {p : Pass} (hidle : p.stage.idle) : PassSafe h d p := by
  unfold PassSafe
  cases hstage : p.stage with
  | orphan work rest => exact absurd hidle (by rw [hstage]; exact id)
  | report work rest => exact absurd hidle (by rw [hstage]; exact id)
  | orphans _ => trivial
  | selecting => trivial
  | reports _ => trivial
  | ended => trivial

/-- What a step of a pass guarantees. -/
structure StepSafe (h : Host) (d : Disk) (free : String → Bool) (p : Pass) (o : Outcome) :
    Prop where
  settings : o.pass.settings = p.settings
  holds : ∀ workspace, o.pass.holds = some workspace →
    p.holds = some workspace ∨ free workspace = true
  allowed : ∀ w, o.write = some w → Allowed h d p w
  safe : PassSafe h (d.after o.write) o.pass

/-- A step that ends without a lock only has to answer for its write. -/
theorem StepSafe.of_idle {d : Disk} {free : String → Bool} {p : Pass} {o : Outcome}
    (hsettings : o.pass.settings = p.settings) (hidle : o.pass.stage.idle)
    (hallowed : ∀ w, o.write = some w → Allowed h d p w) : StepSafe h d free p o := by
  refine ⟨hsettings, fun workspace hholds => ?_, hallowed, PassSafe.of_idle hidle⟩
  rw [Pass.holds_idle hidle] at hholds
  cases hholds

/-- A step that ends without a lock and writes nothing is safe. -/
theorem StepSafe.quiet {d : Disk} {free : String → Bool} {p p' : Pass}
    (hsettings : p'.settings = p.settings) (hidle : p'.stage.idle) :
    StepSafe h d free p { pass := p' } :=
  StepSafe.of_idle hsettings hidle fun w hw => by cases hw

/-! ## Unpublished references -/

/-- The expired references of a workspace come with expired records. -/
theorem payloads_expired {d : Disk} {workspace : String} {cutoff : Instant}
    {reportRunIds : List String} (retentionSeconds : Nat) {name : String} {owner : Owner}
    (hget : (readArtifactOwnership h d workspace cutoff reportRunIds
      retentionSeconds).payloads.get? name = some owner) : owner.expired cutoff = true := by
  have hmem := Dict.mem_of_mem_setAll (Dict.mem_entries_iff.mpr hget)
  exact (List.mem_filter.mp hmem).2

theorem openOrphans_safe {d : Disk} {free : String → Bool} {acquired : Bool} {p : Pass}
    {workspace : String} {rest : List String} (hfree : acquired = true → free workspace = true) :
    StepSafe h d free p { pass := openOrphans h d acquired p workspace rest } := by
  unfold openOrphans
  by_cases hlimit : p.settings.limit ≤ p.touched
  · rw [if_pos hlimit]
    exact StepSafe.quiet rfl trivial
  rw [if_neg hlimit]
  by_cases hacq : acquired = true
  · have hholds : ∀ work : OrphanSection, work.workspace = workspace →
        ∀ workspace', (p.goTo (.orphan work rest)).holds = some workspace' →
          p.holds = some workspace' ∨ free workspace' = true := by
      intro work hwork workspace' hsome
      obtain rfl : work.workspace = workspace' := Option.some.inj hsome
      exact .inr (hwork ▸ hfree hacq)
    rw [if_neg (by simp [hacq])]
    dsimp only
    split
    · exact StepSafe.quiet rfl trivial
    · split
      · -- Some file exists: the protection is computed from the report store.
        split
        · exact StepSafe.quiet rfl trivial
        · rename_i reports hreports
          split
          · exact StepSafe.quiet rfl trivial
          · rename_i held hheld
            refine ⟨rfl, hholds _ rfl, fun w hw => (by cases hw), ?_⟩
            refine ⟨fun r hr href => ?_, fun name owner hget => payloads_expired p.settings.retentionSeconds hget⟩
            by_cases hfile : (workspace, r.identity) ∈ d.files
            · left
              rcases spared_of_referenced p.settings.retentionSeconds hreports hheld href
                hfile with hin | hin
              · exact List.mem_append_left _ hin
              · exact List.mem_append_right _ hin
            · exact .inr hfile
      · -- No file of an expired reference exists.
        rename_i hnone
        refine ⟨rfl, hholds _ rfl, fun w hw => (by cases hw), ?_⟩
        refine ⟨fun r hr _ => .inr fun hfile => ?_, fun name owner hget => payloads_expired p.settings.retentionSeconds hget⟩
        exact hnone (List.any_eq_true.mpr ⟨r, hr, by simpa using hfile⟩)
  · rw [if_pos (by simpa using hacq)]
    exact StepSafe.quiet rfl trivial

theorem orphanStep_safe {d : Disk} {free : String → Bool} {ok : Bool} {p : Pass}
    {work : OrphanSection} {rest : List String} (hstage : p.stage = .orphan work rest)
    (hsafe : OrphanSafe h d p.cutoff work) :
    StepSafe h d free p (orphanStep ok p work rest) := by
  have hheld : p.holds = some work.workspace := by
    unfold Pass.holds
    rw [hstage]
  -- Every step that stays in the section keeps its workspace.
  have hstay : ∀ (p' : Pass) (work' : OrphanSection) (w : Option Write),
      p'.settings = p.settings → p'.stage = .orphan work' rest →
      work'.workspace = work.workspace → (∀ v, w = some v → Allowed h d p v) →
      OrphanSafe h (d.after w) p.cutoff work' → StepSafe h d free p { pass := p', write := w } := by
    intro p' work' w hset hst hws hallowed hsafe'
    refine ⟨hset, fun workspace hholds => ?_, hallowed, ?_⟩
    · unfold Pass.holds at hholds
      simp only [hst] at hholds
      left
      rw [hheld, ← hws]
      exact hholds
    · unfold PassSafe Pass.cutoff
      simp only [hst, hset]
      exact hsafe'
  have hmove : ∀ (work' : OrphanSection) (d' : Disk), work'.workspace = work.workspace →
      work'.kept = work.kept → (∀ r ∈ work'.todo, r ∈ work.todo) →
      (∀ name owner, work'.payloads.get? name = some owner → owner.expired p.cutoff = true) →
      NoNew h d d' p.cutoff work.workspace → OrphanSafe h d' p.cutoff work' := by
    intro work' d' hws hkept htodo hpayloads hno
    refine ⟨fun r hr href => ?_, hpayloads⟩
    rw [hws] at href ⊢
    rw [hkept]
    rcases hsafe.spared r (htodo r hr) (hno.referenced _ href) with hin | hfile
    · exact .inl hin
    · exact .inr fun hmem => hfile (hno.files _ hmem)
  unfold orphanStep
  cases htodo : work.todo with
  | nil => exact StepSafe.quiet rfl trivial
  | cons reference more =>
      have hmore : ∀ r ∈ more, r ∈ work.todo := fun r hr => htodo ▸ List.mem_cons_of_mem _ hr
      have hall : ∀ r ∈ reference :: more, r ∈ work.todo := fun r hr => htodo ▸ hr
      cases hstep : work.step with
      | expire =>
          dsimp only
          split
          · exact StepSafe.quiet rfl trivial
          · split
            · refine hstay _ _ (some (.expire work.workspace reference.expiry)) rfl rfl rfl ?_ ?_
              · intro v hv
                obtain rfl := Option.some.inj hv
                trivial
              · exact hmove _ _ rfl rfl hall hsafe.expired
                  (noNew_expire d _ _ _ _)
            · exact hstay _ _ none rfl rfl rfl (fun v hv => by cases hv)
                (hmove _ d rfl rfl hmore hsafe.expired (NoNew.refl _ _ _))
      | unlink =>
          dsimp only
          by_cases hkept : reference.identity ∈ work.kept
          · rw [if_pos hkept]
            exact hstay _ _ none rfl rfl rfl (fun v hv => by cases hv)
              (hmove _ d rfl rfl hall hsafe.expired (NoNew.refl _ _ _))
          · rw [if_neg hkept]
            split
            · refine hstay _ _ (some (.unlink work.workspace reference.identity)) rfl rfl rfl ?_ ?_
              · intro v hv
                obtain rfl := Option.some.inj hv
                rintro ⟨href, hfile⟩
                rcases hsafe.spared reference (hall _ List.mem_cons_self) href with hin | hno
                · exact hkept hin
                · exact hno hfile
              · exact hmove _ _ rfl rfl hall hsafe.expired (noNew_unlink d _ _ _ _)
            · exact hstay _ _ none rfl rfl rfl (fun v hv => by cases hv)
                (hmove _ d rfl rfl hmore hsafe.expired (NoNew.refl _ _ _))
      | complete =>
          dsimp only
          cases hget : work.payloads.get? reference.owner with
          | none => exact StepSafe.quiet rfl trivial
          | some payload =>
              have hpayload := hsafe.expired _ _ hget
              have hset : ∀ cleaned name owner,
                  (work.payloads.set reference.owner
                    { payload with cleanedArtifactIds := cleaned }).get? name = some owner →
                  owner.expired p.cutoff = true := by
                intro cleaned name owner hfound
                rcases Dict.get?_set_eq_some.mp hfound with ⟨-, rfl⟩ | ⟨-, hfound⟩
                · exact hpayload
                · exact hsafe.expired _ _ hfound
              cases ok with
              | true =>
                  refine hstay _ _ (some (.putOwner work.workspace reference.owner _)) rfl rfl
                    rfl ?_ ?_
                  · intro v hv
                    obtain rfl := Option.some.inj hv
                    exact ⟨hheld, hpayload⟩
                  · exact hmove _ _ rfl rfl hmore (hset _) (noNew_putOwner (.inr hpayload))
              | false =>
                  exact hstay _ _ none rfl rfl rfl (fun v hv => by cases hv)
                    (hmove _ d rfl rfl hmore (hset _) (NoNew.refl _ _ _))

/-! ## Reports -/

theorem select_safe {d : Disk} {free : String → Bool} {p : Pass} :
    StepSafe h d free p { pass := select h d p } := by
  unfold select
  split
  · exact StepSafe.quiet rfl trivial
  · exact StepSafe.quiet rfl trivial

theorem eligible_over {settings : RetentionSettings} {report : PipelineRunReport}
    (helig : settings.eligible report = true) : report.isOver settings.cutoff = true := by
  unfold RetentionSettings.eligible RetentionSettings.pending at helig
  simp only [Bool.and_eq_true] at helig
  exact helig.1.1.1

theorem openReport_safe {d : Disk} {free : String → Bool} {p : Pass}
    {candidate : PipelineRunReport} {storage : String} {durable : Bool}
    {rest : List PipelineRunReport} (hstorage : candidate.artifactStorageRunId = some storage)
    (hfree : durable = true → free (h.scopeFragment storage) = true) :
    StepSafe h d free p
      { pass := openReport h d p candidate (h.scopeFragment storage) durable rest } := by
  unfold openReport
  split
  · exact StepSafe.quiet rfl trivial
  rename_i reports hreports
  split
  · exact StepSafe.quiet rfl trivial
  rename_i report hfind
  by_cases helig : p.settings.eligible report = true
  · rw [if_neg (by simp [helig])]
    by_cases hgained : (!durable && report.hasDurable) = true
    · rw [if_pos hgained]
      exact StepSafe.quiet rfl trivial
    rw [if_neg hgained]
    split
    · exact StepSafe.quiet rfl trivial
    rename_i hsame
    have hhome : report.artifactStorageRunId = some storage := by
      simp only [hstorage, Bool.or_eq_true, not_or] at hsame
      simpa using hsame.2
    split
    · exact StepSafe.quiet rfl trivial
    rename_i held hheld
    refine ⟨rfl, fun workspace hholds => ?_, fun w hw => (by cases hw), ?_⟩
    · unfold Pass.holds at hholds
      simp only [Pass.goTo_stage] at hholds
      by_cases hdurable : durable = true
      · rw [if_pos hdurable] at hholds
        obtain rfl := Option.some.inj hholds
        exact .inr (hfree hdurable)
      · rw [if_neg hdurable] at hholds
        cases hholds
    · obtain ⟨row, hrow, hn⟩ : ∃ row ∈ d.inventory, normalize h row = some report := by
        have hmem := List.mem_of_find?_eq_some hfind
        exact Checked.exists_of_forall₂ (Checked.forall₂_of_mapM_some hreports).flip hmem
      have hover : report.isOver p.cutoff = true := eligible_over helig
      refine ⟨?_, hover, fun _ stem href => ?_, fun hno => ?_,
        fun hannounce => absurd rfl hannounce⟩
      · intro home hresolved
        have hcongr : homeOf h (announced p.settings report) = homeOf h report :=
          homeOf_congr h rfl rfl rfl
        rw [hcongr, homeOf_report h hn, hhome] at hresolved
        exact (Option.some.inj hresolved).symm
      · by_cases hfile : (h.scopeFragment storage, stem) ∈ d.files
        · left
          unfold ReportSection.spares
          rw [Bool.or_eq_true, decide_eq_true_iff, decide_eq_true_iff]
          exact spared_of_referenced p.settings.retentionSeconds hreports hheld href hfile
        · exact .inr hfile
      · show report.hasDurable = false
        have hfalse : durable = false := hno
        simpa [hfalse] using hgained
  · rw [if_pos (by simpa using helig)]
    exact StepSafe.quiet rfl trivial

theorem openCandidate_safe {d : Disk} {free acquired : String → Bool} {p : Pass}
    {candidate : PipelineRunReport} {rest : List PipelineRunReport}
    (hfree : ∀ workspace, acquired workspace = true → free workspace = true) :
    StepSafe h d free p { pass := openCandidate h d acquired p candidate rest } := by
  unfold openCandidate
  split
  · exact StepSafe.quiet rfl trivial
  split
  · exact StepSafe.quiet rfl trivial
  rename_i candidate' hcandidate
  split
  · exact StepSafe.quiet rfl trivial
  rename_i storage hstorage
  dsimp only
  split
  · exact StepSafe.quiet rfl trivial
  split
  · exact StepSafe.quiet rfl trivial
  · rename_i hguard
    refine openReport_safe hstorage fun hdurable => hfree _ ?_
    simpa [hdurable] using hguard

/-- The step keeps to the section: its working row keeps its run and its end. -/
structure SameWork (work work' : ReportSection) : Prop where
  workspace : work'.workspace = work.workspace
  guarded : work'.guarded = work.guarded
  kept : work'.kept = work.kept
  ownership : work'.ownership = work.ownership
  home : homeOf h work'.working = homeOf h work.working
  isOver : ∀ cutoff, work'.working.isOver cutoff = work.working.isOver cutoff
  durable : work.guarded = false → work'.working.hasDurable = work.working.hasDurable

section Report

variable {d : Disk} {free : String → Bool} {ok : Bool} {p : Pass} {work work' : ReportSection}
  {rest : List PipelineRunReport} {row : PipelineRunReport}

theorem SameWork.moved (index failed : Nat) (step : ReportStep) : SameWork (h := h) work
    { work with index := index, failed := failed, step := step } :=
  ⟨rfl, rfl, rfl, rfl, rfl, fun _ => rfl, fun _ => rfl⟩

/-- What a section knows stays right where nothing new is referenced. -/
theorem ReportSafe.stay {d' : Disk} {cutoff : Instant} (hsafe : ReportSafe h d cutoff work)
    (hsame : SameWork (h := h) work work')
    (hlocked : work'.step ≠ .announce → work'.step ≠ .scan → work.guarded = true)
    (hno : NoNew h d d' cutoff work.workspace) : ReportSafe h d' cutoff work' := by
  refine ⟨?_, ?_, fun hguarded stem href => ?_, fun hguarded => ?_, ?_⟩
  · intro home hhome
    rw [hsame.home] at hhome
    rw [hsame.workspace]
    exact hsafe.home home hhome
  · rw [hsame.isOver]
    exact hsafe.isOver
  · rw [hsame.workspace] at href ⊢
    rw [hsame.guarded] at hguarded
    unfold ReportSection.spares
    rw [hsame.kept, hsame.ownership]
    rcases hsafe.spared hguarded stem (hno.referenced _ href) with hin | hfile
    · exact .inl hin
    · exact .inr fun hmem => hfile (hno.files _ hmem)
  · rw [hsame.guarded] at hguarded
    rw [hsame.durable hguarded]
    exact hsafe.unguarded hguarded
  · rw [hsame.guarded]
    exact hlocked

/-- The row of a section may be put. -/
theorem ReportSafe.allowed (hsafe : ReportSafe h d p.cutoff work)
    (hstage : p.stage = .report work rest) (hhome : homeOf h row = homeOf h work.working)
    (hover : row.isOver p.cutoff = work.working.isOver p.cutoff)
    (hdurable : work.guarded = false → row.hasDurable = work.working.hasDurable) :
    Allowed h d p (.putRow row) := by
  cases hguarded : work.guarded with
  | true =>
      have hheld : p.holds = some work.workspace := by
        unfold Pass.holds
        rw [hstage]
        exact if_pos hguarded
      refine .inr ⟨work.workspace, hheld, fun home hresolved => ?_, ?_⟩
      · rw [hhome] at hresolved
        exact hsafe.home home hresolved
      · rw [hover]
        exact hsafe.isOver
  | false =>
      left
      rw [hdurable hguarded]
      exact hsafe.unguarded hguarded

theorem ReportSafe.noNew_row {cutoff : Instant} (hsafe : ReportSafe h d cutoff work)
    (hover : row.isOver cutoff = work.working.isOver cutoff) :
    NoNew h d (d.after (some (.putRow row))) cutoff work.workspace := by
  refine noNew_putRow (.inr (.inl ?_))
  rw [hover]
  exact hsafe.isOver

/-- A step that stays in the section keeps its workspace and its protections. -/
theorem StepSafe.stay {p' : Pass} {w : Option Write} {settles : Option (String × String)}
    (hstage : p.stage = .report work rest) (hsafe : ReportSafe h d p.cutoff work)
    (hset : p'.settings = p.settings) (hst : p'.stage = .report work' rest)
    (hsame : SameWork (h := h) work work') (hallowed : ∀ v, w = some v → Allowed h d p v)
    (hlocked : work'.step ≠ .announce → work'.step ≠ .scan → work.guarded = true)
    (hno : NoNew h d (d.after w) p.cutoff work.workspace) :
    StepSafe h d free p { pass := p', write := w, settles := settles } := by
  refine ⟨hset, fun workspace hholds => ?_, hallowed, ?_⟩
  · unfold Pass.holds at hholds
    simp only [hst, hsame.guarded, hsame.workspace] at hholds
    left
    unfold Pass.holds
    rw [hstage]
    exact hholds
  · unfold PassSafe Pass.cutoff
    simp only [hst, hset]
    exact hsafe.stay hsame hlocked hno

/-- Concluding a report keeps its run, its end and its artifacts. -/
theorem concluded_row (settings : RetentionSettings) (work : ReportSection) :
    homeOf h (work.concluded h settings) = homeOf h work.working ∧
      (∀ cutoff, (work.concluded h settings).isOver cutoff = work.working.isOver cutoff) ∧
      (work.concluded h settings).hasDurable = work.working.hasDurable := by
  unfold ReportSection.concluded
  dsimp only
  split
  · exact ⟨rfl, fun _ => rfl, rfl⟩
  · split
    · exact ⟨rfl, fun _ => rfl, rfl⟩
    · exact ⟨rfl, fun _ => rfl, rfl⟩

/-- A durable artifact is only met under the lock. -/
theorem ReportSafe.guarded_of_durable {cutoff : Instant} (hsafe : ReportSafe h d cutoff work)
    {a : ArtifactResult} (ha : a ∈ work.working.artifacts) (hdurable : a.durable = true) :
    work.guarded = true := by
  cases hguarded : work.guarded with
  | true => rfl
  | false =>
      have hany := hsafe.unguarded hguarded
      unfold PipelineRunReport.hasDurable at hany
      rw [List.any_eq_false] at hany
      exact absurd hdurable (hany a ha)

theorem reportStep_safe (hstage : p.stage = .report work rest)
    (hsafe : ReportSafe h d p.cutoff work) :
    StepSafe h d free p (reportStep h d ok p work rest) := by
  have hnone : ∀ v, (none : Option Write) = some v → Allowed h d p v := fun v hv => by cases hv
  have hscan : ∀ step : ReportStep, step = .scan →
      (step ≠ .announce → step ≠ .scan → work.guarded = true) :=
    fun _ hscan _ hne => absurd hscan hne
  -- The loop goes on without a write.
  have hmove : ∀ (p' : Pass) (index failed : Nat) (step : ReportStep), p'.settings = p.settings →
      p'.stage = .report { work with index := index, failed := failed, step := step } rest →
      (step ≠ .announce → step ≠ .scan → work.guarded = true) →
      StepSafe h d free p { pass := p' } :=
    fun _ _ _ _ hset hst hlocked =>
      .stay hstage hsafe hset hst (.moved _ _ _) hnone hlocked (NoNew.refl _ _ _)
  unfold reportStep
  cases hstep : work.step with
  | announce =>
      dsimp only
      split
      · refine .stay hstage hsafe rfl rfl (.moved _ _ _) ?_ (hscan _ rfl) (hsafe.noNew_row rfl)
        intro v hv
        obtain rfl := Option.some.inj hv
        exact hsafe.allowed hstage rfl rfl fun _ => rfl
      · exact StepSafe.quiet rfl trivial
  | scan =>
      cases hart : work.working.artifacts[work.index]? with
      | none =>
          dsimp only
          split
          · refine StepSafe.of_idle rfl trivial fun v hv => ?_
            obtain rfl := Option.some.inj hv
            obtain ⟨hhome, hover, hdurable⟩ := concluded_row (h := h) p.settings work
            exact hsafe.allowed hstage hhome (hover _) fun _ => hdurable
          · exact StepSafe.quiet rfl trivial
      | some a =>
          dsimp only
          split
          · exact hmove _ _ _ _ rfl rfl (hscan _ rfl)
          rename_i hskip
          split
          · exact hmove _ _ _ _ rfl rfl (hscan _ rfl)
          split
          · exact StepSafe.quiet rfl trivial
          split
          · exact StepSafe.quiet rfl trivial
          · refine hmove _ _ _ _ rfl rfl fun _ _ =>
              hsafe.guarded_of_durable (List.mem_of_getElem? hart) ?_
            simp only [Bool.or_eq_true, not_or, Bool.not_eq_true, Bool.not_eq_false'] at hskip
            exact hskip.1
  | unlink =>
      have hguarded : work.guarded = true :=
        hsafe.locked (by rw [hstep]; decide) (by rw [hstep]; decide)
      cases hart : work.working.artifacts[work.index]? with
      | none => exact StepSafe.quiet rfl trivial
      | some a =>
          dsimp only
          split
          · exact hmove _ _ _ _ rfl rfl fun _ _ => hguarded
          rename_i hspares
          split
          · refine .stay hstage hsafe rfl rfl (.moved _ _ _) ?_ (fun _ _ => hguarded)
              (noNew_unlink d _ _ _ _)
            intro v hv
            obtain rfl := Option.some.inj hv
            rintro ⟨href, hfile⟩
            rcases hsafe.spared hguarded _ href with hin | hno
            · exact hspares hin
            · exact hno hfile
          · exact hmove _ _ _ _ rfl rfl (hscan _ rfl)
  | expire =>
      have hguarded : work.guarded = true :=
        hsafe.locked (by rw [hstep]; decide) (by rw [hstep]; decide)
      cases hart : work.working.artifacts[work.index]? with
      | none => exact StepSafe.quiet rfl trivial
      | some a =>
          dsimp only
          split
          · refine .stay hstage hsafe rfl rfl (.moved _ _ _) ?_ (fun _ _ => hguarded)
              (noNew_expire d _ _ _ _)
            intro v hv
            obtain rfl := Option.some.inj hv
            trivial
          · exact hmove _ _ _ _ rfl rfl (hscan _ rfl)
  | record =>
      have hguarded : work.guarded = true :=
        hsafe.locked (by rw [hstep]; decide) (by rw [hstep]; decide)
      cases hart : work.working.artifacts[work.index]? with
      | none => exact StepSafe.quiet rfl trivial
      | some a =>
          dsimp only
          split
          · refine .stay hstage hsafe rfl rfl
              ⟨rfl, rfl, rfl, rfl, rfl, fun _ => rfl, fun hno => ?_⟩ ?_ (hscan _ rfl)
              (hsafe.noNew_row rfl)
            · rw [hguarded] at hno
              cases hno
            · intro v hv
              obtain rfl := Option.some.inj hv
              refine hsafe.allowed hstage rfl rfl fun hno => ?_
              rw [hguarded] at hno
              cases hno
          · exact StepSafe.quiet rfl trivial

end Report

/-- Every step of a pass is safe, in every state in which its knowledge is right. -/
theorem advance_safe {d : Disk} {free : String → Bool} {ok : Bool} {p : Pass}
    (hsafe : PassSafe h d p) : StepSafe h d free p (advance h d free ok p) := by
  unfold advance
  unfold PassSafe at hsafe
  cases hstage : p.stage with
  | orphans todo =>
      cases todo with
      | nil => exact StepSafe.quiet rfl trivial
      | cons workspace rest =>
          refine openOrphans_safe fun hacquired => ?_
          rw [Bool.and_eq_true] at hacquired
          exact hacquired.2
  | orphan work rest =>
      simp only [hstage] at hsafe
      exact orphanStep_safe hstage hsafe
  | selecting => exact select_safe
  | reports todo =>
      cases todo with
      | nil => exact StepSafe.quiet rfl trivial
      | cons candidate rest =>
          refine openCandidate_safe fun workspace hacquired => ?_
          rw [Bool.and_eq_true] at hacquired
          exact hacquired.2
  | report work rest =>
      simp only [hstage] at hsafe
      exact reportStep_safe hstage hsafe
  | ended =>
      refine StepSafe.quiet rfl ?_
      show p.stage.idle
      rw [hstage]
      trivial

end Etlantic.Runtime
