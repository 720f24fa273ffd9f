import Etlantic.Runtime.ArtifactRetention
import Etlantic.Base.Checked

/-!
# What holds an artifact

A file is referenced by a retained report or by an unexpired ownership record of
a run that is not in the report store.  References and files of a locked
workspace can only disappear while the lock is held, so what a pass has computed
under the lock stays right until it lets go of the workspace.
-/

namespace Etlantic.Runtime

open ControlPlane (Instant seconds)

variable (h : Host)

/-! ## References -/

/-- A row of the report store is retained and one of its durable artifacts, whose reference has
not expired, has its file here. -/
def ReferencedByReport (d : Disk) (cutoff : Instant) (workspace stem : String) : Prop :=
  ∃ row ∈ d.inventory, ∃ report storage, normalize h row = some report ∧
    report.isOver cutoff = false ∧ report.artifactStorageRunId = some storage ∧
    h.scopeFragment storage = workspace ∧
    ∃ a ∈ report.artifacts, a.durable = true ∧ a.expired = false ∧
      marked h d workspace report.runId a.identity = false ∧ h.hash a.identity = stem

/-- An unexpired ownership record of a run that is not in the report store names the file. -/
def ReferencedByOwner (d : Disk) (cutoff : Instant) (workspace stem : String) : Prop :=
  ∃ name owner, d.owners.get? (workspace, name) = some owner ∧
    (∀ row ∈ d.inventory, h.hash row.runId ≠ name) ∧ owner.expired cutoff = false ∧
    ∃ reference ∈ owner.references, reference.identity = stem ∧
      (workspace, reference.expiry) ∉ d.marks

def Referenced (d : Disk) (cutoff : Instant) (workspace stem : String) : Prop :=
  ReferencedByReport h d cutoff workspace stem ∨ ReferencedByOwner h d cutoff workspace stem

/-- Nothing that is not expired by now is new in the workspace. -/
structure NoNew (d d' : Disk) (cutoff : Instant) (workspace : String) : Prop where
  referenced : ∀ stem, Referenced h d' cutoff workspace stem → Referenced h d cutoff workspace stem
  files : ∀ stem, (workspace, stem) ∈ d'.files → (workspace, stem) ∈ d.files

/-- The row resolves to this workspace, if it resolves at all. -/
def Home (row : PipelineRunReport) (workspace : String) : Prop :=
  ∀ home, homeOf h row = some home → home = workspace

variable {h}

theorem NoNew.refl (d : Disk) (cutoff : Instant) (workspace : String) :
    NoNew h d d cutoff workspace :=
  ⟨fun _ href => href, fun _ hfile => hfile⟩

theorem NoNew.trans {a b c : Disk} {cutoff : Instant} {workspace : String}
    (hab : NoNew h a b cutoff workspace) (hbc : NoNew h b c cutoff workspace) :
    NoNew h a c cutoff workspace :=
  ⟨fun stem href => hab.referenced stem (hbc.referenced stem href),
    fun stem hfile => hab.files stem (hbc.files stem hfile)⟩

/-- References and files of a workspace can only go where rows, files, records and tombstones
change as little as this. -/
theorem NoNew.of_same_rows {d d' : Disk} {cutoff : Instant} {workspace : String}
    (hrows : d'.inventory = d.inventory) (howners : d'.owners = d.owners)
    (hmarks : ∀ m ∈ d.marks, m ∈ d'.marks)
    (hfiles : ∀ stem, (workspace, stem) ∈ d'.files → (workspace, stem) ∈ d.files) :
    NoNew h d d' cutoff workspace := by
  refine ⟨?_, hfiles⟩
  rintro stem (⟨row, hrow, report, storage, hn, hover, hstorage, hws, a, ha, hd, hx, hm, hstem⟩ |
    ⟨name, owner, howner, hunknown, hfresh, reference, hreference, hstem, hm⟩)
  · rw [hrows] at hrow
    refine .inl ⟨row, hrow, report, storage, hn, hover, hstorage, hws, a, ha, hd, hx, ?_, hstem⟩
    unfold marked at hm ⊢
    rw [decide_eq_false_iff_not] at hm ⊢
    exact fun hmem => hm (hmarks _ hmem)
  · rw [hrows] at hunknown
    rw [howners] at howner
    exact .inr ⟨name, owner, howner, hunknown, hfresh, reference, hreference, hstem,
      fun hmem => hm (hmarks _ hmem)⟩

theorem noNew_expire (d : Disk) (workspace' key : String) (cutoff : Instant)
    (workspace : String) : NoNew h d (d.apply (.expire workspace' key)) cutoff workspace :=
  NoNew.of_same_rows rfl rfl (fun _ hm => List.mem_cons_of_mem _ hm) fun _ hfile => hfile

theorem noNew_unlink (d : Disk) (workspace' stem : String) (cutoff : Instant)
    (workspace : String) : NoNew h d (d.apply (.unlink workspace' stem)) cutoff workspace :=
  NoNew.of_same_rows rfl rfl (fun _ hm => hm) fun _ hfile => (List.mem_filter.mp hfile).1

/-- An ownership record of another workspace, or one that has expired, refers to nothing. -/
theorem noNew_putOwner {d : Disk} {workspace' name : String} {owner : Owner} {cutoff : Instant}
    {workspace : String} (hput : workspace' ≠ workspace ∨ owner.expired cutoff = true) :
    NoNew h d (d.apply (.putOwner workspace' name owner)) cutoff workspace := by
  refine ⟨?_, fun _ hfile => hfile⟩
  rintro stem (href | ⟨name', owner', howner, hunknown, hfresh, hreference⟩)
  · exact .inl href
  · rcases Dict.get?_set_eq_some.mp howner with ⟨hkey, rfl⟩ | ⟨-, howner⟩
    · obtain ⟨hws, -⟩ := Prod.mk.inj hkey
      rcases hput with hput | hput
      · exact absurd hws hput
      · rw [hput] at hfresh
        cases hfresh
    · exact .inr ⟨name', owner', howner, hunknown, hfresh, hreference⟩

/-- A row of another workspace, one without durable artifacts, or one whose window has passed
refers to nothing. -/
theorem noNew_putRow {d : Disk} {row : PipelineRunReport} {cutoff : Instant} {workspace : String}
    (hput : row.hasDurable = false ∨ row.isOver cutoff = true ∨
      ∃ home, Home h row home ∧ home ≠ workspace) :
    NoNew h d (d.apply (.putRow row)) cutoff workspace := by
  refine ⟨?_, fun _ hfile => hfile⟩
  rintro stem (⟨row', hrow, report, storage, hn, hover, hstorage, hws, a, ha, hd, hx, hm, hstem⟩ |
    ⟨name, owner, howner, hunknown, hfresh, hreference⟩)
  · rcases Disk.mem_inventory_putRow.mp hrow with rfl | ⟨-, hrow⟩
    · have hspec := normalize_spec h hn
      rcases hput with hput | hput | ⟨home, hhome, hne⟩
      · rw [← hspec.durable] at hput
        exact absurd hd (by simpa using List.any_eq_false.mp hput a ha)
      · rw [hspec.isOver, hput] at hover
        cases hover
      · have hrow : homeOf h row' = some (h.scopeFragment storage) := by
          rw [homeOf_normalized h hn, hstorage]
          rfl
        exact absurd ((hhome _ hrow).symm.trans hws) hne
    · exact .inl ⟨row', hrow, report, storage, hn, hover, hstorage, hws, a, ha, hd, hx, hm, hstem⟩
  · refine .inr ⟨name, owner, howner, fun row' hrow => ?_, hfresh, hreference⟩
    obtain ⟨held, hheld, hrun⟩ := Disk.inventory_covers_putRow row hrow
    rw [← hrun]
    exact hunknown held hheld

/-! ## What a pass reads under the lock -/

theorem applied_artifact {d : Disk} {workspace : String} {report : PipelineRunReport}
    {a : ArtifactResult} (ha : a ∈ report.artifacts)
    (hm : marked h d workspace report.runId a.identity = false) :
    a ∈ (applyArtifactExpiry h d workspace report).artifacts := by
  have hmap : a ∈ report.artifacts.map fun a =>
      if a.durable && marked h d workspace report.runId a.identity && !a.expired then a.expire
      else a := by
    refine List.mem_map.mpr ⟨a, ha, ?_⟩
    simp [hm]
  unfold applyArtifactExpiry
  dsimp only
  split
  · exact ha
  · split
    · exact hmap
    · exact hmap

/-- Under the lock, every file that is still referenced is among those the pass spares. -/
theorem spared_of_referenced {d : Disk} {cutoff : Instant} {workspace stem : String}
    {reports : List PipelineRunReport} {held : List String} (retentionSeconds : Nat)
    (hn : normalized h d = some reports)
    (hheld : protectedReferences h d workspace cutoff reports = some held)
    (href : Referenced h d cutoff workspace stem) (hfile : (workspace, stem) ∈ d.files) :
    stem ∈ held ∨ stem ∈ (readArtifactOwnership h d workspace cutoff (reports.map (·.runId))
      retentionSeconds).protectedIds := by
  have hreports := Checked.forall₂_of_mapM_some hn
  rcases href with ⟨row, hrow, report, storage, hrep, hover, hstorage, hws, a, ha, hd, hx, hm,
    hstem⟩ | ⟨name, owner, howner, hunknown, hfresh, reference, hreference, hstem, hm⟩
  · -- A verified report protects its own artifacts, an unverified one every file.
    left
    obtain ⟨report', hmem, hrep'⟩ := Checked.exists_of_forall₂ hreports hrow
    rw [hrep] at hrep'
    obtain rfl := Option.some.inj hrep'
    unfold protectedReferences at hheld
    obtain ⟨parts, hparts, hflat⟩ := Option.bind_eq_some_iff.mp hheld
    obtain rfl := Option.some.inj hflat
    obtain ⟨part, hpart, hby⟩ :=
      Checked.exists_of_forall₂ (Checked.forall₂_of_mapM_some hparts) hmem
    refine List.mem_flatten.mpr ⟨part, hpart, ?_⟩
    unfold heldBy at hby
    by_cases hu : report.unverified = true
    · rw [if_pos hu] at hby
      obtain rfl := Option.some.inj hby
      exact List.mem_map.mpr ⟨(workspace, stem), List.mem_filter.mpr ⟨hfile, by simp⟩, rfl⟩
    · rw [if_neg hu, if_neg (by simp [hover]), hstorage] at hby
      simp only [Option.bind_eq_bind, Option.bind_some, hws, ne_eq, not_true_eq_false,
        if_false] at hby
      obtain rfl := Option.some.inj hby
      refine List.mem_map.mpr ⟨a, List.mem_filter.mpr ⟨applied_artifact ha hm, ?_⟩, hstem⟩
      simp [hd, hx]
  · right
    have hids : List.Forall₂ (· = ·) (d.inventory.map (·.runId)) (reports.map (·.runId)) :=
      List.forall₂_map_left_iff.mpr (List.forall₂_map_right_iff.mpr
        (hreports.imp fun _ _ hn' => (normalize_spec h hn').runId.symm))
    rw [List.forall₂_eq_eq_eq] at hids
    have hentry : (name, owner) ∈ unpublished h d workspace (reports.map (·.runId)) := by
      refine List.mem_map.mpr ⟨((workspace, name), owner), List.mem_filter.mpr
        ⟨Dict.mem_entries_iff.mpr howner, ?_⟩, rfl⟩
      have hnot : name ∉ (reports.map (·.runId)).map h.hash := by
        rw [← hids]
        intro hmem
        obtain ⟨runId, hrunId, hname⟩ := List.mem_map.mp hmem
        obtain ⟨row, hrow, rfl⟩ := List.mem_map.mp hrunId
        exact hunknown row hrow hname
      simp only [decide_true, Bool.true_and, hnot, decide_false, Bool.not_false]
    refine List.mem_flatMap.mpr ⟨(name, owner), hentry, List.mem_map.mpr ⟨reference, ?_, hstem⟩⟩
    unfold protectedBy
    rw [if_neg (by simp [hfresh])]
    refine List.mem_filter.mpr ⟨hreference, ?_⟩
    simp only [hm, decide_false, Bool.not_false]

/-! ## The work under the lock -/

/-- The files still to be removed are not referenced, and the payloads belong to expired
records. -/
structure OrphanSafe (h : Host) (d : Disk) (cutoff : Instant) (work : OrphanSection) : Prop where
  spared : ∀ r ∈ work.todo, Referenced h d cutoff work.workspace r.identity →
    r.identity ∈ work.kept ∨ (work.workspace, r.identity) ∉ d.files
  expired : ∀ name owner, work.payloads.get? name = some owner → owner.expired cutoff = true

/-- The report belongs to the workspace and its window has passed; under the lock every
referenced file is spared, and without it there is nothing to remove. -/
structure ReportSafe (h : Host) (d : Disk) (cutoff : Instant) (work : ReportSection) : Prop where
  home : Home h work.working work.workspace
  isOver : work.working.isOver cutoff = true
  spared : work.guarded = true → ∀ stem, Referenced h d cutoff work.workspace stem →
    work.spares stem = true ∨ (work.workspace, stem) ∉ d.files
  unguarded : work.guarded = false → work.working.hasDurable = false
  locked : work.step ≠ .announce → work.step ≠ .scan → work.guarded = true

def PassSafe (h : Host) (d : Disk) (p : Pass) : Prop :=
  match p.stage with
  | .orphan work _ => OrphanSafe h d p.cutoff work
  | .report work _ => ReportSafe h d p.cutoff work
  | _ => True

/-- The writes a pass may make where it stands. -/
def Allowed (h : Host) (d : Disk) (p : Pass) : Write → Prop
  | .expire _ _ => True
  | .unlink workspace stem =>
      ¬ (Referenced h d p.cutoff workspace stem ∧ (workspace, stem) ∈ d.files)
  | .putOwner workspace _ owner =>
      p.holds = some workspace ∧ owner.expired p.cutoff = true
  | .putRow row =>
      row.hasDurable = false ∨
        ∃ workspace, p.holds = some workspace ∧ Home h row workspace ∧ row.isOver p.cutoff = true

/-- An allowed write adds no reference to a workspace that another pass holds, and none that
counts for the pass itself to its own. -/
theorem noNew_of_allowed {d : Disk} {p : Pass} {w : Write} (hw : Allowed h d p w)
    {cutoff : Instant} {workspace : String}
    (hcutoff : p.holds = some workspace → cutoff = p.cutoff) :
    NoNew h d (d.apply w) cutoff workspace := by
  cases w with
  | expire workspace' key => exact noNew_expire d workspace' key cutoff workspace
  | unlink workspace' stem => exact noNew_unlink d workspace' stem cutoff workspace
  | putOwner workspace' name owner =>
      obtain ⟨hholds, hexpired⟩ := hw
      apply noNew_putOwner
      by_cases heq : workspace' = workspace
      · rw [heq] at hholds
        exact .inr (hcutoff hholds ▸ hexpired)
      · exact .inl heq
  | putRow row =>
      apply noNew_putRow
      rcases hw with hnone | ⟨home, hholds, hhome, hover⟩
      · exact .inl hnone
      · by_cases heq : home = workspace
        · rw [heq] at hholds
          exact .inr (.inl (hcutoff hholds ▸ hover))
        · exact .inr (.inr ⟨home, hhome, heq⟩)

/-- What others do to a workspace that is held leaves the holder's knowledge right. -/
theorem PassSafe.mono {d d' : Disk} {p : Pass} (hsafe : PassSafe h d p)
    (hnew : ∀ workspace, p.holds = some workspace → NoNew h d d' p.cutoff workspace) :
    PassSafe h d' p := by
  unfold PassSafe at hsafe ⊢
  unfold Pass.holds at hnew
  cases hstage : p.stage with
  | orphan work rest =>
      simp only [hstage] at hsafe hnew ⊢
      have hno := hnew work.workspace rfl
      refine ⟨fun r hr href => ?_, hsafe.expired⟩
      rcases hsafe.spared r hr (hno.referenced _ href) with hkept | hfile
      · exact .inl hkept
      · exact .inr fun hmem => hfile (hno.files _ hmem)
  | report work rest =>
      simp only [hstage] at hsafe hnew ⊢
      refine ⟨hsafe.home, hsafe.isOver, fun hguarded stem href => ?_, hsafe.unguarded,
        hsafe.locked⟩
      have hno := hnew work.workspace (by rw [if_pos hguarded])
      rcases hsafe.spared hguarded stem (hno.referenced _ href) with hkept | hfile
      · exact .inl hkept
      · exact .inr fun hmem => hfile (hno.files _ hmem)
  | orphans _ => trivial
  | selecting => trivial
  | reports _ => trivial
  | ended => trivial

end Etlantic.Runtime
