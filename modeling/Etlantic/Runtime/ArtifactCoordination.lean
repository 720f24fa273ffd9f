import Etlantic.ControlPlane.DurableModels
import Etlantic.Base.Text
import Mathlib.Data.List.Sort

/-!
# Artifact coordination

Managed runs leave files in a workspace directory.  Beside the files stand the
expiry records of single references and the ownership records of runs whose
report may not have reached the report store.

The report store and the directories together are one `Disk`.  The functions
below read a disk or describe the one write they make; who may call them when
is the concern of the retention pass.
-/

namespace Etlantic.Runtime

open ControlPlane (Instant seconds)

/-! ## Reports -/

inductive RunStatus where
  | pending
  | running
  | succeeded
  | failed
  | cancelled
  | timedOut
  | partialResult
deriving DecidableEq

/-- `TERMINAL_RUN_STATUSES`. -/
def RunStatus.terminal : RunStatus → Bool
  | .pending | .running => false
  | _ => true

inductive RunIntent where
  | standard
  | initialize_
  | incremental
  | refresh
  | validate
  | repair
  | backfill
  | replay
  | resume
deriving DecidableEq

def RunIntent.lifecycle : RunIntent → Bool
  | .resume | .repair | .backfill => true
  | _ => false

structure ArtifactResult where
  identity : String
  strategy : String
  status : String
deriving DecidableEq

namespace ArtifactResult

def durable (a : ArtifactResult) : Bool := a.strategy = "durable"

def expired (a : ArtifactResult) : Bool := a.status = "expired"

/-- `replace(artifact, status="expired")`. -/
def expire (a : ArtifactResult) : ArtifactResult := { a with status := "expired" }

@[simp] theorem expire_expired (a : ArtifactResult) : a.expire.expired = true := rfl

end ArtifactResult

inductive RetentionState where
  | pending
  | running
  | failed
  | complete
deriving DecidableEq

/-- The document under `RUN_ARTIFACT_RETENTION_DETAILS_KEY`. -/
structure RetentionDetails where
  attempts : Nat := 0
  updatedAt : Option Instant := none
  failureCode : Option String := none
  failedArtifacts : Nat := 0
  retryAfter : Option Instant := none
  deferredArtifactIds : List String := []
deriving DecidableEq

/-- A run report with the metadata keys that retention reads. `unverified` is the mark a
pass keeps in memory for a report whose storage identity it could not resolve. -/
structure PipelineRunReport where
  runId : String
  intent : RunIntent
  status : RunStatus
  endedAt : Option Instant
  artifacts : List ArtifactResult
  storageRunId : Option String := none
  retention : Option RetentionState := none
  details : Option RetentionDetails := none
  unverified : Bool := false
deriving DecidableEq

namespace PipelineRunReport

/-- `artifact_storage_run_id`; `none` is its `ValueError`. -/
def artifactStorageRunId (report : PipelineRunReport) : Option String :=
  let value := report.storageRunId.getD report.runId
  if isBlank value then none else some value

/-- The run is over and its retention window has passed. -/
def isOver (cutoff : Instant) (report : PipelineRunReport) : Bool :=
  report.status.terminal && report.endedAt.any (· ≤ cutoff)

def hasDurable (report : PipelineRunReport) : Bool := report.artifacts.any (·.durable)

/-- `details["deferred_artifact_ids"]`. -/
def deferred (report : PipelineRunReport) : List String :=
  (report.details.map (·.deferredArtifactIds)).getD []

end PipelineRunReport

/-! ## Directories -/

/-- One reference of an ownership record: the file it names and its expiry record. -/
structure OwnedReference where
  identity : String
  expiry : String
deriving DecidableEq

/-- The payload of an ownership record. -/
structure Owner where
  terminal : Bool
  endedAt : Option Instant
  references : List OwnedReference
  cleanedArtifactIds : List String := []
deriving DecidableEq

namespace Owner

def expired (cutoff : Instant) (owner : Owner) : Bool :=
  owner.terminal && owner.endedAt.any (· ≤ cutoff)

/-- `ended_at + timedelta(seconds=retention_seconds)` of a terminal run. -/
def expiresAt (retentionSeconds : Nat) (owner : Owner) : Option Instant :=
  if owner.terminal then owner.endedAt.map (· + seconds retentionSeconds) else none

end Owner

/-- The report store and the artifact directories. A workspace is named by the last part of
its path; files, expiry records and ownership records are named by their stem. -/
structure Disk where
  rows : Dict String PipelineRunReport
  files : List (String × String)
  marks : List (String × String)
  owners : Dict (String × String) Owner
  keyed : rows.All fun runId row => row.runId = runId

/-- One atomic write. -/
inductive Write where
  | expire (workspace key : String)
  | unlink (workspace stem : String)
  | putOwner (workspace stem : String) (owner : Owner)
  | putRow (row : PipelineRunReport)

namespace Disk

def empty : Disk := ⟨Dict.empty, [], [], Dict.empty, fun _ _ hget => by cases hget⟩

/-- `report_store.list()`. -/
def inventory (d : Disk) : List PipelineRunReport := (d.rows.entries.map Prod.snd).reverse

def apply (d : Disk) : Write → Disk
  | .expire workspace key => { d with marks := (workspace, key) :: d.marks }
  | .unlink workspace stem => { d with files := d.files.filter (· ≠ (workspace, stem)) }
  | .putOwner workspace stem owner => { d with owners := d.owners.set (workspace, stem) owner }
  | .putRow row => { d with rows := d.rows.set row.runId row, keyed := d.keyed.set rfl }

theorem mem_inventory {d : Disk} {row : PipelineRunReport} :
    row ∈ d.inventory ↔ d.rows.get? row.runId = some row := by
  unfold inventory
  rw [List.mem_reverse, List.mem_map]
  constructor
  · rintro ⟨⟨runId, row'⟩, hmem, rfl⟩
    have hget := Dict.mem_entries_iff.mp hmem
    rw [d.keyed _ _ hget]
    exact hget
  · intro hget
    exact ⟨(row.runId, row), Dict.mem_entries_iff.mpr hget, rfl⟩

theorem mem_inventory_putRow {d : Disk} {row row' : PipelineRunReport} :
    row' ∈ (d.apply (.putRow row)).inventory ↔
      row' = row ∨ (row.runId ≠ row'.runId ∧ row' ∈ d.inventory) := by
  rw [mem_inventory, mem_inventory]
  show (d.rows.set row.runId row).get? row'.runId = some row' ↔ _
  rw [Dict.get?_set_eq_some]
  constructor
  · rintro (⟨-, rfl⟩ | ⟨hne, hget⟩)
    · exact .inl rfl
    · exact .inr ⟨hne, hget⟩
  · rintro (rfl | ⟨hne, hget⟩)
    · exact .inl ⟨rfl, rfl⟩
    · exact .inr ⟨hne, hget⟩

/-- A run that was in the report store stays there. -/
theorem inventory_covers_putRow {d : Disk} (row : PipelineRunReport) {row' : PipelineRunReport}
    (hmem : row' ∈ d.inventory) :
    ∃ held ∈ (d.apply (.putRow row)).inventory, held.runId = row'.runId := by
  by_cases heq : row.runId = row'.runId
  · exact ⟨row, mem_inventory_putRow.mpr (.inl rfl), heq⟩
  · exact ⟨row', mem_inventory_putRow.mpr (.inr ⟨heq, hmem⟩), rfl⟩

end Disk

/-! ## Storage identities -/

/-- What a resolver makes of a report: it vouches for the report, and for the storage
identity of one that names none; it cannot verify it; or it fails. -/
inductive Verdict where
  | verified (storage : Option String)
  | unverified
  | raised

/-- The digests, and the accepted evidence behind the reports of the runs. -/
structure Host where
  hash : String → String
  scopeFragment : String → String
  verdict : String → Option String → RunIntent → Verdict

variable (h : Host)

/-- Requeue the references of a row that an older pass marked without touching its files. -/
def requeue (report : PipelineRunReport) : PipelineRunReport :=
  { report with
    artifacts := report.artifacts.map fun a =>
      if a.durable then { a with status := "available" } else a
    retention := some .pending }

/-- `normalize` of a retention pass; `none` is an exception. -/
def normalize (report : PipelineRunReport) : Option PipelineRunReport :=
  let report := { report with unverified := false }
  match h.verdict report.runId report.storageRunId report.intent with
  | .raised => none
  | .unverified => some { report with retention := some .running, unverified := true }
  | .verified storage =>
      match report.storageRunId with
      | some _ => some report
      | none =>
          let resolved := { report with storageRunId := storage }
          if report.intent.lifecycle && storage.isNone then none
          else do
            let owner ← resolved.artifactStorageRunId
            if owner ≠ report.runId && (report.retention = some .complete ||
                report.artifacts.any fun a => a.durable && a.expired) then
              some (requeue resolved)
            else some resolved

/-- The storage identity of a report after its resolution. -/
def adopted (runId : String) (storage : Option String) (intent : RunIntent) : Option String :=
  match h.verdict runId storage intent with
  | .verified found => storage.or found
  | _ => storage

theorem adopted_some (runId storage : String) (intent : RunIntent) :
    adopted h runId (some storage) intent = some storage := by
  unfold adopted
  cases h.verdict runId (some storage) intent <;> rfl

/-- A second resolution changes nothing. -/
theorem adopted_adopted (runId : String) (storage : Option String) (intent : RunIntent) :
    adopted h runId (adopted h runId storage intent) intent = adopted h runId storage intent := by
  cases hstorage : adopted h runId storage intent with
  | some found => exact adopted_some h runId found intent
  | none =>
      cases storage with
      | some given =>
          rw [adopted_some] at hstorage
          cases hstorage
      | none => exact hstorage

/-- What `normalize` leaves alone: the row keeps its run, and its artifacts unless all of its
durable ones are requeued. -/
structure Normalized (row report : PipelineRunReport) : Prop where
  runId : report.runId = row.runId
  intent : report.intent = row.intent
  isOver : ∀ cutoff, report.isOver cutoff = row.isOver cutoff
  storage : report.storageRunId = adopted h row.runId row.storageRunId row.intent
  durable : report.hasDurable = row.hasDurable
  kept : (report.artifacts = row.artifacts ∧ report.details = row.details ∧
      (report.unverified = true ∨ report.retention = row.retention)) ∨
    ∀ a ∈ report.artifacts, a.durable = true → a.expired = false

theorem hasDurable_requeue (report : PipelineRunReport) :
    (requeue report).hasDurable = report.hasDurable := by
  unfold PipelineRunReport.hasDurable requeue
  rw [List.any_map]
  congr 1
  funext a
  by_cases hd : a.durable = true
  · simp [hd]
    exact hd
  · simp [hd]

theorem normalize_spec {row report : PipelineRunReport} (hn : normalize h row = some report) :
    Normalized h row report := by
  unfold normalize at hn
  cases hv : h.verdict row.runId row.storageRunId row.intent with
  | raised => simp [hv] at hn
  | unverified =>
      simp only [hv, Option.some.injEq] at hn
      subst hn
      exact ⟨rfl, rfl, fun _ => rfl, by simp [adopted, hv], rfl, .inl ⟨rfl, rfl, .inl rfl⟩⟩
  | verified found =>
      simp only [hv] at hn
      cases hs : row.storageRunId with
      | some given =>
          simp only [hs, Option.some.injEq] at hn
          subst hn
          exact ⟨rfl, rfl, fun _ => rfl, by simp [adopted_some, hs], rfl,
            .inl ⟨rfl, rfl, .inr rfl⟩⟩
      | none =>
          rw [hs] at hv
          have hadopted : adopted h row.runId none row.intent = found := by
            simp [adopted, hv]
          simp only [hs] at hn
          split at hn
          · cases hn
          · obtain ⟨owner, -, hn⟩ := Option.bind_eq_some_iff.mp hn
            split at hn
            · obtain rfl := Option.some.inj hn
              refine ⟨rfl, rfl, fun _ => rfl, by rw [hs, hadopted]; rfl,
                hasDurable_requeue _, .inr fun a ha hd => ?_⟩
              obtain ⟨b, -, rfl⟩ := List.mem_map.mp ha
              by_cases hb : b.durable = true
              · simp [hb, ArtifactResult.expired]
              · simp [hb] at hd
            · obtain rfl := Option.some.inj hn
              exact ⟨rfl, rfl, fun _ => rfl, by rw [hs, hadopted], rfl,
                .inl ⟨rfl, rfl, .inr rfl⟩⟩

/-- The workspace a row resolves to. -/
def homeOf (row : PipelineRunReport) : Option String :=
  let resolved := { row with storageRunId := adopted h row.runId row.storageRunId row.intent }
  resolved.artifactStorageRunId.map h.scopeFragment

theorem homeOf_congr {row row' : PipelineRunReport} (hrun : row'.runId = row.runId)
    (hstorage : row'.storageRunId = row.storageRunId) (hintent : row'.intent = row.intent) :
    homeOf h row' = homeOf h row := by
  unfold homeOf PipelineRunReport.artifactStorageRunId
  simp only [hrun, hstorage, hintent]

theorem homeOf_normalized {row report : PipelineRunReport}
    (hn : normalize h row = some report) :
    homeOf h row = report.artifactStorageRunId.map h.scopeFragment := by
  have hspec := normalize_spec h hn
  unfold homeOf PipelineRunReport.artifactStorageRunId
  simp only [hspec.runId, hspec.storage]

/-- The report a row resolves to has the home of the row. -/
theorem homeOf_report {row report : PipelineRunReport} (hn : normalize h row = some report) :
    homeOf h report = report.artifactStorageRunId.map h.scopeFragment := by
  have hspec := normalize_spec h hn
  rw [← homeOf_normalized h hn]
  unfold homeOf PipelineRunReport.artifactStorageRunId
  simp only [hspec.runId, hspec.storage, hspec.intent, adopted_adopted]

/-- `[normalize(item) for item in inventory()]`. -/
def normalized (d : Disk) : Option (List PipelineRunReport) := d.inventory.mapM (normalize h)

/-! ## Expiry of references -/

/-- The stem of `_expiry_path`. -/
def expiryKey (runId identity : String) : String := h.hash (runId ++ "\x00" ++ identity)

/-- The tombstone of a reference is on disk. -/
def marked (d : Disk) (workspace runId identity : String) : Bool :=
  decide ((workspace, expiryKey h runId identity) ∈ d.marks)

/-- `sorted({*items})`. -/
def sortedSet (items : List String) : List String := items.dedup.insertionSort (· ≤ ·)

theorem mem_sortedSet {items : List String} {x : String} : x ∈ sortedSet items ↔ x ∈ items := by
  unfold sortedSet
  rw [List.mem_insertionSort, List.mem_dedup]

/-- `apply_artifact_expiry`. -/
def applyArtifactExpiry (d : Disk) (workspace : String) (report : PipelineRunReport) :
    PipelineRunReport :=
  let fresh := fun a : ArtifactResult =>
    a.durable && marked h d workspace report.runId a.identity && !a.expired
  let artifacts := report.artifacts.map fun a => if fresh a then a.expire else a
  let expired := (report.artifacts.filter fresh).map (·.identity)
  if expired.isEmpty then report
  else if report.retention = some .complete then { report with artifacts := artifacts }
  else
    { report with
      artifacts := artifacts
      details := some { report.details.getD {} with
        deferredArtifactIds := sortedSet (report.deferred ++ expired) }
      retention := some (report.retention.getD .pending) }

/-! ## Ownership records -/

/-- `record_artifact_ownership`: the record it writes, if any. -/
def recordArtifactOwnership (workspace : String) (report : PipelineRunReport) : List Write :=
  let references := (report.artifacts.filter fun a => a.durable && !a.expired).map fun a =>
    (⟨h.hash a.identity, expiryKey h report.runId a.identity⟩ : OwnedReference)
  if references.isEmpty then []
  else
    [.putOwner workspace (h.hash report.runId)
      ⟨report.status.terminal, report.endedAt, references, []⟩]

/-- An unpublished reference that awaits its cleanup, with the stem of its owner. -/
structure ExpiredArtifactOwnership where
  identity : String
  expiry : String
  owner : String
deriving DecidableEq

/-- `ArtifactOwnershipInventory`; the payloads of the expired owners are kept once, since
their references share them. -/
structure ArtifactOwnershipInventory where
  protectedIds : List String
  expired : List ExpiredArtifactOwnership
  stamps : List (String × Option Instant)
  payloads : Dict String Owner

/-- The ownership records of a workspace whose run is not among the known ones. -/
def unpublished (d : Disk) (workspace : String) (reportRunIds : List String) :
    List (String × Owner) :=
  (d.owners.entries.filter fun e =>
    e.1.1 = workspace && !decide (e.1.2 ∈ reportRunIds.map h.hash)).map fun e => (e.1.2, e.2)

/-- The references of a record that is not expired and that carry no tombstone. -/
def protectedBy (d : Disk) (workspace : String) (cutoff : Instant) (owner : Owner) :
    List OwnedReference :=
  if owner.expired cutoff then []
  else owner.references.filter fun r => !decide ((workspace, r.expiry) ∈ d.marks)

/-- The references of an expired record that are not recorded as cleaned. -/
def awaiting (cutoff : Instant) (entry : String × Owner) : List ExpiredArtifactOwnership :=
  if entry.2.expired cutoff then
    (entry.2.references.filter fun r =>
      !decide (r.identity ∈ entry.2.cleanedArtifactIds)).map fun r =>
        ⟨r.identity, r.expiry, entry.1⟩
  else []

/-- `read_artifact_ownership`. -/
def readArtifactOwnership (d : Disk) (workspace : String) (cutoff : Instant)
    (reportRunIds : List String) (retentionSeconds : Nat) : ArtifactOwnershipInventory :=
  let owners := unpublished h d workspace reportRunIds
  { protectedIds := owners.flatMap fun e =>
      (protectedBy d workspace cutoff e.2).map (·.identity)
    expired := owners.flatMap (awaiting cutoff)
    stamps := owners.flatMap fun e =>
      (protectedBy d workspace cutoff e.2).map fun r =>
        (r.identity, e.2.expiresAt retentionSeconds)
    payloads := Dict.empty.setAll (owners.filter fun e => e.2.expired cutoff) }

/-- `ownership.retry_after.get(identity)`. -/
def ArtifactOwnershipInventory.retryAfter (ownership : ArtifactOwnershipInventory)
    (identity : String) : Option Instant :=
  match (ownership.stamps.filter (·.1 = identity)).map Prod.snd with
  | [] => none
  | first :: rest =>
      rest.foldl (fun previous stamp => do return max (← previous) (← stamp)) first

end Etlantic.Runtime
