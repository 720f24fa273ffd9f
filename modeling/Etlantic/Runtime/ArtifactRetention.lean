import Etlantic.Runtime.ArtifactCoordination
import Etlantic.Base.Runs

/-!
# The retention pass

`cleanup_expired_run_artifacts` as a machine that makes at most one write a
step, so that a crash between any two writes and any interleaving with other
passes and with publications is a sequence of steps.

A pass goes through the workspaces that hold ownership records, and then through
the reports whose window has passed.  While it works on a workspace it holds the
lock of that workspace; runs record their ownership and publish their rows under
the same lock.
-/

namespace Etlantic.Runtime

open ControlPlane (Instant seconds)

/-- `_MAX_BATCH`. -/
def maxBatch : Nat := 1000

structure RetentionSettings where
  current : Instant
  retentionSeconds : Nat
  limit : Nat
  retention_pos : 1 ≤ retentionSeconds
  limit_pos : 1 ≤ limit
  limit_le : limit ≤ maxBatch

namespace RetentionSettings

def cutoff (s : RetentionSettings) : Instant := s.current - seconds s.retentionSeconds

/-- `pending`. -/
def pending (s : RetentionSettings) (report : PipelineRunReport) : Bool :=
  report.isOver s.cutoff && decide (report.retention ≠ some .complete) && !report.unverified

/-- `eligible`. -/
def eligible (s : RetentionSettings) (report : PipelineRunReport) : Bool :=
  s.pending report &&
    ((report.details.bind (·.retryAfter)).map fun retry => decide (retry ≤ s.current)).getD true

end RetentionSettings

variable (h : Host)

/-! ## Protection -/

/-- What one retained report protects in a workspace; `none` is an exception. -/
def heldBy (d : Disk) (workspace : String) (cutoff : Instant) (report : PipelineRunReport) :
    Option (List String) :=
  if report.unverified then
    some ((d.files.filter (·.1 = workspace)).map Prod.snd)
  else if report.isOver cutoff then some []
  else do
    let storage ← report.artifactStorageRunId
    if h.scopeFragment storage ≠ workspace then return []
    else
      return (((applyArtifactExpiry h d workspace report).artifacts.filter fun a =>
        a.durable && !a.expired).map fun a => h.hash a.identity)

/-- `protected_references`. -/
def protectedReferences (d : Disk) (workspace : String) (cutoff : Instant)
    (reports : List PipelineRunReport) : Option (List String) := do
  let held ← reports.mapM (heldBy h d workspace cutoff)
  return held.flatten

/-! ## The state of a pass -/

inductive OrphanStep where
  | expire
  | unlink
  | complete
deriving DecidableEq

/-- The work on the unpublished references of one workspace: `step` is the next call for the
first of them. -/
structure OrphanSection where
  workspace : String
  kept : List String
  payloads : Dict String Owner
  todo : List ExpiredArtifactOwnership
  step : OrphanStep

inductive ReportStep where
  | announce
  | scan
  | unlink
  | expire
  | record
deriving DecidableEq

/-- The work on one report: `index` is the artifact the loop has come to. `guarded` says that
the workspace lock is held. -/
structure ReportSection where
  workspace : String
  guarded : Bool
  kept : List String
  ownership : ArtifactOwnershipInventory
  working : PipelineRunReport
  index : Nat
  failed : Nat
  step : ReportStep

inductive Stage where
  | orphans (todo : List String)
  | orphan (work : OrphanSection) (rest : List String)
  | selecting
  | reports (todo : List PipelineRunReport)
  | report (work : ReportSection) (rest : List PipelineRunReport)
  | ended

structure Pass where
  settings : RetentionSettings
  stage : Stage
  touched : Nat := 0
  processed : Nat := 0
  busy : List String := []

namespace Pass

/-- The workspace whose lock the pass holds. -/
def holds (p : Pass) : Option String :=
  match p.stage with
  | .orphan work _ => some work.workspace
  | .report work _ => if work.guarded then some work.workspace else none
  | _ => none

def goTo (p : Pass) (stage : Stage) : Pass := { p with stage := stage }

def cutoff (p : Pass) : Instant := p.settings.cutoff

@[simp] theorem goTo_stage (p : Pass) (stage : Stage) : (p.goTo stage).stage = stage := rfl

end Pass

/-- The effect of one step: the pass afterwards, the write it made, and the reference of its
report that it settled by that write. -/
structure Outcome where
  pass : Pass
  write : Option Write := none
  settles : Option (String × String) := none

/-! ## Unpublished references -/

/-- Take up the next workspace with ownership records. -/
def openOrphans (d : Disk) (acquired : Bool) (p : Pass) (workspace : String)
    (rest : List String) : Pass :=
  if p.settings.limit ≤ p.touched then p.goTo .selecting
  else if !acquired then { p with stage := .orphans rest, busy := workspace :: p.busy }
  else
    let ownership :=
      readArtifactOwnership h d workspace p.cutoff [] p.settings.retentionSeconds
    if ownership.expired.isEmpty then p.goTo (.orphans rest)
    else if ownership.expired.any fun r => decide ((workspace, r.identity) ∈ d.files) then
      match normalized h d with
      | none => p.goTo .ended
      | some reports =>
          let ownership := readArtifactOwnership h d workspace p.cutoff
            (reports.map (·.runId)) p.settings.retentionSeconds
          match protectedReferences h d workspace p.cutoff reports with
          | none => p.goTo .ended
          | some held =>
              p.goTo (.orphan ⟨workspace, held ++ ownership.protectedIds, ownership.payloads,
                ownership.expired, .expire⟩ rest)
    else
      p.goTo (.orphan ⟨workspace, ownership.protectedIds, ownership.payloads, ownership.expired,
        .expire⟩ rest)

/-- The next call for an unpublished reference; without `ok` the call fails. -/
def orphanStep (ok : Bool) (p : Pass) (work : OrphanSection) (rest : List String) : Outcome :=
  match work.todo with
  | [] => { pass := p.goTo (.orphans rest) }
  | reference :: more =>
      let skip := Stage.orphan { work with todo := more, step := .expire } rest
      match work.step with
      | .expire =>
          if p.settings.limit ≤ p.touched then { pass := p.goTo (.orphans rest) }
          else if ok then
            { pass := { p with
                stage := .orphan { work with step := .unlink } rest
                touched := p.touched + 1 }
              write := some (.expire work.workspace reference.expiry) }
          else { pass := { p with stage := skip, touched := p.touched + 1 } }
      | .unlink =>
          let next := Stage.orphan { work with step := .complete } rest
          if reference.identity ∈ work.kept then { pass := p.goTo next }
          else if ok then
            { pass := p.goTo next, write := some (.unlink work.workspace reference.identity) }
          else { pass := p.goTo skip }
      | .complete =>
          match work.payloads.get? reference.owner with
          | none => { pass := p.goTo .ended }
          | some payload =>
              -- The identity is appended to the shared payload before the write.
              let payload := { payload with
                cleanedArtifactIds :=
                  if reference.identity ∈ payload.cleanedArtifactIds then
                    payload.cleanedArtifactIds
                  else payload.cleanedArtifactIds ++ [reference.identity] }
              { pass := p.goTo (.orphan { work with
                  todo := more
                  step := .expire
                  payloads := work.payloads.set reference.owner payload } rest)
                write :=
                  if ok then some (.putOwner work.workspace reference.owner payload) else none }

/-! ## Reports -/

/-- The order of the candidates: `(ended_at, run_id)`. -/
def candidateLe (cutoff : Instant) (a b : PipelineRunReport) : Prop :=
  a.endedAt.getD cutoff < b.endedAt.getD cutoff ∨
    a.endedAt.getD cutoff = b.endedAt.getD cutoff ∧ a.runId ≤ b.runId

instance (cutoff : Instant) : DecidableRel (candidateLe cutoff) := fun a b =>
  inferInstanceAs (Decidable (a.endedAt.getD cutoff < b.endedAt.getD cutoff ∨
    a.endedAt.getD cutoff = b.endedAt.getD cutoff ∧ a.runId ≤ b.runId))

/-- List the candidates. -/
def select (d : Disk) (p : Pass) : Pass :=
  match normalized h d with
  | none => p.goTo .ended
  | some reports =>
      p.goTo (.reports ((reports.filter p.settings.eligible).insertionSort
        (candidateLe p.cutoff)))

/-- The report as it is put before its first artifact is touched. -/
def announced (settings : RetentionSettings) (report : PipelineRunReport) : PipelineRunReport :=
  let details := report.details.getD {}
  { report with
    retention := some .running
    details := some { details with
      attempts := details.attempts + 1
      updatedAt := some settings.current
      failureCode := none
      failedArtifacts := 0
      retryAfter := none } }

/-- Take up the report of a candidate; the flag says that its row carries durable artifacts, so
that the pass holds the lock of its workspace. -/
def openReport (d : Disk) (p : Pass) (candidate : PipelineRunReport) (workspace : String)
    (durable : Bool) (rest : List PipelineRunReport) : Pass :=
  match normalized h d with
  | none => p.goTo .ended
  | some reports =>
      match reports.find? (·.runId = candidate.runId) with
      | none => p.goTo (.reports rest)
      | some report =>
          if !p.settings.eligible report then p.goTo (.reports rest)
          -- The row gained durable artifacts after the candidates were listed.
          else if !durable && report.hasDurable then p.goTo (.reports rest)
          else if report.artifactStorageRunId.isNone ||
              report.artifactStorageRunId ≠ candidate.artifactStorageRunId then p.goTo .ended
          else
            match protectedReferences h d workspace p.cutoff reports with
            | none => p.goTo .ended
            | some held =>
                let ownership := readArtifactOwnership h d workspace p.cutoff
                  (reports.map (·.runId)) p.settings.retentionSeconds
                p.goTo (.report ⟨workspace, durable, held, ownership,
                  announced p.settings report, 0, 0, .announce⟩ rest)

/-- Take up the next candidate. -/
def openCandidate (d : Disk) (acquired : String → Bool) (p : Pass)
    (candidate : PipelineRunReport) (rest : List PipelineRunReport) : Pass :=
  if p.settings.limit ≤ p.touched || p.settings.limit ≤ p.processed then p.goTo .ended
  else
    match normalize h candidate with
    | none => p.goTo .ended
    | some candidate =>
        match candidate.artifactStorageRunId with
        | none => p.goTo .ended
        | some storage =>
            let workspace := h.scopeFragment storage
            if workspace ∈ p.busy then p.goTo (.reports rest)
            else if candidate.hasDurable && !acquired workspace then
              { p with stage := .reports rest, busy := workspace :: p.busy }
            else openReport h d p candidate workspace candidate.hasDurable rest

namespace ReportSection

/-- The stem is protected by a retained report, or by an unpublished record. -/
def spares (work : ReportSection) (stem : String) : Bool :=
  decide (stem ∈ work.kept) || decide (stem ∈ work.ownership.protectedIds)

/-- The stem is protected by unpublished records only. -/
def defers (work : ReportSection) (stem : String) : Bool :=
  decide (stem ∈ work.ownership.protectedIds) && !decide (stem ∈ work.kept)

/-- The row after the expiry of an artifact. -/
def recorded (work : ReportSection) (a : ArtifactResult) : PipelineRunReport :=
  let deferred :=
    if work.defers (h.hash a.identity) then a.identity :: work.working.deferred
    else work.working.deferred.filter (· ≠ a.identity)
  { work.working with
    artifacts := work.working.artifacts.set work.index a.expire
    details := some { work.working.details.getD {} with
      deferredArtifactIds := sortedSet deferred } }

/-- The instant of the next look at the deferred artifacts. -/
def retryAt (settings : RetentionSettings) (work : ReportSection) : Option Instant :=
  let retries := work.working.deferred.map fun identity =>
    (work.ownership.retryAfter (h.hash identity)).getD
      (settings.current + seconds (min 60 settings.retentionSeconds))
  retries.min?

/-- The row after the last artifact. -/
def concluded (settings : RetentionSettings) (work : ReportSection) : PipelineRunReport :=
  let details : RetentionDetails := { work.working.details.getD {} with
    updatedAt := some settings.current
    failedArtifacts := work.failed
    failureCode := if work.failed = 0 then none else some "filesystem_cleanup_failed" }
  if work.failed ≠ 0 then
    { work.working with retention := some .failed, details := some details }
  else if !work.working.deferred.isEmpty then
    { work.working with
      retention := some .running
      details := some { details with retryAfter := work.retryAt h settings } }
  else { work.working with retention := some .complete, details := some details }

end ReportSection

/-- The next call for a report; without `ok` the call fails. -/
def reportStep (d : Disk) (ok : Bool) (p : Pass) (work : ReportSection)
    (rest : List PipelineRunReport) : Outcome :=
  let next := fun (step : ReportStep) => Stage.report { work with step := step } rest
  let skip := Stage.report { work with index := work.index + 1, step := .scan } rest
  let miss := Stage.report { work with
    index := work.index + 1, failed := work.failed + 1, step := .scan } rest
  match work.step, work.working.artifacts[work.index]? with
  | .announce, _ =>
      if ok then
        { pass := { p with stage := next .scan, processed := p.processed + 1 }
          write := some (.putRow work.working) }
      else { pass := p.goTo .ended }
  | .scan, none =>
      if ok then
        { pass := p.goTo (.reports rest), write := some (.putRow (work.concluded h p.settings)) }
      else { pass := p.goTo .ended }
  | .scan, some a =>
      let deferred := decide (a.identity ∈ work.working.deferred)
      if !a.durable || (a.expired && !deferred) then { pass := p.goTo skip }
      else if a.expired && deferred && work.defers (h.hash a.identity) then
        -- Neither an expiry nor a deletion is possible for this reference.
        { pass := p.goTo skip }
      else if p.settings.limit ≤ p.touched then { pass := p.goTo .ended }
      else if a.identity = "" then { pass := p.goTo .ended }
      else { pass := { p with stage := next .unlink, touched := p.touched + 1 } }
  | .unlink, some a =>
      if work.spares (h.hash a.identity) then { pass := p.goTo (next .expire) }
      else if ok then
        { pass := p.goTo (next .expire)
          write := some (.unlink work.workspace (h.hash a.identity)) }
      else { pass := p.goTo miss }
  | .expire, some a =>
      if ok then
        { pass := p.goTo (next .record)
          write := some (.expire work.workspace (expiryKey h work.working.runId a.identity))
          settles :=
            if h.hash a.identity ∈ work.kept ∨
                (work.workspace, h.hash a.identity) ∉ d.files then
              some (work.working.runId, a.identity)
            else none }
      else { pass := p.goTo miss }
  | .record, some a =>
      let working := work.recorded h a
      if ok then
        { pass := p.goTo (.report { work with
            working := working, index := work.index + 1, step := .scan } rest)
          write := some (.putRow working) }
      else { pass := p.goTo .ended }
  | _, none => { pass := p.goTo .ended }

/-- One step of a pass. `free` says which workspaces are not locked; without `ok` the step finds
the lock of its workspace taken, or its call fails. -/
def advance (d : Disk) (free : String → Bool) (ok : Bool) (p : Pass) : Outcome :=
  match p.stage with
  | .orphans [] => { pass := p.goTo .selecting }
  | .orphans (workspace :: rest) =>
      { pass := openOrphans h d (ok && free workspace) p workspace rest }
  | .orphan work rest => orphanStep ok p work rest
  | .selecting => { pass := select h d p }
  | .reports [] => { pass := p.goTo .ended }
  | .reports (candidate :: rest) =>
      { pass := openCandidate h d (fun workspace => ok && free workspace) p candidate rest }
  | .report work rest => reportStep h d ok p work rest
  | .ended => { pass := p }

/-! ## Publications -/

/-- The report with the storage identity its resolver vouches for. -/
def resolve (report : PipelineRunReport) : Option PipelineRunReport :=
  match h.verdict report.runId report.storageRunId report.intent with
  | .verified storage => some { report with storageRunId := report.storageRunId.or storage }
  | _ => none

/-- The ways a row reaches the report store. -/
inductive Publication where
  /-- The runtime puts a result of its own through `_ResultRecoveryReportStore.put`. -/
  | stamped (storage : String) (report : PipelineRunReport)
  /-- A later attempt finds the row of its run and puts it again. -/
  | restamped (storage runId : String) (intent : Option RunIntent)
  /-- `publish_result_publication`. -/
  | reconciled (report : PipelineRunReport)
  /-- The row of a run outside the managed runtime, or of an older release. -/
  | plain (report : PipelineRunReport)

/-- The result that is reconciled, with the cleanup state of the current row: that state is not
part of the result. `none` is a rejection. -/
def withCurrent (current : Option PipelineRunReport) (storage : String)
    (report : PipelineRunReport) : Option PipelineRunReport :=
  match current with
  | none => some report
  | some current =>
      if current.storageRunId.isNone then some report
      else if current.artifactStorageRunId ≠ some storage then none
      else
        some { report with
          retention := current.retention.or report.retention
          details := current.details.or report.details }

/-- The row a publication puts, the workspace it belongs to, and whether its ownership is
recorded. -/
def published (d : Disk) : Publication → Option (String × PipelineRunReport × Bool)
  | .stamped storage report =>
      some (h.scopeFragment storage, { report with storageRunId := some storage }, true)
  | .restamped storage runId intent => do
      let existing ← d.rows.get? runId
      let workspace := h.scopeFragment storage
      let row := applyArtifactExpiry h d workspace { existing with storageRunId := some storage }
      return (workspace, { row with intent := intent.getD row.intent }, true)
  | .reconciled report => do
      let report ← resolve h report
      let storage ← report.artifactStorageRunId
      let workspace := h.scopeFragment storage
      let report ← withCurrent (d.rows.get? report.runId) storage report
      return (workspace, applyArtifactExpiry h d workspace report, true)
  | .plain report => do
      let resolved ← normalize h report
      let storage ← resolved.artifactStorageRunId
      return (h.scopeFragment storage, report, false)

/-- The references that a row carries as expired and not as deferred. -/
def carries (row : PipelineRunReport) : List (String × String) :=
  (row.artifacts.filter fun a =>
    a.durable && a.expired && !decide (a.identity ∈ row.deferred)).map fun a =>
      (row.runId, a.identity)

/-! ## The system -/

/-- The disk and the passes at work on it, with two records of what happened: `settled` are
the references a pass expired while their file was absent or protected by a retained report,
`carried` those that a publication put as expired. -/
structure System where
  disk : Disk
  passes : List Pass
  settled : List (String × String)
  carried : List (String × String)

namespace System

def fresh : System := ⟨Disk.empty, [], [], []⟩

def locked (s : System) (workspace : String) : Bool :=
  s.passes.any fun p => p.holds = some workspace

end System

inductive Action where
  | start (settings : RetentionSettings)
  | advance (pass : Nat) (ok : Bool)
  /-- A pass stops where it stands and its lock is released. -/
  | crash (pass : Nat)
  | writeArtifact (workspace stem : String)
  /-- A run records its ownership and its report never reaches the store. -/
  | recordOwnership (workspace : String) (report : PipelineRunReport)
  | publish (publication : Publication)

/-- `discover_artifact_workspaces`. -/
def discoverArtifactWorkspaces (d : Disk) : List String :=
  sortedSet (d.owners.entries.map fun e => e.1.1)

/-- What a step of a pass does to the system. -/
def System.settle (s : System) (i : Nat) (outcome : Outcome) : System :=
  { s with
    disk := (outcome.write.map s.disk.apply).getD s.disk
    passes := s.passes.set i outcome.pass
    settled := outcome.settles.toList ++ s.settled }

/-- One step of the system. An action that needs a lock that is taken does nothing. -/
def next (s : System) : Action → System
  | .start settings =>
      { s with passes := s.passes ++ [⟨settings, .orphans (discoverArtifactWorkspaces s.disk),
        0, 0, []⟩] }
  | .advance i ok =>
      match s.passes[i]? with
      | none => s
      | some p => s.settle i (advance h s.disk (fun workspace => !s.locked workspace) ok p)
  | .crash i =>
      match s.passes[i]? with
      | none => s
      | some p => { s with passes := s.passes.set i (p.goTo .ended) }
  | .writeArtifact workspace stem =>
      if s.locked workspace then s
      else { s with disk := { s.disk with files := (workspace, stem) :: s.disk.files } }
  | .recordOwnership workspace report =>
      if s.locked workspace then s
      else
        { s with
          disk := (recordArtifactOwnership h workspace report).foldl Disk.apply s.disk }
  | .publish publication =>
      match published h s.disk publication with
      | none => s
      | some (workspace, row, owned) =>
          if row.hasDurable && s.locked workspace then s
          else
            let writes :=
              (if owned then recordArtifactOwnership h workspace row else []) ++ [.putRow row]
            { s with
              disk := writes.foldl Disk.apply s.disk
              carried := carries row ++ s.carried }

end Etlantic.Runtime
