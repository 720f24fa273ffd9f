import Mathlib.Logic.Relation
import Etlantic.Base.Evolves
import Etlantic.ControlPlane.Schedule.ClaimAtomicity
import Etlantic.ControlPlane.Schedule.Refinement

/-!
# The recorded intent of an occurrence

The metadata of a firing says what the occurrence was claimed for.  An update may
add fields to it; linking a submission writes three fields, whatever they held.
-/

namespace Etlantic.ControlPlane.Schedule

open Durable (Key key Env)

/-- Values that compare equal, in one comparison or in several. -/
def SameValue (host : ScheduleHost) : Json → Json → Prop :=
  Relation.ReflTransGen fun v w => host.equal v w = true

/-- Every field keeps its value. -/
def KeepsIntent (host : ScheduleHost) (old new : List (String × Json)) : Prop :=
  ∀ name v, (Json.obj old).field? name = some v →
    ∃ v', (Json.obj new).field? name = some v' ∧ SameValue host v v'

/-- Every firing stays, with the values of its intent. -/
def StoresKeepIntent (host : ScheduleHost) (s t : Stores) : Prop :=
  ∀ k firing, s.firings.get? k = some firing →
    ∃ firing', t.firings.get? k = some firing' ∧ KeepsIntent host firing.metadata firing'.metadata

/-- The fields that linking writes. -/
def linkFields (request : LinkRequest) (definitionRevision : String) : List (String × Json) :=
  [("definition_revision_id", .str definitionRevision),
    ("plan_fingerprint", .str request.planFingerprint), ("admission", .str "managed")]

/-- A link that passes its checks for a firing without a submission. -/
structure Links (host : ScheduleHost) (env : Env) (ctx : ControlPlaneContext) (firingId : String)
    (request : LinkRequest) (s : Stores) (k : Key) (firing : FiringRecord)
    (definitionRevision : String) : Prop where
  found : findFiring s ctx firingId = some (k, firing)
  accepted : firing.status = .accepted
  leased : linkLeaseError (env.now [0]) firing request = none
  unlinked : firing.submissionId = none
  revision : ∃ submission,
    s.durable.submissions.get? (key ctx request.submissionId) = some submission ∧
      linkedRevision host firing (s.schedules.get? (key ctx firing.scheduleId)) submission
        request.planFingerprint = .ok definitionRevision
  named : isBlank request.submissionId = false

/-- Linking, where the call does it, finds in the intent nothing else than what it writes. -/
def Event.LinksAsIntended (host : ScheduleHost) (s : Stores) (e : Event) : Prop :=
  ∀ ctx firingId request, e.call = .linkFiringSubmission ctx firingId request →
    ∀ k firing definitionRevision,
      Links host e.env ctx firingId request s k firing definitionRevision →
      ∀ field ∈ linkFields request definitionRevision, ∀ v,
        (Json.obj firing.metadata).field? field.1 = some v → SameValue host v field.2

variable {host : ScheduleHost} {e : Event} {s t : Stores} {k : Key} {env : Env}
  {ctx : ControlPlaneContext} {firing firing' : FiringRecord}

/-! ## Metadata -/

theorem SameValue.refl (host : ScheduleHost) (v : Json) : SameValue host v v :=
  Relation.ReflTransGen.refl

theorem KeepsIntent.refl (host : ScheduleHost) (metadata : List (String × Json)) :
    KeepsIntent host metadata metadata :=
  fun _ v h => ⟨v, h, .refl host v⟩

theorem KeepsIntent.trans {a b c : List (String × Json)} (h : KeepsIntent host a b)
    (h' : KeepsIntent host b c) : KeepsIntent host a c := by
  intro name v hv
  obtain ⟨v', hv', hsame⟩ := h name v hv
  obtain ⟨v'', hv'', hsame'⟩ := h' name v' hv'
  exact ⟨v'', hv'', Relation.ReflTransGen.trans hsame hsame'⟩

theorem field?_setField (name key : String) (v : Json) (fields : List (String × Json)) :
    (Json.obj (Json.setField key v fields)).field? name =
      if key = name then some v else (Json.obj fields).field? name := by
  induction fields with
  | nil => by_cases h : key = name <;> simp [Json.setField, Json.field?, h]
  | cons f rest ih =>
      unfold Json.field? at ih ⊢
      unfold Json.setField
      by_cases hkey : f.1 = key
      · rw [if_pos hkey]
        by_cases h : key = name
        · simp [h]
        · have hf : ¬ f.1 = name := fun hname => h (hkey.symm.trans hname)
          simp [h, hf]
      · rw [if_neg hkey]
        by_cases hf : f.1 = name
        · have h : ¬ key = name := fun hname => hkey (hf.trans hname.symm)
          simp [h, hf]
        · simp only [List.find?_cons, hf, decide_false]
          exact ih

/-- Writing a field keeps the intent if the field holds the same value or is new. -/
theorem keepsIntent_setField {key : String} {value : Json} {fields : List (String × Json)}
    (h : ∀ v, (Json.obj fields).field? key = some v → SameValue host v value) :
    KeepsIntent host fields (Json.setField key value fields) := by
  intro name v hv
  rw [field?_setField]
  by_cases hname : key = name
  · subst hname
    exact ⟨value, if_pos rfl, h v hv⟩
  · exact ⟨v, by rw [if_neg hname, hv], .refl host v⟩

theorem mergeMetadata_keeps {metadata merged result : List (String × Json)}
    (h : mergeMetadata host merged metadata = .ok result) : KeepsIntent host merged result := by
  induction metadata generalizing merged with
  | nil =>
      obtain rfl := Except.ok.inj h
      exact .refl host merged
  | cons field rest ih =>
      obtain ⟨name, value⟩ := field
      unfold mergeMetadata at h
      split at h
      · cases h
      · rename_i hagrees
        refine (keepsIntent_setField fun v hv => ?_).trans (ih h)
        unfold Json.field? at hv
        obtain ⟨field, hfield, rfl⟩ := Option.map_eq_some_iff.mp hv
        rw [hfield] at hagrees
        exact Relation.ReflTransGen.single (by simpa using hagrees)

theorem keepsIntent_update {extra fields : List (String × Json)}
    (hnodup : (extra.map Prod.fst).Nodup) (h : ∀ field ∈ extra, ∀ v,
      (Json.obj fields).field? field.1 = some v → SameValue host v field.2) :
    KeepsIntent host fields (Json.update fields extra) := by
  induction extra generalizing fields with
  | nil => exact .refl host fields
  | cons field rest ih =>
      rw [List.map_cons, List.nodup_cons] at hnodup
      refine (keepsIntent_setField (h field List.mem_cons_self)).trans (ih hnodup.2 ?_)
      intro other hother v hv
      have hne : field.1 ≠ other.1 := by
        intro hsame
        exact hnodup.1 (hsame ▸ List.mem_map_of_mem hother)
      rw [field?_setField, if_neg hne] at hv
      exact h other (List.mem_cons_of_mem field hother) v hv

/-! ## One call -/

theorem StoresKeepIntent.of_eq (h : t.firings = s.firings) : StoresKeepIntent host s t := by
  intro k firing hget
  exact ⟨firing, by rw [h, hget], .refl host _⟩

theorem StoresKeepIntent.trans {u : Stores} (h : StoresKeepIntent host s t)
    (h' : StoresKeepIntent host t u) : StoresKeepIntent host s u :=
  Dict.Evolves.trans (fun _ _ _ => KeepsIntent.trans) h h'

/-- A write to a firing that is there. -/
theorem StoresKeepIntent.of_set (hget : s.firings.get? k = some firing)
    (hkeeps : KeepsIntent host firing.metadata firing'.metadata)
    (h : t.firings = s.firings.set k firing') : StoresKeepIntent host s t := by
  unfold StoresKeepIntent
  rw [h]
  exact Dict.Evolves.replace (fun _ => .refl host _) hget hkeeps

/-- A firing under a new key. -/
theorem StoresKeepIntent.of_new (hnew : s.firings.get? k = none)
    (h : t.firings = s.firings.set k firing') : StoresKeepIntent host s t := by
  unfold StoresKeepIntent
  rw [h]
  exact Dict.Evolves.add (fun _ => .refl host _) hnew

theorem storeFiring_keeps {firingId : String} (hfind : findFiring s ctx firingId = some (k, firing))
    (hkeeps : KeepsIntent host firing.metadata firing'.metadata) :
    StoresKeepIntent host s (storeFiring k firing' s).stores :=
  .of_set (findFiring_eq_some hfind).1 hkeeps rfl

theorem acquireFiringPreparation_keeps (firingId ownerId : String) (ttlSeconds : Int) (s : Stores) :
    StoresKeepIntent host s
      (acquireFiringPreparation env ctx firingId ownerId ttlSeconds s).stores := by
  unfold acquireFiringPreparation
  split
  · exact .of_eq rfl
  · split
    · exact .of_eq rfl
    · split
      · exact .of_eq rfl
      · rename_i k firing hfind
        repeat' split
        all_goals first
          | exact .of_eq rfl
          | exact storeFiring_keeps hfind (.refl host firing.metadata)

theorem updateFiringMetadata_keeps (firingId : String) (metadata : List (String × Json))
    (ownerId : String) (fencingToken : Int) (s : Stores) : StoresKeepIntent host s
      (updateFiringMetadata host env ctx firingId metadata ownerId fencingToken s).stores := by
  unfold updateFiringMetadata
  split
  · exact .of_eq rfl
  · split
    · exact .of_eq rfl
    · rename_i k firing hfind
      split
      · exact .of_eq rfl
      · split
        · exact .of_eq rfl
        · rename_i merged hmerged
          exact storeFiring_keeps hfind (mergeMetadata_keeps hmerged)

theorem releaseFiringPreparation_keeps (firingId ownerId : String) (fencingToken : Int)
    (s : Stores) : StoresKeepIntent host s
      (releaseFiringPreparation ctx firingId ownerId fencingToken s).stores := by
  unfold releaseFiringPreparation
  split
  · exact .of_eq rfl
  · rename_i k firing hfind
    split
    · exact storeFiring_keeps hfind (.refl host firing.metadata)
    · exact .of_eq rfl

theorem beginFiringSubmission_keeps (firingId ownerId : String) (fencingToken : Int)
    (attemptId : Option String) (s : Stores) : StoresKeepIntent host s
      (beginFiringSubmission env ctx firingId ownerId fencingToken attemptId s).stores := by
  unfold beginFiringSubmission
  dsimp only
  split
  · exact .of_eq rfl
  · split
    · exact .of_eq rfl
    · rename_i k firing hfind
      repeat' split
      all_goals first
        | exact .of_eq rfl
        | exact storeFiring_keeps hfind (.refl host firing.metadata)

theorem rejectFiringSubmission_keeps (firingId attemptId : String) (s : Stores) :
    StoresKeepIntent host s (rejectFiringSubmission ctx firingId attemptId s).stores := by
  unfold rejectFiringSubmission
  split
  · exact .of_eq rfl
  · rename_i k firing hfind
    split
    · exact storeFiring_keeps hfind (.refl host firing.metadata)
    · exact .of_eq rfl

theorem failFiringAfterCompensatedSubmission_keeps (firingId attemptId : String) (s : Stores) :
    StoresKeepIntent host s
      (failFiringAfterCompensatedSubmission ctx firingId attemptId s).stores := by
  unfold failFiringAfterCompensatedSubmission
  split
  · exact .of_eq rfl
  · rename_i k firing hfind
    repeat' split
    all_goals first
      | exact .of_eq rfl
      | exact storeFiring_keeps hfind (.refl host firing.metadata)

theorem failFiringPreparation_keeps (firingId ownerId : String) (fencingToken : Int)
    (s : Stores) : StoresKeepIntent host s
      (failFiringPreparation env ctx firingId ownerId fencingToken s).stores := by
  unfold failFiringPreparation
  split
  · exact .of_eq rfl
  · rename_i k firing hfind
    repeat' split
    all_goals first
      | exact .of_eq rfl
      | exact storeFiring_keeps hfind (.refl host firing.metadata)

/-- A link that changes a firing is one that passes its checks. -/
theorem linkFiringSubmission_keeps {firingId : String} {request : LinkRequest}
    (h : ∀ k firing definitionRevision,
      Links host env ctx firingId request s k firing definitionRevision →
      ∀ field ∈ linkFields request definitionRevision, ∀ v,
        (Json.obj firing.metadata).field? field.1 = some v → SameValue host v field.2) :
    StoresKeepIntent host s (linkFiringSubmission host env ctx firingId request s).stores := by
  unfold linkFiringSubmission
  split
  · exact .of_eq rfl
  · rename_i k firing hfind
    split
    · exact .of_eq rfl
    · rename_i haccepted
      split
      · exact .of_eq rfl
      · rename_i hleased
        split
        · split <;> exact .of_eq rfl
        · rename_i hunlinked
          split
          · exact .of_eq rfl
          · rename_i submission hsubmission
            split
            · exact .of_eq rfl
            · rename_i definitionRevision hrevision
              split
              · exact .of_eq rfl
              · rename_i hnamed
                refine storeFiring_keeps hfind (keepsIntent_update (by simp) ?_)
                exact h k firing definitionRevision ⟨hfind, not_not.mp haccepted, hleased,
                  hunlinked, ⟨submission, hsubmission, hrevision⟩,
                  Bool.eq_false_iff.mpr hnamed⟩

theorem linkedRevision_of_accepted {schedule : ScheduleRecord} {row : SubmissionRecord}
    {planFingerprint logical expected snapshot : String}
    (hexpected : expectedDefinitionRevision firing (some schedule) = some expected)
    (hkey : firingKey firing.scheduleId firing.revisionId firing.nominalFireTime = .ok logical)
    (hrevision : row.revisionId = some expected) (hoperation : row.operation = "run.submit")
    (hplan : row.planFingerprint = planFingerprint)
    (hidempotency : row.idempotencyKey = scheduleIdempotencyKey host logical)
    (hsnapshot : row.inputSnapshot = some snapshot) (hne : snapshot ≠ "") :
    linkedRevision host firing (some schedule) row planFingerprint = .ok expected := by
  unfold linkedRevision
  rw [hexpected]
  simp [hkey, hrevision, hoperation, hplan, hidempotency, hsnapshot, hne]

theorem linkFiringSubmission_of_links {firingId definitionRevision : String}
    {request : LinkRequest}
    (h : Links host env ctx firingId request s k firing definitionRevision) :
    linkFiringSubmission host env ctx firingId request s =
      storeFiring k (linkedFiring firing request definitionRevision) s := by
  obtain ⟨submission, hsubmission, hrevision⟩ := h.revision
  unfold linkFiringSubmission
  rw [h.found]
  dsimp only
  rw [if_neg (not_not.mpr h.accepted), h.leased]
  dsimp only
  rw [h.unlinked]
  dsimp only
  rw [hsubmission]
  dsimp only
  rw [hrevision]
  dsimp only
  rw [if_neg (Bool.eq_false_iff.mp h.named)]

theorem field?_linkedFiring {request : LinkRequest} {definitionRevision : String}
    {field : String × Json} (h : field ∈ linkFields request definitionRevision) :
    (Json.obj (linkedFiring firing request definitionRevision).metadata).field? field.1 =
      some field.2 := by
  simp only [linkFields, List.mem_cons, List.not_mem_nil, or_false] at h
  rcases h with rfl | rfl | rfl <;>
    simp [linkedFiring, Json.update, field?_setField]

/-- A link that keeps the intent of its firing found in it what it writes. -/
theorem Links.asIntended {firingId definitionRevision : String} {request : LinkRequest}
    (h : Links host env ctx firingId request s k firing definitionRevision)
    (hkeeps : StoresKeepIntent host s
      (linkFiringSubmission host env ctx firingId request s).stores) :
    ∀ field ∈ linkFields request definitionRevision, ∀ v,
      (Json.obj firing.metadata).field? field.1 = some v → SameValue host v field.2 := by
  intro field hfield v hv
  rw [linkFiringSubmission_of_links h] at hkeeps
  obtain ⟨firing', hfiring', hintent⟩ := hkeeps k firing (findFiring_eq_some h.found).1
  obtain rfl : linkedFiring firing request definitionRevision = firing' :=
    Option.some.inj ((Dict.get?_set_self _ _ _).symm.trans hfiring')
  obtain ⟨v', hv', hsame⟩ := hintent field.1 v hv
  rw [field?_linkedFiring hfield] at hv'
  obtain rfl := Option.some.inj hv'
  exact hsame

theorem claimFiring_keeps (request : ClaimRequest) (s : Stores) :
    StoresKeepIntent host s (claimFiring host env ctx request s).stores := by
  rcases claimFiring_cases with ⟨logical, record, nominal, status, hrecordable⟩ |
    ⟨error, hraised⟩ | ⟨existing, hfound⟩
  · obtain ⟨firing, s', hclaim, -, hfirings, -⟩ := claimFiring_of_recordable hrecordable
    have hset : (storeClaim host env ctx request record logical firing s').stores.firings =
        s.firings.set (key ctx logical) firing := by
      unfold storeClaim
      rw [← hfirings]
      dsimp only
      split <;> rfl
    rw [hclaim]
    exact .of_new hrecordable.free hset
  · rw [hraised]
    exact .of_eq rfl
  · rw [hfound]
    exact .of_eq rfl

/-- The calls on schedules and on the leader lease leave the firings alone. -/
theorem setStatus_firings (scheduleId : String) (status : ScheduleStatus) (s : Stores) :
    (setStatus host env ctx scheduleId status s).stores.firings = s.firings := by
  unfold setStatus
  repeat' split
  all_goals rfl

/-- A call keeps the intent of every firing if it links as intended. -/
theorem next_keeps_intent (h : e.LinksAsIntended host s) :
    StoresKeepIntent host s (next host s e) := by
  obtain ⟨env, call⟩ := e
  unfold next Call.exec
  cases call with
  | durable call => exact .of_eq rfl
  | create ctx request =>
      dsimp only
      unfold create
      repeat' split
      all_goals exact .of_eq rfl
  | pause ctx scheduleId => exact .of_eq (setStatus_firings scheduleId .paused s)
  | resume ctx scheduleId => exact .of_eq (setStatus_firings scheduleId .active s)
  | delete ctx scheduleId => exact .of_eq (setStatus_firings scheduleId .deleted s)
  | amend ctx scheduleId amendment =>
      dsimp only
      unfold amend
      repeat' split
      all_goals exact .of_eq rfl
  | transferTimerOwner ctx scheduleId transfer =>
      dsimp only
      unfold transferTimerOwner
      repeat' split
      all_goals exact .of_eq rfl
  | acquireLeaderLease ctx ownerId ttlSeconds =>
      dsimp only
      unfold acquireLeaderLease
      dsimp only
      repeat' split
      all_goals exact .of_eq rfl
  | heartbeatLeader ctx ownerId fencingToken ttlSeconds =>
      dsimp only
      unfold heartbeatLeader
      repeat' split
      all_goals exact .of_eq rfl
  | releaseLeader ctx ownerId fencingToken =>
      dsimp only
      unfold releaseLeader
      repeat' split
      all_goals exact .of_eq rfl
  | claimFiring ctx request => exact claimFiring_keeps request s
  | acquireFiringPreparation ctx firingId ownerId ttlSeconds =>
      exact acquireFiringPreparation_keeps firingId ownerId ttlSeconds s
  | updateFiringMetadata ctx firingId metadata ownerId fencingToken =>
      exact updateFiringMetadata_keeps firingId metadata ownerId fencingToken s
  | releaseFiringPreparation ctx firingId ownerId fencingToken =>
      exact releaseFiringPreparation_keeps firingId ownerId fencingToken s
  | beginFiringSubmission ctx firingId ownerId fencingToken attemptId =>
      exact beginFiringSubmission_keeps firingId ownerId fencingToken attemptId s
  | rejectFiringSubmission ctx firingId attemptId =>
      exact rejectFiringSubmission_keeps firingId attemptId s
  | failFiringAfterCompensatedSubmission ctx firingId attemptId =>
      exact failFiringAfterCompensatedSubmission_keeps firingId attemptId s
  | failFiringPreparation ctx firingId ownerId fencingToken =>
      exact failFiringPreparation_keeps firingId ownerId fencingToken s
  | linkFiringSubmission ctx firingId request =>
      exact linkFiringSubmission_keeps (h ctx firingId request rfl)

theorem next_keeps_intent_iff :
    StoresKeepIntent host s (next host s e) ↔ e.LinksAsIntended host s := by
  constructor
  · rintro hkeeps ctx firingId request hcall k firing definitionRevision hlinks
    obtain ⟨env, call⟩ := e
    obtain rfl : call = .linkFiringSubmission ctx firingId request := hcall
    exact hlinks.asIntended hkeeps
  · exact next_keeps_intent

/-! ## A whole run -/

theorem reached_append_singleton (host : ScheduleHost) (limit : Option Int) (es : List Event)
    (e : Event) : reached host limit (es ++ [e]) = next host (reached host limit es) e :=
  Runs.run_append_singleton _ es e

/-- In every run that links as intended, a field that a firing has keeps its value. -/
theorem intent_append_only (host : ScheduleHost) (limit : Option Int) (before after : List Event)
    (h : Runs.Guarded (next host) (fun s e => e.LinksAsIntended host s) (.init (.init limit))
      (before ++ after)) :
    StoresKeepIntent host (reached host limit before) (reached host limit (before ++ after)) := by
  rw [reached_append]
  exact Runs.related (I := fun _ => True) (R := StoresKeepIntent host)
    (fun s => .of_eq rfl) (fun h h' => h.trans h') (fun _ _ _ _ => trivial)
    (fun _ _ _ hlinks => next_keeps_intent hlinks) trivial h.right

section Sample

/-- The key of the occurrence. -/
def intentLogical : String := "nightly:rev-1aaaaaaaaaaa:2026-01-01T00:01:00Z"

/-- `sha256` on the texts of the runs below. -/
def intentDigests : List (String × String) :=
  [(intentLogical,
      "039e2d7bc6cc0f400f24afe1694c5fd38d0754e4419bd7458d14d1c8f41e4f36"),
    ("day|def-1|||orders|||prod|corp||local",
      "be92140bbe54fc45b38beda344b36779ef4456f8735107e9055e4a1d7aa8e072"),
    ("night|def-1|||orders|||prod|corp||local",
      "39f4cb31668356200df79c2a5a95497824a4eece3d07d4fe5a473d4be2353af8")]

/-- A host that knows the digests of a table. -/
def withDigests (digests : List (String × String)) (durable : Durable.Host) : Durable.Host :=
  { durable with
    sha256 := fun text => ((digests.find? fun d => d.1 = text).map Prod.snd).getD text }

theorem withDigests_executionEnvelope (digests : List (String × String)) (durable : Durable.Host) :
    (withDigests digests durable).executionEnvelope = durable.executionEnvelope := rfl

def intentHost : ScheduleHost :=
  { sampleScheduleHost with durable := withDigests intentDigests Durable.sampleHost }

/-- A run that the gateway submits for an occurrence of the sample schedule. -/
def intendedSubmission (planFingerprint : String) : Durable.AcceptRequest :=
  { Durable.sampleAccept "work" "local" (some Durable.sampleEnvelope) with
    idempotencyKey := "schedule-039e2d7bc6cc0f400f24afe1694c5fd38d0754e4419bd7458d14d1c8f41e4f36"
    operation := "run.submit"
    planFingerprint := planFingerprint
    revisionId := some "def-1" }

/-- An occurrence that is claimed for one plan, and a run that is accepted for another. -/
def intendedRun (claimed accepted : String) : List Event :=
  [sampleCreated (sampleSpec .fireOnce .queue),
    ⟨sampleScheduleEnv 'b', .claimFiring Durable.sampleContext
      { sampleClaim 1 (some (sampleStamp 2)) with
        metadata := [("plan_fingerprint", .str claimed)] }⟩,
    ⟨sampleScheduleEnv 'c',
      .durable (.accept Durable.sampleContext (intendedSubmission accepted))⟩]

def intendedFiringId : String := (sampleScheduleEnv 'b').generatedId "fire-" 16 0

/-- The link of the occurrence to the run. -/
def intendedLink (planFingerprint : String) : Event :=
  ⟨sampleScheduleEnv 'd', .linkFiringSubmission Durable.sampleContext intendedFiringId
    ⟨"work", planFingerprint, none, none, false⟩⟩

/-- What a firing says about a field of its intent. -/
def recorded (name : String) (firing : FiringRecord) : Option String :=
  ((Json.obj firing.metadata).field? name).map (Json.dumps Json.escapeAscii)

theorem sameValue_dumps {v w : Json} (h : SameValue intentHost v w) :
    v.dumps Json.escapeAscii = w.dumps Json.escapeAscii := by
  induction h with
  | refl => rfl
  | tail _ hstep ih =>
      have hequal := of_decide_eq_true hstep
      exact ih.trans hequal

/-- The run before the link names the plan of the claim, and so does the link. -/
theorem intended_links : (intendedLink "night").LinksAsIntended intentHost
    (reached intentHost none (intendedRun "night" "night")) := by
  intro ctx firingId request hcall k firing definitionRevision hlinks field hfield v hv
  cases hcall
  have hfound := hlinks.found
  have hrecorded : ((findFiring (reached intentHost none (intendedRun "night" "night"))
      Durable.sampleContext intendedFiringId).map fun f =>
        (recorded "definition_revision_id" f.2, recorded "plan_fingerprint" f.2,
          recorded "admission" f.2)) = some (none, some "\"night\"", none) := by decide +kernel
  rw [hfound] at hrecorded
  obtain ⟨hrevision, hrest⟩ := Prod.mk.inj (Option.some.inj hrecorded)
  obtain ⟨hplan, hadmission⟩ := Prod.mk.inj hrest
  rcases List.mem_cons.mp hfield with rfl | hfield
  · have habsent := Option.map_eq_none_iff.mp hrevision
    rw [hv] at habsent
    cases habsent
  rcases List.mem_cons.mp hfield with rfl | hfield
  · rw [recorded, hv] at hplan
    refine Relation.ReflTransGen.single ?_
    exact decide_eq_true (Option.some.inj hplan)
  · obtain rfl := List.mem_singleton.mp hfield
    have habsent := Option.map_eq_none_iff.mp hadmission
    rw [hv] at habsent
    cases habsent

theorem intent_append_only_night :
    StoresKeepIntent intentHost
      (reached intentHost none (intendedRun "night" "night"))
      (reached intentHost none (intendedRun "night" "night" ++ [intendedLink "night"])) := by
  refine intent_append_only intentHost none _ _ ⟨?_, ?_, ?_, intended_links, trivial⟩
  all_goals
    intro ctx firingId request hcall
    cases hcall

/-- The run that is accepted keeps its envelope, as the host accepts it. -/
theorem intended_snapshot :
    ((reached intentHost none (intendedRun "night" "day")).durable.submissions.get?
      (key Durable.sampleContext "work")).map (fun row => row.inputSnapshot) =
        some (some Durable.sampleEnvelope) := by
  have hdurable : intentHost.durable = withDigests intentDigests Durable.sampleHost := rfl
  have hpreserved : Durable.redactOrPreserveExecutionEnvelope intentHost.durable
      (some Durable.sampleEnvelope) = some Durable.sampleEnvelope := by
    unfold Durable.redactOrPreserveExecutionEnvelope
    rw [Option.map_some, hdurable, withDigests_executionEnvelope, Durable.sampleHost,
      Durable.hostAccepting_accepts]
  have hrow : ((reached intentHost none (intendedRun "night" "day")).durable.submissions.get?
      (key Durable.sampleContext "work")).map (fun row => row.inputSnapshot) =
        some (Durable.redactOrPreserveExecutionEnvelope intentHost.durable
          (some Durable.sampleEnvelope)) := by
    with_unfolding_all rfl
  rw [hpreserved] at hrow
  exact hrow

/-- The stores before the link. -/
def intendedStores : Stores := reached intentHost none (intendedRun "night" "day")

/-- What the link checks of the firing and its schedule. -/
def readyToLink (f : Key × FiringRecord) : Bool :=
  let schedule := intendedStores.schedules.get? (key Durable.sampleContext f.2.scheduleId)
  decide (f.2.status = .accepted) && f.2.submissionId.isNone &&
    (linkLeaseError ((sampleScheduleEnv 'd').now [0]) f.2
      ⟨"work", "day", none, none, false⟩).isNone &&
    decide (recorded "plan_fingerprint" f.2 = some "\"night\"") && schedule.isSome &&
    decide (expectedDefinitionRevision f.2 schedule = some "def-1") &&
    decide ((firingKey f.2.scheduleId f.2.revisionId f.2.nominalFireTime).toOption =
      some intentLogical)

/-- A firing is linked to a run of another plan, and says so instead of what it said. -/
theorem link_changes_intent :
    ¬ StoresKeepIntent intentHost
      (reached intentHost none (intendedRun "night" "day"))
      (reached intentHost none (intendedRun "night" "day" ++ [intendedLink "day"])) := by
  intro hkeeps
  rw [reached_append_singleton] at hkeeps
  have hintended : (intendedLink "day").LinksAsIntended intentHost intendedStores :=
    next_keeps_intent_iff.mp hkeeps
  have hready : (findFiring intendedStores Durable.sampleContext intendedFiringId).any
      readyToLink = true := by decide +kernel
  have hsubmitted : (intendedStores.durable.submissions.get?
      (key Durable.sampleContext "work")).map (fun row =>
        (row.revisionId, row.operation, row.planFingerprint, decide (row.idempotencyKey =
          scheduleIdempotencyKey intentHost intentLogical))) =
      some (some "def-1", "run.submit", "day", true) := by decide +kernel
  obtain ⟨⟨k, firing⟩, hfound, hchecks⟩ := (Option.any_eq_true _ _).mp hready
  simp only [readyToLink, Bool.and_eq_true, decide_eq_true_eq, Option.isNone_iff_eq_none]
    at hchecks
  obtain ⟨⟨⟨⟨⟨⟨haccepted, hunlinked⟩, hleased⟩, hplan⟩, hscheduled⟩, hexpected⟩, hlogical⟩ :=
    hchecks
  obtain ⟨schedule, hschedule⟩ := Option.isSome_iff_exists.mp hscheduled
  obtain ⟨row, hrow, hsnapshot⟩ := Option.map_eq_some_iff.mp intended_snapshot
  have hrow' : intendedStores.durable.submissions.get? (key Durable.sampleContext "work") =
    some row := hrow
  rw [hrow'] at hsubmitted
  simp only [Option.map_some, Option.some.injEq, Prod.mk.injEq, decide_eq_true_eq] at hsubmitted
  obtain ⟨hrowRevision, hoperation, hplanFingerprint, hidempotency⟩ := hsubmitted
  have hrevision : linkedRevision intentHost firing
      (intendedStores.schedules.get? (key Durable.sampleContext firing.scheduleId)) row "day" =
        .ok "def-1" := by
    cases hkey : firingKey firing.scheduleId firing.revisionId firing.nominalFireTime with
    | error error =>
        rw [hkey] at hlogical
        cases hlogical
    | ok logical =>
        rw [hkey] at hlogical
        obtain rfl := Option.some.inj hlogical
        rw [hschedule] at hexpected ⊢
        exact linkedRevision_of_accepted hexpected hkey hrowRevision hoperation hplanFingerprint
          hidempotency hsnapshot Durable.sampleEnvelope_nonEmpty
  obtain ⟨v, hv, hdumps⟩ := Option.map_eq_some_iff.mp hplan
  have hlinks : Links intentHost (sampleScheduleEnv 'd') Durable.sampleContext intendedFiringId
      ⟨"work", "day", none, none, false⟩ intendedStores k firing "def-1" :=
    ⟨hfound, haccepted, hleased, hunlinked, ⟨row, hrow', hrevision⟩, by decide⟩
  have hsame : SameValue intentHost v (.str "day") :=
    hintended Durable.sampleContext intendedFiringId _ rfl k firing "def-1" hlinks
      ("plan_fingerprint", .str "day") (by simp [linkFields]) v hv
  have hequal := sameValue_dumps hsame
  rw [hdumps] at hequal
  exact absurd hequal (by decide)

end Sample

end Etlantic.ControlPlane.Schedule
