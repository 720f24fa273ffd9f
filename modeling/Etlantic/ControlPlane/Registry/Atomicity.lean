import Etlantic.ControlPlane.Registry.History

/-!
# Calls that raise

A call that raises leaves the registry as it was, with two exceptions.  A first revision
creates its logical identity before its timestamp is placed, so the identity stays when the
timestamp is refused.  And a promotion that generates the id of its source has overwritten
the source when it finds that out.
-/

namespace Etlantic.ControlPlane.Registry

open Durable (Key Env)

/-- A call that raises leaves the registry as it was. -/
def Atomic (host : RegistryHost) (s : MemoryRevisionRegistry) (e : Event) : Prop :=
  ∀ error, (e.exec host s).result = .error error → (e.exec host s).state = s

/-- The timestamp of a new revision, after the head of its logical identity. -/
def stampFor (host : RegistryHost) (env : Env) (ctx : ControlPlaneContext)
    (s : MemoryRevisionRegistry) (logicalId : String) (createdAt : Option String) :
    Except PyError String :=
  match currentRevision host s ctx.scopeKey logicalId with
  | .error error => .error error
  | .ok current =>
      timestampAfterCurrent host (env.now []) (current.bind RegistryRevision.createdAt) createdAt

/-- A `put_revision` passes its checks and finds no logical identity. -/
structure CreatesIdentity (host : RegistryHost) (ctx : ControlPlaneContext)
    (s : MemoryRevisionRegistry) (revision : RegistryRevision) (inactive : Option PyError) :
    Prop where
  own : foreign ctx revision = false
  active : inactive = none
  fresh : s.revisions.contains ⟨ctx.scopeKey, revision.revisionId⟩ = false
  fingerprint : revision.contentFingerprint = contentFingerprint host revision.content
  absent : s.logical.get? ⟨ctx.scopeKey, revision.logicalId⟩ = none

/-- A `promote` finds its source, and a timestamp for the new revision. -/
structure Promotes (host : RegistryHost) (env : Env) (ctx : ControlPlaneContext)
    (s : MemoryRevisionRegistry) (request : PromoteRequest) (inactive : Option PyError) :
    Prop where
  active : inactive = none
  source : ∃ source, s.revisions.get? ⟨ctx.scopeKey, request.fromRevisionId⟩ = some source ∧
    source.logicalId = request.logicalId
  stamped : ∃ text, stampFor host env ctx s request.logicalId
    (some (utcnowIso host (env.now []))) = .ok text

/-- A first revision has a timestamp that can be placed, and a promotion generates an id that
is not that of its source. -/
def Harmless (host : RegistryHost) (s : MemoryRevisionRegistry) (e : Event) : Prop :=
  match e.call with
  | .putRevision revision =>
      CreatesIdentity host e.ctx s revision e.inactive →
        ∃ text, stampFor host e.env e.ctx s revision.logicalId revision.createdAt = .ok text
  | .putRevisionIfCurrent revision expected =>
      (∃ head, currentRevision host s e.ctx.scopeKey revision.logicalId = .ok (some head) ∧
        head.contentFingerprint = expected) →
      CreatesIdentity host e.ctx s revision e.inactive →
        ∃ text, stampFor host e.env e.ctx s revision.logicalId revision.createdAt = .ok text
  | .promote request =>
      Promotes host e.env e.ctx s request e.inactive →
        newRevisionId e.env ≠ request.fromRevisionId
  | _ => True

section Revisions

variable {host : RegistryHost} {env : Env} {ctx : ControlPlaneContext}
  {s : MemoryRevisionRegistry} {revision : RegistryRevision} {inactive : Option PyError}
  {error : PyError}

/-- The last part of `put_revision` writes nothing or raises nothing. -/
theorem appendRevision_cases : (∃ error, stampFor host env ctx s revision.logicalId
      revision.createdAt = .error error ∧
        appendRevision host env ctx s revision = raise s error) ∨
    (∃ text, stampFor host env ctx s revision.logicalId revision.createdAt = .ok text) ∧
      (appendRevision host env ctx s revision).result = .ok () := by
  unfold appendRevision stampFor
  cases currentRevision host s ctx.scopeKey revision.logicalId with
  | error error => exact .inl ⟨error, rfl, rfl⟩
  | ok current =>
      dsimp only
      cases timestampAfterCurrent host (env.now []) (current.bind RegistryRevision.createdAt)
          revision.createdAt with
      | error error => exact .inl ⟨error, rfl, rfl⟩
      | ok text => exact .inr ⟨⟨text, rfl⟩, rfl⟩

/-- Either `put_revision` creates an identity, or it leaves the registry whenever it raises. -/
theorem putRevision_cases :
    (CreatesIdentity host ctx s revision inactive ∧
      putRevision host env ctx s revision inactive = appendRevision host env ctx { s with
        logical := s.logical.set ⟨ctx.scopeKey, revision.logicalId⟩
          (implicitLogical host env revision) } revision) ∨
    ¬CreatesIdentity host ctx s revision inactive ∧
      ∀ error, (putRevision host env ctx s revision inactive).result = .error error →
        (putRevision host env ctx s revision inactive).state = s := by
  unfold putRevision
  by_cases hforeign : foreign ctx revision = true
  · rw [if_pos hforeign]
    refine .inr ⟨fun h => ?_, fun _ _ => rfl⟩
    rw [h.own] at hforeign
    cases hforeign
  rw [if_neg hforeign]
  cases hactive : inactive with
  | some error => exact .inr ⟨fun h => (by cases h.active), fun _ _ => rfl⟩
  | none =>
      dsimp only
      by_cases hfresh : s.revisions.contains ⟨ctx.scopeKey, revision.revisionId⟩ = true
      · rw [if_pos hfresh]
        refine .inr ⟨fun h => ?_, fun _ _ => rfl⟩
        rw [h.fresh] at hfresh
        cases hfresh
      rw [if_neg hfresh]
      by_cases hfingerprint : revision.contentFingerprint ≠ contentFingerprint host revision.content
      · rw [if_pos hfingerprint]
        exact .inr ⟨fun h => hfingerprint h.fingerprint, fun _ _ => rfl⟩
      rw [if_neg hfingerprint]
      cases hlogical : s.logical.get? ⟨ctx.scopeKey, revision.logicalId⟩ with
      | none =>
          exact .inl ⟨⟨by simpa using hforeign, rfl, by simpa using hfresh,
            not_not.mp hfingerprint, hlogical⟩, rfl⟩
      | some logical =>
          refine .inr ⟨fun h => ?_, ?_⟩
          · rw [h.absent] at hlogical
            cases hlogical
          · dsimp only
            split
            · exact fun _ _ => rfl
            · intro error herror
              rcases @appendRevision_cases host env ctx s revision with ⟨_, -, hraise⟩ | ⟨-, hok⟩
              · rw [hraise]
                rfl
              · rw [hok] at herror
                cases herror

theorem set_logical_ne {k : Key} {identity : LogicalIdentity} (h : s.logical.get? k = none) :
    { s with logical := s.logical.set k identity } ≠ s := by
  intro heq
  have hget : (s.logical.set k identity).get? k = s.logical.get? k :=
    congrArg (fun t : MemoryRevisionRegistry => t.logical.get? k) heq
  rw [Dict.get?_set_self, h] at hget
  cases hget

theorem putRevision_atomic_iff :
    (∀ error, (putRevision host env ctx s revision inactive).result = .error error →
      (putRevision host env ctx s revision inactive).state = s) ↔
    (CreatesIdentity host ctx s revision inactive →
      ∃ text, stampFor host env ctx s revision.logicalId revision.createdAt = .ok text) := by
  rcases @putRevision_cases host env ctx s revision inactive with
    ⟨hcreates, hput⟩ | ⟨hnot, hkept⟩
  · rw [hput]
    -- The new identity plays no part in the timestamp.
    have hstamp : ∀ logical, stampFor host env ctx { s with logical := logical }
        revision.logicalId revision.createdAt =
          stampFor host env ctx s revision.logicalId revision.createdAt := fun _ => rfl
    rcases @appendRevision_cases host env ctx { s with
      logical := s.logical.set ⟨ctx.scopeKey, revision.logicalId⟩
        (implicitLogical host env revision) } revision with
      ⟨error, herror, hraise⟩ | ⟨⟨text, htext⟩, hok⟩
    · rw [hstamp] at herror
      constructor
      · intro hatomic
        rw [hraise] at hatomic
        exact absurd (hatomic error rfl) (set_logical_ne hcreates.absent)
      · intro hplaced
        obtain ⟨text, htext⟩ := hplaced hcreates
        rw [htext] at herror
        cases herror
    · rw [hstamp] at htext
      refine ⟨fun _ _ => ⟨text, htext⟩, fun _ error herror => ?_⟩
      rw [hok] at herror
      cases herror
  · exact ⟨fun _ hcreates => absurd hcreates hnot, fun _ => hkept⟩

theorem putRevisionIfCurrent_atomic_iff {expected : String} :
    (∀ error, (putRevisionIfCurrent host env ctx s revision expected inactive).result =
        .error error →
      (putRevisionIfCurrent host env ctx s revision expected inactive).state = s) ↔
    ((∃ head, currentRevision host s ctx.scopeKey revision.logicalId = .ok (some head) ∧
        head.contentFingerprint = expected) →
      CreatesIdentity host ctx s revision inactive →
        ∃ text, stampFor host env ctx s revision.logicalId revision.createdAt = .ok text) := by
  unfold putRevisionIfCurrent
  by_cases hforeign : foreign ctx revision = true
  · rw [if_pos hforeign]
    refine ⟨fun _ _ hcreates => ?_, fun _ _ _ => rfl⟩
    rw [hcreates.own] at hforeign
    cases hforeign
  rw [if_neg hforeign]
  cases inactive with
  | some error => exact ⟨fun _ _ hcreates => (by cases hcreates.active), fun _ _ _ => rfl⟩
  | none =>
      dsimp only
      cases hcurrent : currentRevision host s ctx.scopeKey revision.logicalId with
      | error error =>
          refine ⟨?_, fun _ _ _ => rfl⟩
          rintro - ⟨head, hhead, -⟩
          cases hhead
      | ok current =>
          dsimp only
          by_cases hstale : (current.all fun head => head.contentFingerprint ≠ expected) = true
          · rw [if_pos hstale]
            refine ⟨?_, fun _ _ _ => rfl⟩
            rintro - ⟨head, hhead, hsame⟩
            obtain rfl := Except.ok.inj hhead
            simp [hsame] at hstale
          · rw [if_neg hstale, putRevision_atomic_iff]
            have hhead : ∃ head, (Except.ok current : Except PyError _) = .ok (some head) ∧
                head.contentFingerprint = expected := by
              cases current with
              | none => simp at hstale
              | some head => exact ⟨head, rfl, by simpa using hstale⟩
            exact ⟨fun h _ => h, fun h => h hhead⟩

theorem putAlias_atomic (record : AliasRecord)
    (herror : (putAlias host env ctx s record inactive).result = .error error) :
    (putAlias host env ctx s record inactive).state = s := by
  unfold putAlias at herror ⊢
  split
  · rfl
  · rename_i hown
    rw [if_neg hown] at herror
    split
    · rfl
    · rename_i hactive
      dsimp only at herror
      split
      · rfl
      · rename_i target htarget
        rw [htarget] at herror
        dsimp only at herror
        split
        · rfl
        · rename_i hlogical
          rw [if_neg hlogical] at herror
          cases herror

theorem putLogical_atomic (identity : LogicalIdentity)
    (herror : (putLogical host env ctx s identity inactive).result = .error error) :
    (putLogical host env ctx s identity inactive).state = s := by
  unfold putLogical at herror ⊢
  split
  · rfl
  · rename_i hown
    rw [if_neg hown] at herror
    split
    · rfl
    · dsimp only at herror ⊢
      split
      · rfl
      · rename_i hfresh
        rw [if_neg hfresh] at herror
        cases herror

end Revisions

/-! ## Promotions -/

section Promotions

variable {host : RegistryHost} {env : Env} {ctx : ControlPlaneContext}
  {s : MemoryRevisionRegistry} {inactive : Option PyError}

/-- The head is at least as late as the revision held so far and all that follow. -/
theorem laterRevision_latest : ∀ {rs : List RegistryRevision} {held : RegistryRevision}
    {heldKey : Instant × String} {result : Option RegistryRevision},
    laterRevision host (some (held, heldKey)) rs = .ok result →
    revisionOrderKey host held.createdAt held.revisionId = .ok heldKey →
      ∃ head headKey, result = some head ∧
        revisionOrderKey host head.createdAt head.revisionId = .ok headKey ∧
        heldKey.1 ≤ headKey.1 ∧ ∀ r ∈ rs, ∃ key,
          revisionOrderKey host r.createdAt r.revisionId = .ok key ∧ key.1 ≤ headKey.1
  | [], held, heldKey, result, h, hheld =>
      ⟨held, heldKey, (Except.ok.inj h).symm, hheld, le_refl _, fun r hr => by cases hr⟩
  | item :: rest, held, heldKey, result, h, hheld => by
      unfold laterRevision at h
      cases hkey : revisionOrderKey host item.createdAt item.revisionId with
      | error error =>
          rw [hkey] at h
          cases h
      | ok key =>
          rw [hkey] at h
          dsimp only at h
          by_cases hbefore : keyBefore heldKey key = true
          · rw [if_pos hbefore] at h
            have hle : heldKey.1 ≤ key.1 := by
              simp only [keyBefore, Bool.or_eq_true, Bool.and_eq_true, decide_eq_true_eq] at hbefore
              rcases hbefore with hlt | ⟨heq, -⟩
              · exact le_of_lt hlt
              · exact le_of_eq heq
            obtain ⟨head, headKey, hresult, hhead, hitem, hrest⟩ := laterRevision_latest h hkey
            refine ⟨head, headKey, hresult, hhead, hle.trans hitem, fun r hr => ?_⟩
            rcases List.mem_cons.mp hr with rfl | hr
            · exact ⟨key, hkey, hitem⟩
            · exact hrest r hr
          · rw [if_neg hbefore] at h
            have hle : key.1 ≤ heldKey.1 := by
              simp only [keyBefore, Bool.or_eq_true, decide_eq_true_eq, not_or] at hbefore
              exact le_of_not_gt hbefore.1
            obtain ⟨head, headKey, hresult, hhead, hheldLe, hrest⟩ := laterRevision_latest h hheld
            refine ⟨head, headKey, hresult, hhead, hheldLe, fun r hr => ?_⟩
            rcases List.mem_cons.mp hr with rfl | hr
            · exact ⟨key, hkey, hle.trans hheldLe⟩
            · exact hrest r hr

/-- No revision of a logical identity is later than its head. -/
theorem currentRevision_latest {scope : Scope} {logicalId : String}
    {current : Option RegistryRevision}
    (h : currentRevision host s scope logicalId = .ok current) {r : RegistryRevision}
    (hr : r ∈ revisionsOf s scope logicalId) :
    ∃ head headKey key, current = some head ∧
      revisionOrderKey host head.createdAt head.revisionId = .ok headKey ∧
      revisionOrderKey host r.createdAt r.revisionId = .ok key ∧ key.1 ≤ headKey.1 := by
  unfold currentRevision at h
  cases hlist : revisionsOf s scope logicalId with
  | nil =>
      rw [hlist] at hr
      cases hr
  | cons first rest =>
      rw [hlist] at h hr
      unfold laterRevision at h
      cases hkey : revisionOrderKey host first.createdAt first.revisionId with
      | error error =>
          rw [hkey] at h
          cases h
      | ok key =>
          rw [hkey] at h
          obtain ⟨head, headKey, hresult, hhead, hfirst, hrest⟩ := laterRevision_latest h hkey
          rcases List.mem_cons.mp hr with rfl | hr
          · exact ⟨head, headKey, key, hresult, hhead, hkey, hfirst⟩
          · obtain ⟨key', hkey', hle⟩ := hrest r hr
            exact ⟨head, headKey, key', hresult, hhead, hkey', hle⟩

/-- The clock shows a time after the year 1 begins, and one that `isoformat` writes. -/
structure ClockReads (host : RegistryHost) (env : Env) : Prop where
  after : datetimeMin < env.now []
  written : ∃ text, host.isoformat (env.now []) = some text

theorem orNow_utcnowIso {now : Instant} :
    orNow host now (some (utcnowIso host now)) = utcnowIso host now := by
  unfold orNow
  dsimp only
  split
  · rfl
  · rfl

/-- A promoted revision is later than every revision of its logical identity, its source
included. -/
theorem promotedRevision_ne (hclock : ClockReads host env) {request : PromoteRequest}
    {source : RegistryRevision} {current : Option RegistryRevision} {createdAt : String}
    (hsource : s.revisions.get? ⟨ctx.scopeKey, request.fromRevisionId⟩ = some source)
    (hcurrent : currentRevision host s ctx.scopeKey request.logicalId = .ok current)
    (hcreated : timestampAfterCurrent host (env.now [])
      (current.bind RegistryRevision.createdAt) (some (utcnowIso host (env.now []))) =
        .ok createdAt) :
    promotedRevision host env ctx source request createdAt ≠ source := by
  intro hsame
  have hmem : source ∈ revisionsOf s ctx.scopeKey request.logicalId := by
    refine List.mem_filter.mpr ⟨?_, ?_⟩
    · exact List.mem_map.mpr ⟨(_, source), Dict.mem_entries_iff.mpr hsource, rfl⟩
    · rw [← hsame]
      simp [ofLogical, promotedRevision, ControlPlaneContext.scopeKey]
  obtain ⟨head, headKey, key, rfl, hhead, hkey, hle⟩ := currentRevision_latest hcurrent hmem
  obtain ⟨at_, hat, hlater⟩ := timestampAfterCurrent_eq hcreated
  have hstamp : source.createdAt = some createdAt := by
    rw [← hsame]
    rfl
  have hkeyAt : key.1 = at_ := by
    rw [hstamp] at hkey
    unfold revisionOrderKey at hkey
    dsimp only at hkey
    rw [hat] at hkey
    rw [← Except.ok.inj hkey]
  cases hheadStamp : head.createdAt with
  | some text =>
      rw [hheadStamp] at hhead
      unfold revisionOrderKey at hhead
      dsimp only at hhead
      cases hparse : host.fromisoformat text with
      | none =>
          rw [hparse] at hhead
          cases hhead
      | some before =>
          rw [hparse] at hhead
          have hheadAt : headKey.1 = before := by rw [← Except.ok.inj hhead]
          have hlt : before < at_ := by
            refine hlater before ?_
            simp [hheadStamp, hparse]
          rw [hkeyAt, hheadAt] at hle
          exact absurd hlt (not_lt_of_ge hle)
  | none =>
      -- The head has no timestamp: the new one is the time of the clock.
      rw [hheadStamp] at hhead
      have hheadAt : headKey.1 = datetimeMin := by
        unfold revisionOrderKey at hhead
        rw [← Except.ok.inj hhead]
      obtain ⟨text, htext⟩ := hclock.written
      have hnow : host.fromisoformat (utcnowIso host (env.now [])) = some (env.now []) := by
        unfold utcnowIso
        rw [htext]
        exact host.roundTrip _ _ htext
      unfold timestampAfterCurrent at hcreated
      rw [orNow_utcnowIso, hnow] at hcreated
      simp only [Option.bind_some, hheadStamp, htext, Option.elim_some] at hcreated
      obtain rfl := Except.ok.inj hcreated
      have hatNow : at_ = env.now [] := by
        have hround := host.roundTrip _ _ htext
        rw [hat] at hround
        exact Option.some.inj hround
      rw [hkeyAt, hheadAt, hatNow] at hle
      exact absurd hclock.after (not_lt_of_ge hle)

theorem promote_atomic_iff (hclock : ClockReads host env) {request : PromoteRequest} :
    (∀ error, (promote host env ctx s request inactive).result = .error error →
      (promote host env ctx s request inactive).state = s) ↔
    (Promotes host env ctx s request inactive → newRevisionId env ≠ request.fromRevisionId) := by
  unfold promote
  cases inactive with
  | some error => exact ⟨fun _ hpromotes => (by cases hpromotes.active), fun _ _ _ => rfl⟩
  | none =>
      dsimp only
      cases hsource : s.revisions.get? ⟨ctx.scopeKey, request.fromRevisionId⟩ with
      | none =>
          refine ⟨fun _ hpromotes => ?_, fun _ _ _ => rfl⟩
          obtain ⟨source, hget, -⟩ := hpromotes.source
          rw [hsource] at hget
          cases hget
      | some source =>
          dsimp only
          by_cases hlogical : source.logicalId ≠ request.logicalId
          · rw [if_pos hlogical]
            refine ⟨fun _ hpromotes => ?_, fun _ _ _ => rfl⟩
            obtain ⟨source', hget, hsame⟩ := hpromotes.source
            rw [hsource] at hget
            obtain rfl := Option.some.inj hget
            exact absurd hsame hlogical
          rw [if_neg hlogical]
          cases hcurrent : currentRevision host s ctx.scopeKey request.logicalId with
          | error error =>
              refine ⟨fun _ hpromotes => ?_, fun _ _ _ => rfl⟩
              obtain ⟨text, htext⟩ := hpromotes.stamped
              unfold stampFor at htext
              rw [hcurrent] at htext
              cases htext
          | ok current =>
              dsimp only
              cases hcreated : timestampAfterCurrent host (env.now [])
                  (current.bind RegistryRevision.createdAt)
                  (some (utcnowIso host (env.now []))) with
              | error error =>
                  refine ⟨fun _ hpromotes => ?_, fun _ _ _ => rfl⟩
                  obtain ⟨text, htext⟩ := hpromotes.stamped
                  unfold stampFor at htext
                  rw [hcurrent] at htext
                  dsimp only at htext
                  rw [hcreated] at htext
                  cases htext
              | ok createdAt =>
                  dsimp only
                  by_cases hsame : newRevisionId env = request.fromRevisionId
                  · rw [if_pos hsame]
                    constructor
                    · intro hatomic
                      have hstate := hatomic _ rfl
                      have hget := congrArg (fun t : MemoryRevisionRegistry =>
                        t.revisions.get? ⟨ctx.scopeKey, request.fromRevisionId⟩) hstate
                      simp only [raise, hsame, Dict.get?_set_self, hsource] at hget
                      exact absurd (Option.some.inj hget)
                        (promotedRevision_ne hclock hsource hcurrent hcreated)
                    · intro hfresh
                      refine absurd hsame (hfresh ⟨rfl, ⟨source, hsource, not_not.mp hlogical⟩,
                        createdAt, ?_⟩)
                      unfold stampFor
                      rw [hcurrent]
                      exact hcreated
                  · rw [if_neg hsame]
                    refine ⟨fun _ _ => hsame, fun _ error herror => ?_⟩
                    cases herror

end Promotions

/-- A call leaves the registry as it was whenever it raises, exactly when it is no first
revision with a timestamp that is refused and no promotion onto the id of its source. -/
theorem atomic_iff (host : RegistryHost) (s : MemoryRevisionRegistry) (e : Event)
    (hclock : ClockReads host e.env) : Atomic host s e ↔ Harmless host s e := by
  obtain ⟨env, ctx, inactive, call⟩ := e
  have hmap : ∀ {α : Type} {x : Except PyError α} {error : PyError},
      (x.map fun _ => ()) = .error error ↔ x = .error error := by
    intro α x error
    cases x <;> simp [Except.map]
  cases call with
  | putLogical identity =>
      exact ⟨fun _ => trivial, fun _ error herror => putLogical_atomic identity herror⟩
  | putRevision revision => exact putRevision_atomic_iff
  | putRevisionIfCurrent revision expected => exact putRevisionIfCurrent_atomic_iff
  | putAlias record =>
      exact ⟨fun _ => trivial, fun _ error herror => putAlias_atomic record (hmap.mp herror)⟩
  | promote request =>
      refine Iff.trans ?_ (promote_atomic_iff hclock)
      exact forall_congr' fun error => imp_congr hmap Iff.rfl

/-! ## A first revision with a timestamp that is none -/

/-- A first revision that claims to be of `yesterday`. -/
def undated : Event where
  env := Durable.sampleEnv 'a' 0
  ctx := Durable.sampleContext
  inactive := none
  call := .putRevision { sampleRevision "r1" with createdAt := some "yesterday" }

/-- The call raises, and the identity stays. -/
theorem undated_leaves_identity : ¬Atomic sampleRegistryHost .init undated := by
  intro h
  have hstate := h invalidTimestamp rfl
  have hlogical := congrArg (fun s : MemoryRevisionRegistry => s.logical.entries.length) hstate
  revert hlogical
  decide

/-- The same revision without a date of its own. -/
def dated : Event := { undated with call := .putRevision (sampleRevision "r1") }

theorem dated_atomic : Atomic sampleRegistryHost .init dated := by
  have hclock : ClockReads sampleRegistryHost dated.env :=
    ⟨by decide, ⟨"1970-01-01T00:00:00Z", by decide⟩⟩
  refine (atomic_iff sampleRegistryHost .init dated hclock).mpr ?_
  intro _
  exact ⟨"1970-01-01T00:00:00Z", by rfl⟩

end Etlantic.ControlPlane.Registry
