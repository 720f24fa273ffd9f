import Etlantic.ControlPlane.Registry.Revisions
import Etlantic.ControlPlane.Durable.Calls

/-!
# Histories of the registry

A call writes at most one revision, and that one comes after the head of its logical
identity; nothing else touches the revisions.  So the revisions of a logical identity are
stored in the order of their timestamps, the recomputed head is the last of them, and an
edit prepared against a head wins at most once for each time that head is stored.
-/

namespace Etlantic.ControlPlane.Registry

open Durable (Key Env)

variable {host : RegistryHost} {env : Env} {ctx : ControlPlaneContext}
  {s t : MemoryRevisionRegistry} {scope : Scope} {logicalId : String} {e : Event}
  {r revision : RegistryRevision} {inactive : Option PyError}

/-! ## Timestamps in storage order -/

def instantOf (host : RegistryHost) (r : RegistryRevision) : Option Instant :=
  r.createdAt.bind host.fromisoformat

/-- Every revision has an instant, and the instants strictly increase. -/
def Ordered (host : RegistryHost) (rs : List RegistryRevision) : Prop :=
  ∃ instants : List Instant,
    rs.map (instantOf host) = instants.map some ∧ instants.Pairwise (· < ·)

theorem ordered_nil (host : RegistryHost) : Ordered host [] := ⟨[], rfl, List.Pairwise.nil⟩

theorem revisionOrderKey_eq {at_ : Instant} (h : instantOf host r = some at_) :
    revisionOrderKey host r.createdAt r.revisionId = .ok (at_, r.revisionId) := by
  unfold instantOf at h
  obtain ⟨text, htext, hparse⟩ := Option.bind_eq_some_iff.mp h
  unfold revisionOrderKey
  rw [htext]
  dsimp only
  rw [hparse]

theorem laterRevision_last : ∀ {rs : List RegistryRevision} {instants : List Instant}
    {held : RegistryRevision} {heldKey : Instant × String},
    rs.map (instantOf host) = instants.map some → (heldKey.1 :: instants).Pairwise (· < ·) →
      laterRevision host (some (held, heldKey)) rs = .ok (some (rs.getLast?.getD held))
  | [], _, _, _, _, _ => rfl
  | r :: rs, [], _, _, hmap, _ => by simp at hmap
  | r :: rs, at_ :: instants, held, heldKey, hmap, hsorted => by
      simp only [List.map_cons, List.cons.injEq] at hmap
      obtain ⟨hlater, htail⟩ := List.pairwise_cons.mp hsorted
      have hbefore : keyBefore heldKey (at_, r.revisionId) = true := by
        have hlt : heldKey.1 < at_ := hlater at_ List.mem_cons_self
        simp [keyBefore, hlt]
      have ih : laterRevision host (some (r, (at_, r.revisionId))) rs =
          .ok (some (rs.getLast?.getD r)) := laterRevision_last hmap.2 htail
      unfold laterRevision
      rw [revisionOrderKey_eq hmap.1]
      dsimp only
      rw [if_pos hbefore, ih]
      cases rs with
      | nil => rfl
      | cons next rest => simp [List.getLast?_cons]

/-- The head of revisions in order is the last one. -/
theorem laterRevision_of_ordered {rs : List RegistryRevision} (h : Ordered host rs) :
    laterRevision host none rs = .ok rs.getLast? := by
  obtain ⟨instants, hmap, hsorted⟩ := h
  cases rs with
  | nil => rfl
  | cons r rest =>
      cases instants with
      | nil => simp at hmap
      | cons at_ instants =>
          simp only [List.map_cons, List.cons.injEq] at hmap
          have hlast : laterRevision host (some (r, (at_, r.revisionId))) rest =
              .ok (some (rest.getLast?.getD r)) := laterRevision_last hmap.2 hsorted
          unfold laterRevision
          rw [revisionOrderKey_eq hmap.1]
          dsimp only
          rw [hlast]
          cases rest with
          | nil => rfl
          | cons next rest => simp [List.getLast?_cons]

theorem Ordered.append {rs : List RegistryRevision} (h : Ordered host rs) {at_ : Instant}
    (hinstant : instantOf host r = some at_)
    (hlater : ∀ head, rs.getLast? = some head → ∀ before, instantOf host head = some before →
      before < at_) : Ordered host (rs ++ [r]) := by
  obtain ⟨instants, hmap, hsorted⟩ := h
  refine ⟨instants ++ [at_], by simp [hmap, hinstant], ?_⟩
  rw [List.pairwise_append]
  refine ⟨hsorted, List.pairwise_singleton _ _, ?_⟩
  intro earlier hearlier new hnew
  obtain rfl := List.mem_singleton.mp hnew
  -- Everything stored is at most the last instant, which the new one is after.
  rcases List.eq_nil_or_concat' instants with rfl | ⟨init, last, rfl⟩
  · cases hearlier
  have hlast : last < new := by
    have hends : (rs.map (instantOf host)).getLast? = some (some last) := by
      rw [hmap]
      simp
    rw [List.getLast?_map] at hends
    obtain ⟨head, hhead, hinstant⟩ := Option.map_eq_some_iff.mp hends
    exact hlater head hhead last hinstant
  rcases List.mem_append.mp hearlier with hin | hin
  · have hle := (List.pairwise_append.mp hsorted).2.2 earlier hin last (by simp)
    exact hle.trans hlast
  · rw [List.mem_singleton.mp hin]
    exact hlast

theorem timestampAfterCurrent_eq {now : Instant} {current candidate : Option String}
    {text : String} (h : timestampAfterCurrent host now current candidate = .ok text) :
    ∃ at_, host.fromisoformat text = some at_ ∧
      ∀ before, current.bind host.fromisoformat = some before → before < at_ := by
  have hstamp : ∀ {at_ : Instant}, (host.isoformat at_).elim (.error outOfRange) .ok =
      (.ok text : Except PyError String) → host.fromisoformat text = some at_ := by
    intro at_ hstamp
    cases hiso : host.isoformat at_ with
    | none =>
        rw [hiso] at hstamp
        cases hstamp
    | some written =>
        rw [hiso] at hstamp
        obtain rfl := Except.ok.inj hstamp
        exact host.roundTrip _ _ hiso
  unfold timestampAfterCurrent at h
  split at h
  · cases h
  · rename_i timestamp hcandidate
    split at h
    · exact ⟨timestamp, hstamp h, fun before hbefore => by cases hbefore⟩
    · rename_i held
      split at h
      · cases h
      · rename_i currentTimestamp hcurrent
        refine ⟨if timestamp ≤ currentTimestamp then currentTimestamp + 1 else timestamp,
          hstamp h, fun before hbefore => ?_⟩
        obtain rfl : currentTimestamp = before :=
          Option.some.inj (hcurrent.symm.trans hbefore)
        by_cases hle : timestamp ≤ currentTimestamp
        · rw [if_pos hle]
          exact Int.lt_succ currentTimestamp
        · rw [if_neg hle]
          exact lt_of_not_ge hle

/-! ## What a call does -/

/-- A revision as it is appended in a scope. -/
structure Appends (host : RegistryHost) (s : MemoryRevisionRegistry) (scope : Scope)
    (r : RegistryRevision) : Prop where
  fresh : s.revisions.get? ⟨scope, r.revisionId⟩ = none
  tenant : r.tenantId = scope.tenantId
  workspace : r.workspaceId = scope.workspaceId
  fingerprint : r.contentFingerprint = contentFingerprint host r.content
  later : ∃ current at_, currentRevision host s scope r.logicalId = .ok current ∧
    instantOf host r = some at_ ∧
    ∀ head, current = some head → ∀ before, instantOf host head = some before → before < at_

/-- The alias points to a stored revision of its logical id. -/
def AliasBacked (revisions : Dict Key RegistryRevision) (k : Key) (record : AliasRecord) : Prop :=
  ∃ r, revisions.get? ⟨k.scope, record.revisionId⟩ = some r ∧ r.logicalId = record.logicalId

/-- The promotion leads from a stored revision to another of its logical id. -/
def PromotionBacked (revisions : Dict Key RegistryRevision) (k : Key)
    (record : PromotionRecord) : Prop :=
  ∃ source target, revisions.get? ⟨k.scope, record.fromRevisionId⟩ = some source ∧
    revisions.get? ⟨k.scope, record.toRevisionId⟩ = some target ∧
    source.logicalId = record.logicalId ∧ target.logicalId = record.logicalId

/-- What a call does to the revisions, aliases and promotions. -/
inductive Effect (host : RegistryHost) (s t : MemoryRevisionRegistry) : Prop where
  | kept (hrevisions : t.revisions = s.revisions) (haliases : t.aliases = s.aliases)
      (hpromotions : t.promotions = s.promotions)
  | appended (scope : Scope) (r : RegistryRevision) (h : Appends host s scope r)
      (hrevisions : t.revisions = s.revisions.set ⟨scope, r.revisionId⟩ r)
      (haliases : t.aliases = s.aliases)
      (hpromotions : t.promotions = s.promotions ∨ ∃ k record,
        PromotionBacked t.revisions k record ∧ t.promotions = s.promotions.set k record)
  | aliased (k : Key) (record : AliasRecord) (h : AliasBacked s.revisions k record)
      (hrevisions : t.revisions = s.revisions) (haliases : t.aliases = s.aliases.set k record)
      (hpromotions : t.promotions = s.promotions)

theorem Effect.refl (host : RegistryHost) (s : MemoryRevisionRegistry) : Effect host s s :=
  .kept rfl rfl rfl

theorem instantOf_stored {text : String} {at_ : Instant} (h : host.fromisoformat text = some at_)
    (hstamp : r.createdAt = some text) : instantOf host r = some at_ := by
  unfold instantOf
  rw [hstamp]
  exact h

theorem Effect.of_logical {logical : Dict Key LogicalIdentity}
    (h : Effect host { s with logical := logical } t) : Effect host s t := by
  cases h with
  | kept hrevisions haliases hpromotions => exact .kept hrevisions haliases hpromotions
  | appended scope r h hrevisions haliases hpromotions =>
      exact .appended scope r ⟨h.fresh, h.tenant, h.workspace, h.fingerprint, h.later⟩ hrevisions
        haliases hpromotions
  | aliased k record h hrevisions haliases hpromotions =>
      exact .aliased k record h hrevisions haliases hpromotions

theorem appendRevision_effect (hforeign : foreign ctx revision = false)
    (hfresh : s.revisions.contains ⟨ctx.scopeKey, revision.revisionId⟩ = false) :
    Effect host s (appendRevision host env ctx s revision).state := by
  unfold appendRevision
  split
  · exact .refl host s
  · rename_i current hcurrent
    split
    · exact .refl host s
    · rename_i createdAt hcreated
      obtain ⟨at_, hat, hlater⟩ := timestampAfterCurrent_eq hcreated
      simp only [foreign, Bool.or_eq_false_iff, decide_eq_false_iff_not, not_not] at hforeign
      refine .appended ctx.scopeKey (storedRevision host revision createdAt)
        ⟨Dict.contains_eq_false.mp hfresh, hforeign.1, hforeign.2, rfl,
          current, at_, hcurrent, instantOf_stored hat rfl, ?_⟩ rfl rfl (.inl rfl)
      rintro head rfl before hbefore
      exact hlater before hbefore

theorem putRevision_effect :
    Effect host s (putRevision host env ctx s revision inactive).state := by
  unfold putRevision
  by_cases hforeign : foreign ctx revision = true
  · rw [if_pos hforeign]
    exact .refl host s
  rw [if_neg hforeign]
  have hown : foreign ctx revision = false := by simpa using hforeign
  split
  · exact .refl host s
  by_cases hfresh : s.revisions.contains ⟨ctx.scopeKey, revision.revisionId⟩ = true
  · rw [if_pos hfresh]
    exact .refl host s
  rw [if_neg hfresh]
  have habsent : s.revisions.contains ⟨ctx.scopeKey, revision.revisionId⟩ = false := by
    simpa using hfresh
  split
  · exact .refl host s
  split
  · -- A new identity is written next to the revision.
    exact Effect.of_logical (appendRevision_effect hown habsent)
  · split
    · exact .refl host s
    · exact appendRevision_effect hown habsent

theorem putLogical_effect (identity : LogicalIdentity) :
    Effect host s (putLogical host env ctx s identity inactive).state := by
  unfold putLogical
  split
  · exact .refl host s
  · split
    · exact .refl host s
    · dsimp only
      split
      · exact .refl host s
      · exact .kept rfl rfl rfl

theorem putRevisionIfCurrent_effect {expected : String} :
    Effect host s (putRevisionIfCurrent host env ctx s revision expected inactive).state := by
  unfold putRevisionIfCurrent
  split
  · exact .refl host s
  · split
    · exact .refl host s
    · split
      · exact .refl host s
      · split
        · exact .refl host s
        · exact putRevision_effect

theorem putAlias_effect (record : AliasRecord) :
    Effect host s (putAlias host env ctx s record inactive).state := by
  unfold putAlias
  split
  · exact .refl host s
  · split
    · exact .refl host s
    · split
      · exact .refl host s
      · rename_i target htarget
        split
        · exact .refl host s
        · rename_i hlogical
          refine .aliased ⟨ctx.scopeKey, record.aliasName⟩ { record with
            createdAt := some (orNow host (env.now []) record.createdAt)
            metadata := safeMetadata host record.metadata } ?_ rfl rfl rfl
          exact ⟨target, htarget, not_not.mp hlogical⟩

theorem promote_effect (request : PromoteRequest)
    (hfresh : s.revisions.contains ⟨ctx.scopeKey, newRevisionId env⟩ = false) :
    Effect host s (promote host env ctx s request inactive).state := by
  unfold promote
  split
  · exact .refl host s
  split
  · exact .refl host s
  rename_i source hsource
  split
  · exact .refl host s
  rename_i hlogical
  split
  · exact .refl host s
  rename_i current hcurrent
  split
  · exact .refl host s
  rename_i createdAt hcreated
  obtain ⟨at_, hat, hlater⟩ := timestampAfterCurrent_eq hcreated
  have happends : Appends host s ctx.scopeKey
      (promotedRevision host env ctx source request createdAt) := by
    refine ⟨Dict.contains_eq_false.mp hfresh, rfl, rfl, rfl, current, at_, hcurrent,
      instantOf_stored hat rfl, ?_⟩
    rintro head rfl before hbefore
    exact hlater before hbefore
  -- The source is stored and the new identifier is not.
  have hne : newRevisionId env ≠ request.fromRevisionId := by
    intro heq
    have habsent := Dict.contains_eq_false.mp hfresh
    rw [heq, hsource] at habsent
    cases habsent
  dsimp only
  rw [if_neg hne]
  refine .appended ctx.scopeKey _ happends rfl rfl (.inr ⟨_, promotionOf host env ctx request,
    ⟨source, promotedRevision host env ctx source request createdAt, ?_, ?_, ?_, rfl⟩, rfl⟩)
  · rw [Dict.get?_set_ne]
    · exact hsource
    · intro heq
      exact hne (congrArg Key.id heq)
  · exact Dict.get?_set_self _ _ _
  · exact not_not.mp hlogical

theorem next_effect (hnew : e.isNew s = true) : Effect host s (next host s e) := by
  unfold next Event.exec
  split
  · exact putLogical_effect _
  · exact putRevision_effect
  · exact putRevisionIfCurrent_effect
  · exact putAlias_effect _
  · refine promote_effect _ ?_
    simp only [Event.isNew, Bool.and_eq_true, Bool.not_eq_true'] at hnew
    exact hnew.1

/-! ## What every history keeps -/

structure Sound (host : RegistryHost) (s : MemoryRevisionRegistry) : Prop where
  home : s.revisions.All fun k r =>
    r.tenantId = k.scope.tenantId ∧ r.workspaceId = k.scope.workspaceId ∧ r.revisionId = k.id
  ordered : ∀ scope logicalId, Ordered host (revisionsOf s scope logicalId)
  fingerprinted : s.revisions.All fun _ r =>
    r.contentFingerprint = contentFingerprint host r.content
  aliased : s.aliases.All (AliasBacked s.revisions)
  promoted : s.promotions.All (PromotionBacked s.revisions)

theorem sound_init (host : RegistryHost) : Sound host .init where
  home := Dict.all_empty _
  ordered := fun _ _ => ordered_nil host
  fingerprinted := Dict.all_empty _
  aliased := Dict.all_empty _
  promoted := Dict.all_empty _

/-- The recomputed head is the last stored revision. -/
theorem Sound.head (h : Sound host s) (scope : Scope) (logicalId : String) :
    currentRevision host s scope logicalId = .ok (revisionsOf s scope logicalId).getLast? :=
  laterRevision_of_ordered (h.ordered scope logicalId)

theorem revisionsOf_appended {k : Key} (hfresh : s.revisions.get? k = none)
    (hrevisions : t.revisions = s.revisions.set k r) (scope : Scope) (logicalId : String) :
    revisionsOf t scope logicalId =
      revisionsOf s scope logicalId ++ if ofLogical scope logicalId r then [r] else [] := by
  unfold revisionsOf
  rw [hrevisions, Dict.entries_set_of_absent hfresh, List.map_append, List.filter_append]
  simp only [List.map_cons, List.map_nil, List.filter_cons, List.filter_nil]

theorem revisionsOf_kept (hrevisions : t.revisions = s.revisions) (scope : Scope)
    (logicalId : String) : revisionsOf t scope logicalId = revisionsOf s scope logicalId := by
  unfold revisionsOf
  rw [hrevisions]

/-- Stored revisions stay. -/
def Keeps (s t : MemoryRevisionRegistry) : Prop :=
  ∀ k r, s.revisions.get? k = some r → t.revisions.get? k = some r

theorem Effect.keeps (h : Effect host s t) : Keeps s t := by
  intro k r hget
  cases h with
  | kept hrevisions => rw [hrevisions]; exact hget
  | aliased _ _ _ hrevisions => rw [hrevisions]; exact hget
  | appended scope new h hrevisions =>
      rw [hrevisions, Dict.get?_set_ne]
      · exact hget
      · rintro rfl
        rw [h.fresh] at hget
        cases hget

theorem AliasBacked.keeps {k : Key} {record : AliasRecord} (h : AliasBacked s.revisions k record)
    (hkeeps : Keeps s t) : AliasBacked t.revisions k record := by
  obtain ⟨r, hget, hlogical⟩ := h
  exact ⟨r, hkeeps _ r hget, hlogical⟩

theorem PromotionBacked.keeps {k : Key} {record : PromotionRecord}
    (h : PromotionBacked s.revisions k record) (hkeeps : Keeps s t) :
    PromotionBacked t.revisions k record := by
  obtain ⟨source, target, hsource, htarget, hlogical⟩ := h
  exact ⟨source, target, hkeeps _ source hsource, hkeeps _ target htarget, hlogical⟩

theorem Sound.appended (h : Sound host s) (hnew : Appends host s scope r)
    (hrevisions : t.revisions = s.revisions.set ⟨scope, r.revisionId⟩ r) (scope' : Scope)
    (logicalId : String) : Ordered host (revisionsOf t scope' logicalId) := by
  rw [revisionsOf_appended hnew.fresh hrevisions]
  by_cases hmine : ofLogical scope' logicalId r = true
  · rw [if_pos hmine]
    obtain ⟨current, at_, hcurrent, hinstant, hlater⟩ := hnew.later
    simp only [ofLogical, Bool.and_eq_true, decide_eq_true_eq] at hmine
    obtain ⟨⟨htenant, hworkspace⟩, rfl⟩ := hmine
    -- The scope of the revision is the scope it is appended in.
    have hscope : scope' = scope := by
      cases scope'
      cases scope
      exact congrArg₂ Scope.mk (htenant.symm.trans hnew.tenant)
        (hworkspace.symm.trans hnew.workspace)
    subst hscope
    rw [h.head] at hcurrent
    obtain rfl := Except.ok.inj hcurrent
    exact (h.ordered _ _).append hinstant hlater
  · rw [if_neg hmine, List.append_nil]
    exact h.ordered scope' logicalId

theorem Effect.sound (h : Effect host s t) (hs : Sound host s) : Sound host t := by
  have hkeeps := h.keeps
  cases h with
  | kept hrevisions haliases hpromotions =>
      refine ⟨?_, ?_, ?_, ?_, ?_⟩
      · rw [hrevisions]
        exact hs.home
      · intro scope logicalId
        rw [revisionsOf_kept hrevisions]
        exact hs.ordered scope logicalId
      · rw [hrevisions]
        exact hs.fingerprinted
      · rw [haliases]
        exact hs.aliased.mono fun _ _ hbacked => hbacked.keeps hkeeps
      · rw [hpromotions]
        exact hs.promoted.mono fun _ _ hbacked => hbacked.keeps hkeeps
  | appended scope r happends hrevisions haliases hpromotions =>
      refine ⟨?_, hs.appended happends hrevisions, ?_, ?_, ?_⟩
      · rw [hrevisions]
        exact hs.home.set ⟨happends.tenant, happends.workspace, rfl⟩
      · rw [hrevisions]
        exact hs.fingerprinted.set happends.fingerprint
      · rw [haliases]
        exact hs.aliased.mono fun _ _ hbacked => hbacked.keeps hkeeps
      · have hold : s.promotions.All (PromotionBacked t.revisions) :=
          hs.promoted.mono fun _ _ hbacked => hbacked.keeps hkeeps
        rcases hpromotions with hsame | ⟨k, record, hbacked, hset⟩
        · rw [hsame]
          exact hold
        · rw [hset]
          exact hold.set hbacked
  | aliased k record hbacked hrevisions haliases hpromotions =>
      refine ⟨?_, ?_, ?_, ?_, ?_⟩
      · rw [hrevisions]
        exact hs.home
      · intro scope logicalId
        rw [revisionsOf_kept hrevisions]
        exact hs.ordered scope logicalId
      · rw [hrevisions]
        exact hs.fingerprinted
      · rw [haliases]
        have hold : s.aliases.All (AliasBacked t.revisions) :=
          hs.aliased.mono fun _ _ hold => hold.keeps hkeeps
        exact hold.set (hbacked.keeps hkeeps)
      · rw [hpromotions]
        exact hs.promoted.mono fun _ _ hbacked => hbacked.keeps hkeeps

theorem sound_run {es : List Event} (hs : Sound host s)
    (h : Runs.Guarded (next host) (fun s e => e.isNew s = true) s es) :
    Sound host (Runs.run (next host) s es) :=
  Runs.invariant (I := Sound host) (fun _ _ hs hnew => (next_effect hnew).sound hs) hs h

theorem keeps_run {es : List Event}
    (h : Runs.Guarded (next host) (fun s e => e.isNew s = true) s es) :
    Keeps s (Runs.run (next host) s es) :=
  Runs.related (I := fun _ => True) (R := Keeps) (fun _ _ _ hget => hget)
    (fun hab hbc k r hget => hbc k r (hab k r hget)) (fun _ _ _ _ => trivial)
    (fun _ _ _ hnew => (next_effect hnew).keeps) trivial h

/-! ## Edits against a head -/

/-- The call stores a revision of a logical identity. -/
def Event.Stores (host : RegistryHost) (s : MemoryRevisionRegistry) (e : Event) (scope : Scope)
    (logicalId : String) (r : RegistryRevision) : Prop :=
  s.revisions.get? ⟨scope, r.revisionId⟩ = none ∧
    (next host s e).revisions.get? ⟨scope, r.revisionId⟩ = some r ∧
    ofLogical scope logicalId r = true

/-- The call is a `put_revision_if_current` for a fingerprint, and it succeeds. -/
def Event.Swaps (host : RegistryHost) (s : MemoryRevisionRegistry) (e : Event) (scope : Scope)
    (logicalId expected : String) (revision : RegistryRevision) : Prop :=
  e.call = .putRevisionIfCurrent revision expected ∧ e.ctx.scopeKey = scope ∧
    revision.logicalId = logicalId ∧ (e.exec host s).result = .ok ()

/-- A revision that was appended is the last one of its logical identity. -/
theorem Appends.last {scope' : Scope} (h : Appends host s scope r)
    (hrevisions : t.revisions = s.revisions.set ⟨scope, r.revisionId⟩ r)
    (hmine : ofLogical scope' logicalId r = true) :
    (revisionsOf t scope' logicalId).getLast? = some r := by
  rw [revisionsOf_appended h.fresh hrevisions, if_pos hmine]
  simp

theorem Appends.scope_eq {scope' : Scope} (h : Appends host s scope r)
    (hmine : ofLogical scope' logicalId r = true) : scope' = scope := by
  simp only [ofLogical, Bool.and_eq_true, decide_eq_true_eq] at hmine
  cases scope'
  cases scope
  exact congrArg₂ Scope.mk (hmine.1.1.symm.trans h.tenant) (hmine.1.2.symm.trans h.workspace)

/-- Unless a call stores a revision with the fingerprint, a head without it stays so. -/
theorem head_differs_next (hnew : e.isNew s = true) {expected : String}
    (hother : ∀ r, e.Stores host s scope logicalId r → r.contentFingerprint ≠ expected)
    (hhead : ∀ r, (revisionsOf s scope logicalId).getLast? = some r →
      r.contentFingerprint ≠ expected) :
    ∀ r, (revisionsOf (next host s e) scope logicalId).getLast? = some r →
      r.contentFingerprint ≠ expected := by
  intro r hlast
  cases next_effect hnew with
  | kept hrevisions =>
      rw [revisionsOf_kept hrevisions] at hlast
      exact hhead r hlast
  | aliased _ _ _ hrevisions =>
      rw [revisionsOf_kept hrevisions] at hlast
      exact hhead r hlast
  | appended scope' new happends hrevisions =>
      by_cases hmine : ofLogical scope logicalId new = true
      · rw [happends.last hrevisions hmine] at hlast
        obtain rfl := Option.some.inj hlast
        obtain rfl := happends.scope_eq hmine
        refine hother new ⟨happends.fresh, ?_, hmine⟩
        rw [hrevisions]
        exact Dict.get?_set_self _ _ _
      · rw [revisionsOf_appended happends.fresh hrevisions, if_neg hmine, List.append_nil] at hlast
        exact hhead r hlast

theorem appendRevision_last (hforeign : foreign ctx revision = false)
    (hfresh : s.revisions.contains ⟨ctx.scopeKey, revision.revisionId⟩ = false)
    (hok : (appendRevision host env ctx s revision).result = .ok ()) :
    ∃ createdAt, (revisionsOf (appendRevision host env ctx s revision).state ctx.scopeKey
      revision.logicalId).getLast? = some (storedRevision host revision createdAt) := by
  have hmine : ∀ createdAt, ofLogical ctx.scopeKey revision.logicalId
      (storedRevision host revision createdAt) = true := by
    intro createdAt
    simp only [foreign, Bool.or_eq_false_iff, decide_eq_false_iff_not, not_not] at hforeign
    simp [ofLogical, storedRevision, ControlPlaneContext.scopeKey, hforeign.1, hforeign.2]
  unfold appendRevision at hok ⊢
  split at hok
  · cases hok
  · rename_i current hcurrent
    split at hok
    · cases hok
    · rename_i createdAt hcreated
      refine ⟨createdAt, ?_⟩
      rw [revisionsOf_appended (Dict.contains_eq_false.mp hfresh) rfl, if_pos (hmine createdAt)]
      simp

theorem putRevision_last
    (hok : (putRevision host env ctx s revision inactive).result = .ok ()) :
    ∃ createdAt, (revisionsOf (putRevision host env ctx s revision inactive).state ctx.scopeKey
      revision.logicalId).getLast? = some (storedRevision host revision createdAt) := by
  unfold putRevision at hok ⊢
  by_cases hforeign : foreign ctx revision = true
  · rw [if_pos hforeign] at hok
    cases hok
  rw [if_neg hforeign] at hok ⊢
  have hown : foreign ctx revision = false := by simpa using hforeign
  split at hok
  · cases hok
  by_cases hfresh : s.revisions.contains ⟨ctx.scopeKey, revision.revisionId⟩ = true
  · rw [if_pos hfresh] at hok
    cases hok
  rw [if_neg hfresh] at hok ⊢
  have habsent : s.revisions.contains ⟨ctx.scopeKey, revision.revisionId⟩ = false := by
    simpa using hfresh
  by_cases hfingerprint : revision.contentFingerprint ≠ contentFingerprint host revision.content
  · rw [if_pos hfingerprint] at hok
    cases hok
  rw [if_neg hfingerprint] at hok ⊢
  split at hok
  · exact appendRevision_last hown habsent hok
  · rename_i logical hlogical
    by_cases hkind : revision.kind.any (fun kind => logical.kind ≠ kind) = true
    · rw [if_pos hkind] at hok
      cases hok
    · rw [if_neg hkind] at hok ⊢
      exact appendRevision_last hown habsent hok

/-- A swap finds the head it expects and leaves its own revision as the head. -/
theorem Event.Swaps.head {expected : String} (hs : Sound host s)
    (h : e.Swaps host s scope logicalId expected revision) :
    (∃ r, (revisionsOf s scope logicalId).getLast? = some r ∧ r.contentFingerprint = expected) ∧
      ∃ createdAt, (revisionsOf (next host s e) scope logicalId).getLast? =
        some (storedRevision host revision createdAt) := by
  obtain ⟨hcall, rfl, rfl, hok⟩ := h
  have hnext : next host s e =
      (putRevisionIfCurrent host e.env e.ctx s revision expected e.inactive).state := by
    simp only [next, Event.exec, hcall]
  rw [hnext]
  simp only [Event.exec, hcall] at hok
  unfold putRevisionIfCurrent at hok ⊢
  by_cases hforeign : foreign e.ctx revision = true
  · rw [if_pos hforeign] at hok
    cases hok
  rw [if_neg hforeign] at hok ⊢
  split at hok
  · cases hok
  rename_i hactive
  rw [hs.head] at hok ⊢
  dsimp only at hok ⊢
  cases hlast : (revisionsOf s e.ctx.scopeKey revision.logicalId).getLast? with
  | none =>
      rw [hlast] at hok
      cases hok
  | some r =>
      rw [hlast] at hok
      by_cases hdiffers : r.contentFingerprint = expected
      · refine ⟨⟨r, rfl, hdiffers⟩, ?_⟩
        have hpasses : ¬ (some r).all (fun head => head.contentFingerprint ≠ expected) = true := by
          simp [hdiffers]
        rw [if_neg hpasses] at hok ⊢
        exact putRevision_last hok
      · rw [if_pos (by simp [hdiffers])] at hok
        cases hok

/-- Between two swaps against the same fingerprint, where the first stored another one, a
call stored the fingerprint again. -/
theorem second_swap_needs_writer {expected : String} {first second : RegistryRevision}
    {e' : Event} {mid : List Event} (hs : Sound host s)
    (h : Runs.Guarded (next host) (fun s e => e.isNew s = true) s (e :: (mid ++ [e'])))
    (hfirst : e.Swaps host s scope logicalId expected first)
    (hother : contentFingerprint host (safeRegistryContent host first.content) ≠ expected)
    (hsecond : e'.Swaps host (Runs.run (next host) s (e :: mid)) scope logicalId expected second) :
    ∃ front writer back r, mid = front ++ writer :: back ∧
      writer.Stores host (Runs.run (next host) s (e :: front)) scope logicalId r ∧
      r.contentFingerprint = expected := by
  by_contra hnone
  have hsnext : Sound host (next host s e) := (next_effect h.1).sound hs
  have hmid : Runs.Guarded (next host) (fun s e => e.isNew s = true) (next host s e) mid :=
    h.2.left
  -- No call in between stores the fingerprint, so the head keeps another one.
  have hquiet : Runs.Guarded (next host) (fun s w => ∀ r, w.Stores host s scope logicalId r →
      r.contentFingerprint ≠ expected) (next host s e) mid := by
    rw [Runs.guarded_iff]
    intro front writer back hsplit r hstores heq
    exact hnone ⟨front, writer, back, r, hsplit, hstores, heq⟩
  have hstart : ∀ r, (revisionsOf (next host s e) scope logicalId).getLast? = some r →
      r.contentFingerprint ≠ expected := by
    intro r hlast
    obtain ⟨createdAt, hstored⟩ := (hfirst.head hs).2
    obtain rfl := Option.some.inj (hstored.symm.trans hlast)
    exact hother
  have hend := Runs.invariant
    (I := fun s => ∀ r, (revisionsOf s scope logicalId).getLast? = some r →
      r.contentFingerprint ≠ expected)
    (fun _ _ hhead hstep => head_differs_next hstep.1 hstep.2 hhead) hstart (hmid.and hquiet)
  obtain ⟨r, hlast, heq⟩ := (hsecond.head (sound_run hsnext hmid)).1
  exact hend r hlast heq

/-- In every reachable registry the revisions of a logical identity are stored in strictly
increasing time, with the last one as the recomputed head; revisions keep their content and
its fingerprint; aliases and promotions refer to stored revisions of their logical
identity; and of the edits prepared against one fingerprint that store another, a further
one succeeds only after a call stored that fingerprint again. -/
theorem registry_history (host : RegistryHost) (es : List Event)
    (h : Runs.Guarded (next host) (fun s e => e.isNew s = true) .init es) :
    let s := Runs.run (next host) .init es
    (∀ scope logicalId, Ordered host (revisionsOf s scope logicalId) ∧
      currentRevision host s scope logicalId = .ok (revisionsOf s scope logicalId).getLast?) ∧
    (∀ before after, es = before ++ after → ∀ k r,
      (Runs.run (next host) .init before).revisions.get? k = some r →
        s.revisions.get? k = some r) ∧
    (∀ k r, s.revisions.get? k = some r →
      r.contentFingerprint = contentFingerprint host r.content) ∧
    s.aliases.All (AliasBacked s.revisions) ∧ s.promotions.All (PromotionBacked s.revisions) ∧
    (∀ before e mid e' after scope logicalId expected first second,
      es = before ++ e :: (mid ++ e' :: after) →
      e.Swaps host (Runs.run (next host) .init before) scope logicalId expected first →
      contentFingerprint host (safeRegistryContent host first.content) ≠ expected →
      e'.Swaps host (Runs.run (next host) .init (before ++ e :: mid)) scope logicalId expected
        second →
      ∃ front writer back r, mid = front ++ writer :: back ∧
        writer.Stores host (Runs.run (next host) .init (before ++ e :: front)) scope logicalId r ∧
        r.contentFingerprint = expected) := by
  intro s
  have hsound : Sound host s := sound_run (sound_init host) h
  refine ⟨fun scope logicalId => ⟨hsound.ordered scope logicalId, hsound.head scope logicalId⟩,
    ?_, hsound.fingerprinted, hsound.aliased, hsound.promoted, ?_⟩
  · rintro before after rfl k r hget
    have hkeeps := keeps_run h.right k r hget
    rwa [← Runs.run_append] at hkeeps
  · rintro before e mid e' after scope logicalId expected first second rfl hfirst hother hsecond
    have hbefore : Sound host (Runs.run (next host) .init before) :=
      sound_run (sound_init host) h.left
    have hrest : Runs.Guarded (next host) (fun s e => e.isNew s = true)
        (Runs.run (next host) .init before) (e :: (mid ++ [e'])) := by
      have htail := h.right
      rw [show e :: (mid ++ e' :: after) = (e :: (mid ++ [e'])) ++ after by simp] at htail
      exact htail.left
    rw [Runs.run_append] at hsecond
    obtain ⟨front, writer, back, r, hsplit, hstores, heq⟩ :=
      second_swap_needs_writer hbefore hrest hfirst hother hsecond
    rw [← Runs.run_append] at hstores
    exact ⟨front, writer, back, r, hsplit, hstores, heq⟩

section Sample

/-- The first microseconds of the epoch. -/
def sampleStamps : List (Instant × String) :=
  [(0, "1970-01-01T00:00:00Z"), (1, "1970-01-01T00:00:00.000001Z"),
    (2, "1970-01-01T00:00:00.000002Z")]

def sampleIsoformat (at_ : Instant) : Option String :=
  (sampleStamps.find? fun stamp => stamp.1 = at_).map Prod.snd

def sampleFromisoformat (text : String) : Option Instant :=
  (sampleStamps.find? fun stamp => stamp.2 = text).map Prod.fst

theorem sampleStamps_roundTrip (at_ : Instant) (text : String)
    (h : sampleIsoformat at_ = some text) : sampleFromisoformat text = some at_ := by
  obtain ⟨stamp, hfind, rfl⟩ := Option.map_eq_some_iff.mp h
  have hat : stamp.1 = at_ := by simpa using List.find?_some hfind
  have hmem : stamp ∈ sampleStamps := List.mem_of_find?_eq_some hfind
  have hall : ∀ stamp ∈ sampleStamps, sampleFromisoformat stamp.2 = some stamp.1 := by
    decide
  rw [hall stamp hmem, hat]

/-- SHA-256 of the empty document. -/
def sampleEmptySha256 : String :=
  "44136fa355b3678a1146ad16f7e8649e94fb4fc21fe77e8310c060f61caaff8a"

def sampleRegistryHost : RegistryHost where
  sha256 text := if text = "{}" then sampleEmptySha256 else ""
  unicode := Durable.sampleHost.unicode
  casefold text := text
  str _ := ""
  fromisoformat := sampleFromisoformat
  isoformat := sampleIsoformat
  roundTrip := sampleStamps_roundTrip

def sampleRevision (revisionId : String) : RegistryRevision where
  logicalId := "orders"
  revisionId := revisionId
  tenantId := "acme"
  workspaceId := "main"
  contentFingerprint := sampleEmptySha256
  content := []
  createdAt := none
  kind := none
  signaturePlaceholder := none
  provenancePlaceholder := none

/-- A first revision, an edit of it, and the promotion of the first. -/
def sampleHistory : List Event :=
  [⟨Durable.sampleEnv 'a' 0, Durable.sampleContext, none, .putRevision (sampleRevision "r1")⟩,
    ⟨Durable.sampleEnv 'b' 0, Durable.sampleContext, none,
      .putRevisionIfCurrent (sampleRevision "r2") sampleEmptySha256⟩,
    ⟨Durable.sampleEnv 'c' 0, Durable.sampleContext, none,
      .promote ⟨"orders", "r1", "dev", "prod", none, []⟩⟩]

theorem sample_history_ordered :
    let s := Runs.run (next sampleRegistryHost) .init sampleHistory
    (revisionsOf s Durable.sampleContext.scopeKey "orders").length = 3 ∧
      Ordered sampleRegistryHost (revisionsOf s Durable.sampleContext.scopeKey "orders") := by
  intro s
  have hresult := registry_history sampleRegistryHost sampleHistory (by decide)
  exact ⟨by decide, (hresult.1 Durable.sampleContext.scopeKey "orders").1⟩

end Sample

end Etlantic.ControlPlane.Registry
