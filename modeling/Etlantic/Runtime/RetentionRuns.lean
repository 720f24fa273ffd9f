import Etlantic.Runtime.RetentionSteps

/-!
# Runs of passes and publications

Two facts about every run of the system.  A lock has one holder, and what each
pass knows about its workspace is right.  And every expired reference of a row
is accounted for: it is deferred, or a pass has settled it, or a publication put
it as expired.
-/

namespace Etlantic.Runtime

open ControlPlane (Instant seconds)

variable {h : Host}

/-! ## Locks -/

/-- The state of the locks and of what their holders know. -/
structure LockInvariant (h : Host) (s : System) : Prop where
  exclusive : ∀ (i j : Nat) (p q : Pass) (workspace : String), s.passes[i]? = some p →
    s.passes[j]? = some q → p.holds = some workspace → q.holds = some workspace → i = j
  safe : ∀ p ∈ s.passes, PassSafe h s.disk p

theorem lockInvariant_fresh : LockInvariant h System.fresh :=
  ⟨fun _ _ _ _ _ hi => (by cases hi), fun _ hp => (by cases hp)⟩

theorem holds_of_not_locked {s : System} {workspace : String} (hfree : s.locked workspace = false)
    {p : Pass} (hp : p ∈ s.passes) {workspace' : String} (hholds : p.holds = some workspace') :
    workspace' ≠ workspace := by
  rintro rfl
  exact List.any_eq_false.mp hfree p hp (by simp [hholds])

/-- What happens under a free lock, or without one, leaves the passes right. -/
theorem LockInvariant.of_noNew {s s' : System} (hinv : LockInvariant h s)
    (hpasses : s'.passes = s.passes)
    (hnew : ∀ p ∈ s.passes, ∀ workspace, p.holds = some workspace →
      NoNew h s.disk s'.disk p.cutoff workspace) : LockInvariant h s' := by
  refine ⟨?_, fun p hp => ?_⟩
  · rw [hpasses]
    exact hinv.exclusive
  · rw [hpasses] at hp
    exact (hinv.safe p hp).mono (hnew p hp)

/-- A pass that gives up its lock, or starts without one. -/
theorem LockInvariant.set_idle {s : System} (hinv : LockInvariant h s) {i : Nat} {p : Pass}
    (hidle : p.stage.idle) :
    LockInvariant h { s with passes := s.passes.set i p } := by
  refine ⟨fun a b q r workspace ha hb hq hr => ?_, fun q hq => ?_⟩
  · dsimp only at ha hb
    rw [List.getElem?_set] at ha hb
    split at ha
    · split at ha
      · obtain rfl := Option.some.inj ha
        rw [Pass.holds_idle hidle] at hq
        cases hq
      · cases ha
    · split at hb
      · split at hb
        · obtain rfl := Option.some.inj hb
          rw [Pass.holds_idle hidle] at hr
          cases hr
        · cases hb
      · exact hinv.exclusive a b q r workspace ha hb hq hr
  · rcases List.mem_or_eq_of_mem_set hq with hmem | rfl
    · exact hinv.safe q hmem
    · exact PassSafe.of_idle hidle

/-- The writes of a step reach a workspace that another pass holds with no new reference. -/
theorem noNew_advance {s : System} (hinv : LockInvariant h s) {i j : Nat} {p q : Pass}
    (hp : s.passes[i]? = some p) (hq : s.passes[j]? = some q) (hne : i ≠ j) {o : Outcome}
    (hallowed : ∀ w, o.write = some w → Allowed h s.disk p w) {workspace : String}
    (hholds : q.holds = some workspace) :
    NoNew h s.disk (s.disk.after o.write) q.cutoff workspace := by
  cases hw : o.write with
  | none => exact NoNew.refl _ _ _
  | some w =>
      refine noNew_of_allowed (hallowed w hw) fun hmine => ?_
      exact absurd (hinv.exclusive i j p q workspace hp hq hmine hholds) hne

theorem LockInvariant.settle {s : System} (hinv : LockInvariant h s) {i : Nat} {p : Pass}
    (hp : s.passes[i]? = some p) {o : Outcome}
    (hstep : StepSafe h s.disk (fun workspace => !s.locked workspace) p o) :
    LockInvariant h (s.settle i o) := by
  have hmem : p ∈ s.passes := List.mem_of_getElem? hp
  -- A lock the step has taken was free, and one it kept is its own.
  have hapart : ∀ (j : Nat) (q : Pass) (workspace : String), s.passes[j]? = some q → i ≠ j →
      q.holds = some workspace → o.pass.holds ≠ some workspace := by
    intro j q workspace hq hne hqholds hoholds
    rcases hstep.holds workspace hoholds with hmine | hfree
    · exact hne (hinv.exclusive i j p q workspace hp hq hmine hqholds)
    · have hfree' : s.locked workspace = false := by simpa using hfree
      exact holds_of_not_locked hfree' (List.mem_of_getElem? hq) hqholds rfl
  refine ⟨fun a b q r workspace ha hb hq hr => ?_, fun q hq => ?_⟩
  · change (s.passes.set i o.pass)[a]? = some q at ha
    change (s.passes.set i o.pass)[b]? = some r at hb
    by_cases hia : i = a
    · by_cases hib : i = b
      · exact hia.symm.trans hib
      · subst hia
        rw [List.getElem?_set_ne hib] at hb
        rw [List.getElem?_set_self (List.getElem?_eq_some_iff.mp hp).1] at ha
        obtain rfl := Option.some.inj ha
        exact absurd hq (hapart b r workspace hb hib hr)
    · rw [List.getElem?_set_ne hia] at ha
      by_cases hib : i = b
      · subst hib
        rw [List.getElem?_set_self (List.getElem?_eq_some_iff.mp hp).1] at hb
        obtain rfl := Option.some.inj hb
        exact absurd hr (hapart a q workspace ha hia hq)
      · rw [List.getElem?_set_ne hib] at hb
        exact hinv.exclusive a b q r workspace ha hb hq hr
  · change PassSafe h (s.disk.after o.write) q
    obtain ⟨j, hj, hget⟩ := List.mem_iff_getElem.mp hq
    have hq' : (s.passes.set i o.pass)[j]? = some q := List.getElem?_eq_some_iff.mpr ⟨hj, hget⟩
    by_cases hij : i = j
    · subst hij
      rw [List.getElem?_set_self (List.getElem?_eq_some_iff.mp hp).1] at hq'
      obtain rfl := Option.some.inj hq'
      exact hstep.safe
    · rw [List.getElem?_set_ne hij] at hq'
      exact (hinv.safe q (List.mem_of_getElem? hq')).mono fun workspace hholds =>
        noNew_advance hinv hp hq' hij hstep.allowed hholds

/-! ## Publications -/

theorem applyArtifactExpiry_home {d : Disk} {workspace : String} (report : PipelineRunReport) :
    homeOf h (applyArtifactExpiry h d workspace report) = homeOf h report := by
  apply homeOf_congr <;>
  · unfold applyArtifactExpiry
    dsimp only
    split
    · rfl
    · split
      · rfl
      · rfl

theorem home_of_storage {row : PipelineRunReport} {storage : String}
    (hstorage : row.storageRunId = some storage) : Home h row (h.scopeFragment storage) := by
  intro home hhome
  unfold homeOf PipelineRunReport.artifactStorageRunId at hhome
  simp only [hstorage, adopted_some, Option.getD_some] at hhome
  split at hhome
  · cases hhome
  · exact (Option.some.inj hhome).symm

/-- A row is put under the lock of the workspace it resolves to. -/
theorem home_of_published {d : Disk} {publication : Publication} {workspace : String}
    {row : PipelineRunReport} {owned : Bool}
    (hpub : published h d publication = some (workspace, row, owned)) : Home h row workspace := by
  cases publication with
  | stamped storage report =>
      obtain ⟨rfl, rfl, -⟩ : _ ∧ _ ∧ _ := by simpa [published] using hpub
      exact home_of_storage rfl
  | restamped storage runId intent =>
      obtain ⟨existing, -, hpub⟩ := Option.bind_eq_some_iff.mp hpub
      obtain ⟨hws, hrest⟩ := Prod.mk.inj (Option.some.inj hpub)
      obtain ⟨hrow, -⟩ := Prod.mk.inj hrest
      subst hws hrow
      apply home_of_storage
      show (applyArtifactExpiry h d _ { existing with storageRunId := some storage }).storageRunId
        = some storage
      unfold applyArtifactExpiry
      dsimp only
      split
      · rfl
      · split
        · rfl
        · rfl
  | reconciled report =>
      obtain ⟨resolved, hres, hpub⟩ := Option.bind_eq_some_iff.mp hpub
      obtain ⟨storage, hstorage, hpub⟩ := Option.bind_eq_some_iff.mp hpub
      obtain ⟨carried, hcarried, hpub⟩ := Option.bind_eq_some_iff.mp hpub
      obtain ⟨hws, hrest⟩ := Prod.mk.inj (Option.some.inj hpub)
      obtain ⟨hrow, -⟩ := Prod.mk.inj hrest
      subst hws hrow
      have hsame : homeOf h carried = homeOf h resolved := by
        unfold withCurrent at hcarried
        split at hcarried
        · obtain rfl := Option.some.inj hcarried
          rfl
        · split at hcarried
          · obtain rfl := Option.some.inj hcarried
            rfl
          · split at hcarried
            · cases hcarried
            · obtain rfl := Option.some.inj hcarried
              exact homeOf_congr h rfl rfl rfl
      intro home hhome
      rw [applyArtifactExpiry_home, hsame] at hhome
      -- A resolved report resolves to itself.
      have hself : homeOf h resolved = some (h.scopeFragment storage) := by
        unfold resolve at hres
        split at hres
        · rename_i found hverdict
          obtain rfl := Option.some.inj hres
          have hadopted : adopted h report.runId report.storageRunId report.intent =
              report.storageRunId.or found := by
            unfold adopted
            rw [hverdict]
          unfold homeOf
          dsimp only
          rw [← hadopted, adopted_adopted, hadopted, hstorage]
          rfl
        · cases hres
      rw [hself] at hhome
      exact (Option.some.inj hhome).symm
  | plain report =>
      obtain ⟨resolved, hres, hpub⟩ := Option.bind_eq_some_iff.mp hpub
      obtain ⟨storage, hstorage, hpub⟩ := Option.bind_eq_some_iff.mp hpub
      obtain ⟨hws, hrest⟩ := Prod.mk.inj (Option.some.inj hpub)
      obtain ⟨hrow, -⟩ := Prod.mk.inj hrest
      subst hws hrow
      intro home hhome
      rw [homeOf_normalized h hres, hstorage] at hhome
      exact (Option.some.inj hhome).symm

/-- Ownership is only recorded for durable artifacts. -/
theorem recordArtifactOwnership_eq_nil {workspace : String} {report : PipelineRunReport}
    (hdurable : report.hasDurable = false) : recordArtifactOwnership h workspace report = [] := by
  have hnone : (report.artifacts.filter fun a => a.durable && !a.expired) = [] := by
    rw [List.filter_eq_nil_iff]
    intro a ha
    have := List.any_eq_false.mp hdurable a ha
    simp [this]
  unfold recordArtifactOwnership
  rw [hnone]
  rfl

theorem noNew_recordArtifactOwnership {d : Disk} {report : PipelineRunReport}
    {workspace workspace' : String} {cutoff : Instant} (hne : workspace ≠ workspace') :
    NoNew h d ((recordArtifactOwnership h workspace report).foldl Disk.apply d) cutoff
      workspace' := by
  unfold recordArtifactOwnership
  dsimp only
  split
  · exact NoNew.refl _ _ _
  · exact noNew_putOwner (.inl hne)

theorem lockInvariant_next {s : System} (hinv : LockInvariant h s) (a : Action) :
    LockInvariant h (next h s a) := by
  cases a with
  | start settings =>
      have hidle : Stage.idle (.orphans (discoverArtifactWorkspaces s.disk)) := trivial
      refine ⟨fun i j p q workspace hi hj hp hq => ?_, fun p hp => ?_⟩
      · have hold : ∀ (k : Nat) (r : Pass), r.holds = some workspace →
            (next h s (.start settings)).passes[k]? = some r → s.passes[k]? = some r := by
          intro k r hr hk
          change (s.passes ++ [_])[k]? = some r at hk
          rcases Nat.lt_or_ge k s.passes.length with hlt | hge
          · rwa [List.getElem?_append_left hlt] at hk
          · rw [List.getElem?_append_right hge] at hk
            have hlast := List.mem_of_getElem? hk
            rw [List.mem_singleton] at hlast
            rw [hlast] at hr
            cases hr
        exact hinv.exclusive i j p q workspace (hold i p hp hi) (hold j q hq hj) hp hq
      · rcases List.mem_append.mp hp with hmem | hlast
        · exact hinv.safe p hmem
        · rw [List.mem_singleton] at hlast
          rw [hlast]
          exact PassSafe.of_idle hidle
  | advance i ok =>
      cases hp : s.passes[i]? with
      | none =>
          simp only [next, hp]
          exact hinv
      | some p =>
          simp only [next, hp]
          exact hinv.settle hp (advance_safe (hinv.safe p (List.mem_of_getElem? hp)))
  | crash i =>
      cases hp : s.passes[i]? with
      | none =>
          simp only [next, hp]
          exact hinv
      | some p =>
          simp only [next, hp]
          exact hinv.set_idle trivial
  | writeArtifact workspace stem =>
      cases hlocked : s.locked workspace with
      | true =>
          simp only [next, hlocked, if_true]
          exact hinv
      | false =>
          simp only [next, hlocked, Bool.false_eq_true, if_false]
          refine hinv.of_noNew rfl fun p hp workspace' hholds => ?_
          have hne := holds_of_not_locked hlocked hp hholds
          refine NoNew.of_same_rows rfl rfl (fun _ hm => hm) fun stem' hfile => ?_
          rcases List.mem_cons.mp hfile with heq | hfile
          · exact absurd (Prod.mk.inj heq).1 hne
          · exact hfile
  | recordOwnership workspace report =>
      cases hlocked : s.locked workspace with
      | true =>
          simp only [next, hlocked, if_true]
          exact hinv
      | false =>
          simp only [next, hlocked, Bool.false_eq_true, if_false]
          refine hinv.of_noNew rfl fun p hp workspace' hholds => ?_
          have hne := holds_of_not_locked hlocked hp hholds
          exact noNew_recordArtifactOwnership hne.symm
  | publish publication =>
      cases hpub : published h s.disk publication with
      | none =>
          simp only [next, hpub]
          exact hinv
      | some found =>
          obtain ⟨workspace, row, owned⟩ := found
          have hhome := home_of_published hpub
          simp only [next, hpub]
          by_cases hbusy : (row.hasDurable && s.locked workspace) = true
          · rw [if_pos hbusy]
            exact hinv
          · rw [if_neg hbusy]
            refine hinv.of_noNew rfl fun p hp workspace' hholds => ?_
            show NoNew h s.disk (List.foldl Disk.apply s.disk _) _ _
            rw [List.foldl_append]
            cases hdurable : row.hasDurable with
            | false =>
                have hrow : ∀ d : Disk, NoNew h d (d.apply (.putRow row)) p.cutoff workspace' :=
                  fun d => noNew_putRow (.inl hdurable)
                cases owned with
                | true =>
                    simp only [if_true, recordArtifactOwnership_eq_nil hdurable, List.foldl_nil]
                    exact hrow _
                | false => exact hrow _
            | true =>
                have hfree : s.locked workspace = false := by simpa [hdurable] using hbusy
                have hne := holds_of_not_locked hfree hp hholds
                have hrow : ∀ d : Disk, NoNew h d (d.apply (.putRow row)) p.cutoff workspace' :=
                  fun d => noNew_putRow (.inr (.inr ⟨workspace, hhome, hne.symm⟩))
                cases owned with
                | true => exact (noNew_recordArtifactOwnership hne.symm).trans (hrow _)
                | false => exact hrow _

end Etlantic.Runtime
