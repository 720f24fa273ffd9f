import Etlantic.ControlPlane.Inputs.InputLeases

/-!
# Input retention over whole runs

A world is a store with what its calls have granted and not released, the ids
used so far and the last reading of the clock.  As long as the clock does not go
back, ids are fresh and no call compares a text with a fraction of a second to
one without in the same second, every grant that is still ahead is in the store:
no finalized upload changes, none is deleted under a grant, and acquiring a
lease again never shortens it.
-/

namespace Etlantic.ControlPlane.Inputs

open IsoText

namespace MemoryInputResourceStore

/-! ## Uploads step by step -/

/-- The same upload, with its reference if it had one. -/
structure Continues (u v : Upload) : Prop where
  same : v = { u with reference := v.reference }
  kept : ∀ reference, u.reference = some reference → v.reference = some reference

theorem Continues.refl (u : Upload) : Continues u u := ⟨rfl, fun _ h => h⟩

theorem Continues.trans {u v w : Upload} (h : Continues u v) (h' : Continues v w) :
    Continues u w := by
  refine ⟨?_, fun reference hreference => h'.kept reference (h.kept reference hreference)⟩
  rw [h'.same, h.same]

/-- A finalized upload that continues is unchanged. -/
theorem Continues.eq {u v : Upload} (h : Continues u v) {reference : InputResourceReference}
    (hfinal : u.reference = some reference) : v = u := by
  rw [h.same, h.kept reference hfinal, ← hfinal]

/-- What a step leaves under an id is what stood there, or an upload staged under it. -/
def Descends (s t : MemoryInputResourceStore) (event : Event) : Prop :=
  ∀ id v, t.uploads.get? id = some v → (∃ u, s.uploads.get? id = some u ∧ Continues u v) ∨
    ∃ call, event = .stage call ∧ call.freshId = id ∧ v.uploadId = id

theorem Descends.of_uploads {s t : MemoryInputResourceStore} (h : t.uploads = s.uploads)
    (event : Event) : Descends s t event := by
  intro id v hv
  rw [h] at hv
  exact .inl ⟨v, hv, Continues.refl v⟩

theorem stage_descends (host : InputHost) (s : MemoryInputResourceStore) (call : Stage) :
    Descends s (s.stage host call).state (.stage call) := by
  unfold stage
  split
  · exact Descends.of_uploads rfl _
  · split
    · exact Descends.of_uploads rfl _
    · split
      · exact Descends.of_uploads rfl _
      · split
        · exact Descends.of_uploads rfl _
        · intro id v hv
          rcases Dict.get?_set_eq_some.mp hv with ⟨rfl, rfl⟩ | ⟨-, hold⟩
          · exact .inr ⟨call, rfl, rfl, rfl⟩
          · exact .inl ⟨v, hold, Continues.refl v⟩

theorem setReference_descends {s : MemoryInputResourceStore} {uploadId : String} {upload : Upload}
    (hin : s.uploads.get? uploadId = some upload) {reference : InputResourceReference}
    (hprior : ∀ prior, upload.reference = some prior → prior = reference) (event : Event) :
    Descends s (setReference s uploadId upload reference) event := by
  intro id v hv
  rcases Dict.get?_set_eq_some.mp hv with ⟨rfl, rfl⟩ | ⟨-, hold⟩
  · refine .inl ⟨upload, hin, rfl, ?_⟩
    intro prior hsome
    rw [hprior prior hsome]
  · exact .inl ⟨v, hold, Continues.refl v⟩

/-- Finalizing leaves leases alone, and gives the reference of an upload to its owner in the
scope. -/
theorem finalize_spec (host : InputHost) (s : MemoryInputResourceStore) (call : Finalize) :
    Descends s (s.finalize host call).state (.finalize call) ∧
      (s.finalize host call).state.leases = s.leases ∧
      ∀ reference, (s.finalize host call).result = .ok reference → ∃ upload after,
        s.uploads.get? call.uploadId = some upload ∧ upload.scope = call.ctx.scopeKey ∧
          owner host call.ctx = .ok upload.ownerId ∧
          (s.finalize host call).state.uploads.get? call.uploadId = some after ∧
          after.reference = some reference := by
  have hsame := fun event => Descends.of_uploads (s := s) (t := s) rfl event
  unfold finalize
  cases hget : getUpload host s call.ctx call.uploadId with
  | error raised => exact ⟨hsame _, rfl, fun reference h => by cases h⟩
  | ok upload =>
      obtain ⟨hin, hscope, howner⟩ := getUpload_ok hget
      dsimp only
      split
      · exact ⟨hsame _, rfl, fun reference h => by cases h⟩
      · split
        · cases hreference : upload.reference with
          | none => exact ⟨hsame _, rfl, fun reference h => by cases h⟩
          | some prior =>
              dsimp only
              split
              · refine ⟨hsame _, rfl, fun reference h => ?_⟩
                obtain rfl := Except.ok.inj h
                exact ⟨upload, upload, hin, hscope, howner, hin, hreference⟩
              · exact ⟨hsame _, rfl, fun reference h => by cases h⟩
        · split
          · exact ⟨hsame _, rfl, fun reference h => by cases h⟩
          · cases hnew : newReference host upload call.now with
            | error raised => exact ⟨hsame _, rfl, fun reference h => by cases h⟩
            | ok made =>
                cases hreference : upload.reference with
                | none =>
                    refine ⟨setReference_descends hin ?_ _, rfl, fun reference h => ?_⟩
                    · intro prior hsome
                      rw [hreference] at hsome
                      cases hsome
                    · obtain rfl := Except.ok.inj h
                      exact ⟨upload, _, hin, hscope, howner, Dict.get?_set_self _ _ _, rfl⟩
                | some prior =>
                    dsimp only
                    by_cases hdiffers : prior ≠ made
                    · rw [if_pos hdiffers]
                      split
                      · exact ⟨hsame _, rfl, fun reference h => by cases h⟩
                      · refine ⟨hsame _, rfl, fun reference h => ?_⟩
                        obtain rfl := Except.ok.inj h
                        exact ⟨upload, upload, hin, hscope, howner, hin, hreference⟩
                    · rw [if_neg hdiffers]
                      refine ⟨setReference_descends hin ?_ _, rfl, fun reference h => ?_⟩
                      · intro prior' hsome
                        rw [hreference] at hsome
                        obtain rfl := Option.some.inj hsome
                        exact not_not.mp hdiffers
                      · obtain rfl := Except.ok.inj h
                        exact ⟨upload, _, hin, hscope, howner, Dict.get?_set_self _ _ _, rfl⟩

theorem abort_spec (host : InputHost) (s : MemoryInputResourceStore) (call : Abort) :
    Descends s (s.abort host call).state (.abort call) ∧
      (s.abort host call).state.leases = s.leases := by
  unfold abort
  split
  · exact ⟨Descends.of_uploads rfl _, rfl⟩
  · split
    · exact ⟨Descends.of_uploads rfl _, rfl⟩
    · refine ⟨?_, rfl⟩
      intro id v hv
      have hv : (s.uploads.erase call.uploadId).get? id = some v := hv
      rw [Dict.get?_erase] at hv
      split at hv
      · cases hv
      · exact .inl ⟨v, hv, Continues.refl v⟩

theorem stage_leases (host : InputHost) (s : MemoryInputResourceStore) (call : Stage) :
    (s.stage host call).state.leases = s.leases := by
  unfold stage
  split
  · rfl
  · split
    · rfl
    · split
      · rfl
      · split
        · rfl
        · rfl

theorem cleanup_descends (host : InputHost) (s : MemoryInputResourceStore) (call : Cleanup) :
    Descends s (s.cleanup host call).state (.cleanup call) := by
  obtain ⟨selected, t, hprunes, hstate, -⟩ := cleanup_cases host s call
  rw [hstate]
  intro id v hv
  rw [deletes_uploads, hprunes.uploads] at hv
  split at hv
  · cases hv
  · exact .inl ⟨v, hv, Continues.refl v⟩

theorem next_descends (host : InputHost) {s : MemoryInputResourceStore} (hkeyed : Keyed s)
    (event : Event) : Descends s (next host s event) event := by
  cases event with
  | stage call => exact stage_descends host s call
  | finalize call => exact (finalize_spec host s call).1
  | abort call => exact (abort_spec host s call).1
  | read call => exact Descends.of_uploads (read_spec host s call).1.uploads _
  | readLeased call => exact Descends.of_uploads (readLeased_spec host s call).1.uploads _
  | verifyReference call =>
      exact Descends.of_uploads (verifyReference_prunes host s call).uploads _
  | acquireLeases call =>
      rcases acquireLeases_cases host hkeyed call with
        ⟨-, hprunes⟩ | ⟨-, -, hstate⟩ | ⟨-, -, prepared, t, hprunes, -, -, hstate⟩
      · exact Descends.of_uploads hprunes.uploads _
      · exact Descends.of_uploads (congrArg uploads hstate) _
      · refine Descends.of_uploads ?_ _
        show (s.acquireLeases host call).state.uploads = s.uploads
        rw [hstate, grants_uploads, hprunes.uploads]
  | releaseLease call =>
      rcases releaseLease_cases host s call with ⟨-, hsame⟩ | ⟨own, -, huploads, -⟩
      · exact Descends.of_uploads (congrArg uploads hsame) _
      · exact Descends.of_uploads huploads _
  | cleanup call => exact cleanup_descends host s call

/-! ## Worlds -/

/-- A lease that a call has granted on an upload. -/
structure Grant where
  key : LeaseKey
  leaseId : String
  retainUntil : Datetime

/-- A store with the grants that stand, the ids used and the last reading of the clock. -/
structure World where
  store : MemoryInputResourceStore
  clock : Datetime
  staged : List String
  held : List Grant

def Acquire.grants (call : Acquire) : List Grant :=
  call.references.map fun reference => ⟨call.keyOf reference, call.leaseId, call.retainUntil⟩

/-- The call releases the grant: it names the lease in its scope and owns the upload. -/
def Release.releases (host : InputHost) (call : Release) (s : MemoryInputResourceStore)
    (g : Grant) : Bool :=
  g.leaseId = call.leaseId && g.key.1 = call.ctx.scopeKey &&
    (s.uploads.get? g.key.2).any fun upload =>
      (owner host call.ctx).toOption = some upload.ownerId

theorem releases_iff {host : InputHost} {call : Release} {own : String}
    (howner : owner host call.ctx = .ok own) (s : MemoryInputResourceStore) (g : Grant) :
    call.releases host s g = true ↔ g.leaseId = call.leaseId ∧ g.key.1 = call.ctx.scopeKey ∧
      (s.uploads.get? g.key.2).any (fun upload => upload.ownerId = own) = true := by
  unfold Release.releases
  rw [howner, Bool.and_eq_true, Bool.and_eq_true, decide_eq_true_eq, decide_eq_true_eq, and_assoc]
  cases s.uploads.get? g.key.2 with
  | none => simp
  | some upload => simp [Except.toOption, eq_comm]

theorem releases_of_none {host : InputHost} {call : Release}
    (hnone : (owner host call.ctx).toOption = none) (s : MemoryInputResourceStore) (g : Grant) :
    call.releases host s g = false := by
  unfold Release.releases
  rw [hnone]
  cases s.uploads.get? g.key.2 with
  | none => simp
  | some upload => simp

/-- The grants that stand after a call. -/
def heldAfter (host : InputHost) (w : World) : Event → List Grant
  | .acquireLeases call =>
      match (w.store.acquireLeases host call).result with
      | .ok () => w.held ++ call.grants
      | .error _ => w.held
  | .releaseLease call => w.held.filter fun g => !call.releases host w.store g
  | _ => w.held

theorem heldAfter_ok {host : InputHost} {w : World} {call : Acquire}
    (h : (w.store.acquireLeases host call).result = .ok ()) :
    heldAfter host w (.acquireLeases call) = w.held ++ call.grants := by
  unfold heldAfter
  dsimp only
  rw [h]

theorem heldAfter_error {host : InputHost} {w : World} {call : Acquire} {raised : PyError}
    (h : (w.store.acquireLeases host call).result = .error raised) :
    heldAfter host w (.acquireLeases call) = w.held := by
  unfold heldAfter
  dsimp only
  rw [h]

def World.next (host : InputHost) (w : World) (event : Event) : World where
  store := MemoryInputResourceStore.next host w.store event
  clock := event.readings.getLast?.getD w.clock
  staged := match event with
    | .stage call => call.freshId :: w.staged
    | _ => w.staged
  held := heldAfter host w event

/-- The clock does not go back, and a staged upload gets an id that has not been used. -/
def Admissible (w : World) (event : Event) : Prop :=
  (w.clock :: event.readings).Pairwise (· ≤ ·) ∧
    match event with
    | .stage call => call.freshId ∉ w.staged
    | _ => True

/-- A lease that is acquired again within the second of its expiry keeps to its notation: both
times have a fraction of a second or none has. -/
def SameNotation (s : MemoryInputResourceStore) : Event → Prop
  | .acquireLeases call => ∀ reference ∈ call.references, ∀ prior,
      s.expiryOf (call.keyOf reference) call.leaseId = some prior →
        prior.time.stamp.seconds = call.retainUntil.stamp.seconds →
          (prior.time.stamp.microsecond = 0 ↔ call.retainUntil.stamp.microsecond = 0)
  | _ => True

theorem Admissible.clock_le {host : InputHost} {w : World} {event : Event}
    (h : Admissible w event) : w.clock ≤ (w.next host event).clock := by
  obtain ⟨hpairwise, -⟩ := h
  show w.clock ≤ event.readings.getLast?.getD w.clock
  cases hlast : event.readings.getLast? with
  | none => exact le_rfl
  | some last => exact List.rel_of_pairwise_cons hpairwise (List.mem_of_getLast? hlast)

/-! ## Invariants of worlds -/

/-- Uploads stand under used ids of their own, and every lease was granted. -/
structure Sound (w : World) : Prop where
  keyed : Keyed w.store
  staged : ∀ id upload, w.store.uploads.get? id = some upload → id ∈ w.staged
  granted : ∀ key leaseId e, w.store.expiryOf key leaseId = some e → ∃ g ∈ w.held,
    g.key = key ∧ g.leaseId = leaseId ∧ g.retainUntil = e.time

/-- Every grant is past or backed by a lease that lasts at least as long. -/
def Backed (w : World) : Prop :=
  ∀ g ∈ w.held, g.retainUntil ≤ w.clock ∨
    ∃ e, w.store.expiryOf g.key g.leaseId = some e ∧ g.retainUntil ≤ e.time

theorem sound_uploads {host : InputHost} {w : World} (h : Sound w) (event : Event) :
    Keyed (w.next host event).store ∧ ∀ id upload,
      (w.next host event).store.uploads.get? id = some upload →
        id ∈ (w.next host event).staged := by
  have hdescends := next_descends host h.keyed event
  constructor
  · intro id v hv
    rcases hdescends id v hv with ⟨u, hu, hcontinues⟩ | ⟨call, -, -, hid⟩
    · rw [hcontinues.same]
      exact h.keyed id u hu
    · exact hid
  · intro id v hv
    rcases hdescends id v hv with ⟨u, hu, -⟩ | ⟨call, hevent, hid, -⟩
    · have hin := h.staged id u hu
      unfold World.next
      cases event with
      | stage call => exact List.mem_cons_of_mem _ hin
      | _ => exact hin
    · subst hevent
      rw [← hid]
      exact List.mem_cons_self

/-- The leases after a step were there before, or the step acquired them as they were granted. -/
theorem granted_next {host : InputHost} {w : World} (h : Sound w) (event : Event)
    {key : LeaseKey} {leaseId : String} {e : IsoStamp}
    (he : (w.next host event).store.expiryOf key leaseId = some e) :
    ∃ g ∈ (w.next host event).held, g.key = key ∧ g.leaseId = leaseId ∧ g.retainUntil = e.time := by
  have hsame : ∀ t : MemoryInputResourceStore, t.leases = w.store.leases →
      t.expiryOf key leaseId = some e → ∃ g ∈ w.held,
        g.key = key ∧ g.leaseId = leaseId ∧ g.retainUntil = e.time := by
    intro t hleases ht
    unfold expiryOf leasesOf at ht
    rw [hleases] at ht
    exact h.granted key leaseId e ht
  cases event with
  | stage call => exact hsame _ (stage_leases host w.store call) he
  | finalize call => exact hsame _ (finalize_spec host w.store call).2.1 he
  | abort call => exact hsame _ (abort_spec host w.store call).2 he
  | read call => exact h.granted _ _ _ ((read_spec host w.store call).1.kept _ _ _ he)
  | readLeased call => exact h.granted _ _ _ ((readLeased_spec host w.store call).1.kept _ _ _ he)
  | verifyReference call =>
      exact h.granted _ _ _ ((verifyReference_prunes host w.store call).kept _ _ _ he)
  | releaseLease call =>
      have he : (w.store.releaseLease host call).state.expiryOf key leaseId = some e := he
      rcases releaseLease_cases host w.store call with ⟨hnone, hstate⟩ | ⟨own, howner, -, hiff⟩
      · rw [hstate] at he
        obtain ⟨g, hg, hrest⟩ := h.granted key leaseId e he
        refine ⟨g, List.mem_filter.mpr ⟨hg, ?_⟩, hrest⟩
        rw [releases_of_none hnone, Bool.not_false]
      · obtain ⟨hold, hnot⟩ := (hiff key leaseId e).mp he
        obtain ⟨g, hg, rfl, rfl, htime⟩ := h.granted key leaseId e hold
        refine ⟨g, List.mem_filter.mpr ⟨hg, ?_⟩, rfl, rfl, htime⟩
        rw [Bool.not_eq_true', Bool.eq_false_iff]
        intro hreleases
        exact hnot ((releases_iff howner w.store g).mp hreleases)
  | cleanup call =>
      obtain ⟨selected, t, hprunes, hstate, -⟩ := cleanup_cases host w.store call
      have he : (w.store.cleanup host call).state.expiryOf key leaseId = some e := he
      rw [hstate, deletes_expiryOf] at he
      split at he
      · cases he
      · exact h.granted _ _ _ (hprunes.kept _ _ _ he)
  | acquireLeases call =>
      have he : (w.store.acquireLeases host call).state.expiryOf key leaseId = some e := he
      show ∃ g ∈ heldAfter host w (.acquireLeases call), _
      rcases acquireLeases_cases host h.keyed call with
        ⟨hraised, hprunes⟩ | ⟨hok, -, hstate⟩ | ⟨hok, -, prepared, t, hprunes, hkeys, hprior, hstate⟩
      · obtain ⟨g, hg, hrest⟩ := h.granted _ _ _ (hprunes.kept _ _ _ he)
        cases hresult : (w.store.acquireLeases host call).result with
        | ok done => exact absurd hresult hraised
        | error raised =>
            rw [heldAfter_error hresult]
            exact ⟨g, hg, hrest⟩
      · rw [hstate] at he
        obtain ⟨g, hg, hrest⟩ := h.granted _ _ _ he
        rw [heldAfter_ok hok]
        exact ⟨g, List.mem_append_left _ hg, hrest⟩
      · rw [heldAfter_ok hok]
        rw [hstate] at he
        rcases grants_expiryOf call key leaseId prepared t with
          ⟨hsame, -⟩ | ⟨rfl, prior, hentry, hset⟩
        · rw [hsame] at he
          obtain ⟨g, hg, hrest⟩ := h.granted _ _ _ (hprunes.kept _ _ _ he)
          exact ⟨g, List.mem_append_left _ hg, hrest⟩
        · rw [hset] at he
          obtain rfl := Option.some.inj he
          rcases expiry_cases call prior with hnew | hold
          · -- The text written is the one asked for.
            have hkey : key ∈ call.references.map call.keyOf := by
              rw [← hkeys]
              exact List.mem_map_of_mem hentry
            obtain ⟨reference, hreference, rfl⟩ := List.mem_map.mp hkey
            refine ⟨⟨call.keyOf reference, call.leaseId, call.retainUntil⟩,
              List.mem_append_right _ (List.mem_map_of_mem hreference), rfl, rfl, ?_⟩
            rw [hnew, time_iso]
          · -- The text written is the one that stood there.
            obtain ⟨g, hg, hrest⟩ := h.granted _ _ _ ((hprior _ hentry).1 _ hold)
            exact ⟨g, List.mem_append_left _ hg, hrest⟩

theorem Sound.next {host : InputHost} {w : World} (h : Sound w) (event : Event) :
    Sound (w.next host event) := by
  obtain ⟨hkeyed, hstaged⟩ := sound_uploads h event
  exact ⟨hkeyed, hstaged, fun key leaseId e he => granted_next h event he⟩

theorem Backed.of_prunes {w : World} (h : Backed w) {t : MemoryInputResourceStore}
    {now clock : Datetime} (hprunes : Prunes w.store t now) (hclock : w.clock ≤ clock)
    (hnow : now ≤ clock) {g : Grant} (hg : g ∈ w.held) :
    g.retainUntil ≤ clock ∨ ∃ e, t.expiryOf g.key g.leaseId = some e ∧ g.retainUntil ≤ e.time := by
  rcases h g hg with hpast | ⟨e, he, hlasts⟩
  · exact .inl (hpast.trans hclock)
  · rcases hprunes.gone _ _ _ he with hthere | hgone
    · exact .inr ⟨e, hthere, hlasts⟩
    · exact .inl (hlasts.trans (hgone.trans hnow))

/-- What a call writes under one of its keys: the expiry asked for, or the one that was there. -/
theorem acquired_expiry {host : InputHost} {s : MemoryInputResourceStore} (hkeyed : Keyed s)
    {call : Acquire} (hnoted : SameNotation s (.acquireLeases call))
    (hok : (s.acquireLeases host call).result = .ok ())
    {reference : InputResourceReference} (hreference : reference ∈ call.references) :
    ∃ e', (s.acquireLeases host call).state.expiryOf (call.keyOf reference) call.leaseId =
        some e' ∧ call.retainUntil ≤ e'.time ∧
      ∀ e, s.expiryOf (call.keyOf reference) call.leaseId = some e →
        e.time ≤ e'.time ∨ e.time ≤ call.now' := by
  rcases acquireLeases_cases host hkeyed call with
    ⟨hraised, -⟩ | ⟨-, hempty, -⟩ | ⟨-, -, prepared, t, hprunes, hkeys, hprior, hstate⟩
  · exact absurd hok hraised
  · rw [hempty] at hreference
    cases hreference
  · have hkey : call.keyOf reference ∈ prepared.map Prod.fst := by
      rw [hkeys]
      exact List.mem_map_of_mem hreference
    rw [hstate]
    rcases grants_expiryOf call (call.keyOf reference) call.leaseId prepared t with
      ⟨-, hother⟩ | ⟨-, prior, hentry, hset⟩
    · rcases hother with hlease | hnot
      · exact absurd rfl hlease
      · exact absurd hkey hnot
    · obtain ⟨hsome, hnone⟩ := hprior _ hentry
      obtain ⟨hasked, hbefore⟩ := expiry_ge fun p hp hsecond =>
        hnoted reference hreference p (hsome p hp) hsecond
      refine ⟨_, hset, hasked, ?_⟩
      intro e he
      cases prior with
      | none => exact .inr (hnone rfl e he)
      | some p =>
          have hp := hsome p rfl
          dsimp only at hp
          rw [he] at hp
          obtain rfl := Option.some.inj hp
          exact .inl (hbefore e rfl)

theorem Backed.next {host : InputHost} {w : World} (hsound : Sound w) (h : Backed w)
    {event : Event} (hadmissible : Admissible w event) (hnoted : SameNotation w.store event) :
    Backed (w.next host event) := by
  have hclock : w.clock ≤ (w.next host event).clock := hadmissible.clock_le
  have hsame : ∀ t : MemoryInputResourceStore, t.leases = w.store.leases → ∀ g ∈ w.held,
      g.retainUntil ≤ (w.next host event).clock ∨
        ∃ e, t.expiryOf g.key g.leaseId = some e ∧ g.retainUntil ≤ e.time := by
    intro t hleases g hg
    rcases h g hg with hpast | ⟨e, he, hlasts⟩
    · exact .inl (hpast.trans hclock)
    · refine .inr ⟨e, ?_, hlasts⟩
      unfold expiryOf leasesOf
      rw [hleases]
      exact he
  cases event with
  | stage call => exact hsame _ (stage_leases host w.store call)
  | finalize call => exact hsame _ (finalize_spec host w.store call).2.1
  | abort call => exact hsame _ (abort_spec host w.store call).2
  | read call =>
      exact fun g hg => h.of_prunes (read_spec host w.store call).1 hclock le_rfl hg
  | readLeased call =>
      exact fun g hg => h.of_prunes (readLeased_spec host w.store call).1 hclock le_rfl hg
  | verifyReference call =>
      exact fun g hg => h.of_prunes (verifyReference_prunes host w.store call) hclock le_rfl hg
  | releaseLease call =>
      intro g hg
      obtain ⟨hg, hkeeps⟩ := List.mem_filter.mp hg
      show _ ∨ ∃ e, (w.store.releaseLease host call).state.expiryOf g.key g.leaseId = some e ∧ _
      rcases releaseLease_cases host w.store call with ⟨-, hstate⟩ | ⟨own, howner, -, hiff⟩
      · rw [hstate]
        exact hsame _ rfl g hg
      · rcases h g hg with hpast | ⟨e, he, hlasts⟩
        · exact .inl (hpast.trans hclock)
        · refine .inr ⟨e, (hiff _ _ _).mpr ⟨he, ?_⟩, hlasts⟩
          intro hreleases
          rw [(releases_iff howner w.store g).mpr hreleases] at hkeeps
          cases hkeeps
  | cleanup call =>
      intro g hg
      obtain ⟨selected, t, hprunes, hstate, hselected⟩ := cleanup_cases host w.store call
      show _ ∨ ∃ e, (w.store.cleanup host call).state.expiryOf g.key g.leaseId = some e ∧ _
      rw [hstate]
      rcases h g hg with hpast | ⟨e, he, hlasts⟩
      · exact .inl (hpast.trans hclock)
      · by_cases hdeleted : g.key ∈ selected.map Upload.key
        · obtain ⟨upload, hupload, hkey⟩ := List.mem_map.mp hdeleted
          rw [← hkey] at he
          exact .inl (hlasts.trans ((hselected upload hupload).2.2 _ _ he))
        · rcases hprunes.gone _ _ _ he with hthere | hgone
          · refine .inr ⟨e, ?_, hlasts⟩
            rw [deletes_expiryOf, if_neg hdeleted]
            exact hthere
          · exact .inl (hlasts.trans hgone)
  | acquireLeases call =>
      show ∀ g ∈ heldAfter host w (.acquireLeases call), _
      cases hresult : (w.store.acquireLeases host call).result with
      | error raised =>
          rw [heldAfter_error hresult]
          rcases acquireLeases_cases host hsound.keyed call with
            ⟨-, hprunes⟩ | ⟨hok, -⟩ | ⟨hok, -⟩
          · exact fun g hg => h.of_prunes hprunes hclock le_rfl hg
          · rw [hresult] at hok
            cases hok
          · rw [hresult] at hok
            cases hok
      | ok done =>
          rw [heldAfter_ok hresult]
          intro g hg
          show _ ∨ ∃ e,
            (w.store.acquireLeases host call).state.expiryOf g.key g.leaseId = some e ∧ _
          rcases List.mem_append.mp hg with hg | hg
          · rcases acquireLeases_cases host hsound.keyed call with
              ⟨-, hprunes⟩ | ⟨-, -, hstate⟩ | ⟨-, -, prepared, t, hprunes, hkeys, hprior, hstate⟩
            · exact h.of_prunes hprunes hclock le_rfl hg
            · rw [hstate]
              exact hsame _ rfl g hg
            · rcases h g hg with hpast | ⟨e, he, hlasts⟩
              · exact .inl (hpast.trans hclock)
              · rcases grants_expiryOf call g.key g.leaseId prepared t with
                  ⟨hunchanged, -⟩ | ⟨hlease, prior, hentry, -⟩
                · rw [hstate, hunchanged]
                  exact h.of_prunes hprunes hclock le_rfl hg
                · -- The grant is one that this call writes again.
                  have hkey : g.key ∈ call.references.map call.keyOf := by
                    rw [← hkeys]
                    exact List.mem_map_of_mem hentry
                  obtain ⟨reference, hreference, hkey⟩ := List.mem_map.mp hkey
                  obtain ⟨e', he', -, hbefore⟩ :=
                    acquired_expiry hsound.keyed hnoted hresult hreference
                  rw [← hkey, hlease] at he
                  rw [← hkey, hlease]
                  rcases hbefore e he with hlonger | hpast
                  · exact .inr ⟨e', he', hlasts.trans hlonger⟩
                  · exact .inl (hlasts.trans hpast)
          · obtain ⟨reference, hreference, rfl⟩ := List.mem_map.mp hg
            obtain ⟨e', he', hasked, -⟩ :=
              acquired_expiry hsound.keyed hnoted hresult hreference
            exact .inr ⟨e', he', hasked⟩

/-! ## Runs -/

def start (maxUploadBytes : Nat) (clock : Datetime) : World :=
  ⟨init maxUploadBytes, clock, [], []⟩

theorem expiryOf_init (maxUploadBytes : Nat) (key : LeaseKey) (leaseId : String) :
    (init maxUploadBytes).expiryOf key leaseId = none := rfl

theorem sound_start (maxUploadBytes : Nat) (clock : Datetime) :
    Sound (start maxUploadBytes clock) := by
  refine ⟨?_, ?_, ?_⟩
  · intro id upload hupload
    cases hupload
  · intro id upload hupload
    cases hupload
  · intro key leaseId e he
    cases (expiryOf_init maxUploadBytes key leaseId).symm.trans he

theorem sound_run (host : InputHost) (maxUploadBytes : Nat) (clock : Datetime)
    (events : List Event) :
    Sound (Runs.run (World.next host) (start maxUploadBytes clock) events) :=
  Runs.invariant (I := Sound) (fun _ event h _ => h.next event) (sound_start _ _)
    (Runs.guarded_true _ events)

theorem backed_run {host : InputHost} {maxUploadBytes : Nat} {clock : Datetime}
    {events : List Event}
    (hadmissible : Runs.Guarded (World.next host) Admissible (start maxUploadBytes clock) events)
    (hnoted : Runs.Guarded (World.next host) (fun w event => SameNotation w.store event)
      (start maxUploadBytes clock) events) :
    Backed (Runs.run (World.next host) (start maxUploadBytes clock) events) := by
  have hboth : Sound (Runs.run (World.next host) (start maxUploadBytes clock) events) ∧
      Backed (Runs.run (World.next host) (start maxUploadBytes clock) events) :=
    Runs.invariant (I := fun w => Sound w ∧ Backed w)
      (fun _ event h hguard => ⟨h.1.next event, Backed.next h.1 h.2 hguard.1 hguard.2⟩)
      ⟨sound_start _ _, fun g hg => absurd hg List.not_mem_nil⟩ (hadmissible.and hnoted)
  exact hboth.2

/-- Along admissible steps an upload stays what it was as long as it is there. -/
theorem continues_run {host : InputHost} {w : World} {events : List Event}
    (hsound : Sound w) (hadmissible : Runs.Guarded (World.next host) Admissible w events)
    {id : String} {u : Upload} (hu : w.store.uploads.get? id = some u) {v : Upload}
    (hv : (Runs.run (World.next host) w events).store.uploads.get? id = some v) :
    Continues u v := by
  have hstep : ∀ (w : World) (event : Event),
      (Sound w ∧ id ∈ w.staged ∧
        ∀ v, w.store.uploads.get? id = some v → Continues u v) → Admissible w event →
      Sound (w.next host event) ∧ id ∈ (w.next host event).staged ∧
        ∀ v, (w.next host event).store.uploads.get? id = some v → Continues u v := by
    rintro w event ⟨hsound, hin, hall⟩ hguard
    refine ⟨hsound.next event, ?_, ?_⟩
    · unfold World.next
      cases event with
      | stage call => exact List.mem_cons_of_mem _ hin
      | _ => exact hin
    · intro v hv
      rcases next_descends host hsound.keyed event id v hv with
        ⟨before, hbefore, hcontinues⟩ | ⟨call, rfl, rfl, -⟩
      · exact (hall before hbefore).trans hcontinues
      · exact absurd hin hguard.2
  have hrun := Runs.invariant (I := fun w => Sound w ∧ id ∈ w.staged ∧
      ∀ v, w.store.uploads.get? id = some v → Continues u v) hstep
    ⟨hsound, hsound.staged id u hu, fun v hv => by
      rw [hu] at hv
      obtain rfl := Option.some.inj hv
      exact Continues.refl u⟩ hadmissible
  exact hrun.2.2 v hv

/-- The upload is finalized as the reference, it is one of the scope, and the caller owns it. -/
def OwnedBy (host : InputHost) (upload : Upload) (ctx : ControlPlaneContext) : Prop :=
  upload.scope = ctx.scopeKey ∧ owner host ctx = .ok upload.ownerId

/-- In every admissible run finalized uploads do not change, and their bytes and references go to
the owner in the scope or to a holder of a live grant; a call that raises acquires nothing. A lease
that is acquired again keeps to its notation and asks for more than the present does not become
shorter; and where all calls keep to the notation, cleaning up deletes no upload before its expiry
nor under a grant that is still ahead. -/
theorem inputs_retained (host : InputHost) (maxUploadBytes : Nat) (clock : Datetime)
    (events : List Event)
    (hadmissible : Runs.Guarded (World.next host) Admissible (start maxUploadBytes clock) events) :
    (∀ before after, events = before ++ after → ∀ id u reference,
      (Runs.run (World.next host) (start maxUploadBytes clock) before).store.uploads.get? id =
        some u → u.reference = some reference → ∀ v,
      (Runs.run (World.next host) (start maxUploadBytes clock) events).store.uploads.get? id =
        some v → v = u) ∧
    (∀ w, w = Runs.run (World.next host) (start maxUploadBytes clock) events →
      (∀ call content, (w.store.read host call).result = .ok content → ∃ upload,
        w.store.Holds call.reference content upload ∧ OwnedBy host upload call.ctx) ∧
      (∀ call content, (w.store.readLeased host call).result = .ok content → ∃ upload,
        w.store.Holds call.reference content upload ∧ upload.scope = call.ctx.scopeKey ∧
          ∃ g ∈ w.held, g.key = upload.key ∧ g.leaseId = call.leaseId ∧
            call.now < g.retainUntil) ∧
      (∀ call reference, (w.store.finalize host call).result = .ok reference → ∃ upload after,
        w.store.uploads.get? call.uploadId = some upload ∧ OwnedBy host upload call.ctx ∧
          (w.store.finalize host call).state.uploads.get? call.uploadId = some after ∧
          after.reference = some reference) ∧
      (∀ call raised, (w.store.acquireLeases host call).result = .error raised →
        ∀ key leaseId e, (w.store.acquireLeases host call).state.expiryOf key leaseId = some e →
          w.store.expiryOf key leaseId = some e) ∧
      (∀ call, SameNotation w.store (.acquireLeases call) → call.now' < call.retainUntil →
        (w.store.acquireLeases host call).result = .ok () → ∀ reference ∈ call.references, ∀ e,
          w.store.expiryOf (call.keyOf reference) call.leaseId = some e → ∃ e',
            (w.store.acquireLeases host call).state.expiryOf (call.keyOf reference) call.leaseId =
              some e' ∧ e.time ≤ e'.time) ∧
      (Runs.Guarded (World.next host) (fun w event => SameNotation w.store event)
          (start maxUploadBytes clock) events →
        ∀ call, Admissible w (.cleanup call) → ∀ id u, w.store.uploads.get? id = some u →
          (w.store.cleanup host call).state.uploads.get? id = none →
            u.expiresAt.time ≤ call.now ∧
              ∀ g ∈ w.held, g.key = u.key → g.retainUntil ≤ call.now)) := by
  constructor
  · rintro before after rfl id u reference hu hfinal v hv
    rw [Runs.run_append] at hv
    exact (continues_run (sound_run host maxUploadBytes clock before) hadmissible.right hu hv).eq
      hfinal
  · rintro w rfl
    have hsound := sound_run host maxUploadBytes clock events
    refine ⟨?_, ?_, ?_, ?_, ?_, ?_⟩
    · intro call content hread
      obtain ⟨upload, hholds, hscope, howner⟩ := (read_spec host _ call).2 content hread
      exact ⟨upload, hholds, hscope, howner⟩
    · intro call content hread
      obtain ⟨upload, e, hholds, hscope, he, hlive⟩ := (readLeased_spec host _ call).2 content hread
      obtain ⟨g, hg, hkey, hlease, htime⟩ := hsound.granted _ _ _ he
      exact ⟨upload, hholds, hscope, g, hg, hkey, hlease, htime.symm ▸ hlive⟩
    · intro call reference hfinalize
      obtain ⟨upload, after, hin, hscope, howner, hafter, hreference⟩ :=
        (finalize_spec host _ call).2.2 reference hfinalize
      exact ⟨upload, after, hin, ⟨hscope, howner⟩, hafter, hreference⟩
    · intro call raised hraised key leaseId e he
      rcases acquireLeases_cases host hsound.keyed call with ⟨-, hprunes⟩ | ⟨hok, -⟩ | ⟨hok, -⟩
      · exact hprunes.kept _ _ _ he
      · rw [hraised] at hok
        cases hok
      · rw [hraised] at hok
        cases hok
    · intro call hnoted hahead hok reference hreference e he
      obtain ⟨e', he', hasked, hbefore⟩ :=
        acquired_expiry hsound.keyed hnoted hok hreference
      refine ⟨e', he', ?_⟩
      rcases hbefore e he with hlonger | hpast
      · exact hlonger
      · exact hpast.trans (hahead.le.trans hasked)
    · intro hnoted call hcleanup id u hu hgone
      have hbacked := backed_run hadmissible hnoted
      have hstep := @Admissible.clock_le host _ _ hcleanup
      have hclock : (Runs.run (World.next host) (start maxUploadBytes clock) events).clock ≤
          call.now := hstep
      obtain ⟨selected, t, hprunes, hstate, hselected⟩ := cleanup_cases host _ call
      rw [hstate, deletes_uploads, hprunes.uploads] at hgone
      split at hgone
      · rename_i hdeleted
        obtain ⟨upload, hupload, hid⟩ := List.mem_map.mp hdeleted
        obtain ⟨⟨id', hin⟩, hexpired, hleases⟩ := hselected upload hupload
        have hsame : upload = u := by
          rw [← hsound.keyed id' upload hin, hid, hu] at hin
          exact (Option.some.inj hin).symm
        subst hsame
        refine ⟨hexpired, ?_⟩
        intro g hg hkey
        rcases hbacked g hg with hpast | ⟨e, he, hlasts⟩
        · exact hpast.trans hclock
        · rw [hkey] at he
          exact hlasts.trans (hleases _ _ he)
      · rw [hu] at hgone
        cases hgone

/-! ## A lease that becomes shorter -/

def keeper : ControlPlaneContext where
  principal := ⟨"alice", none, .human⟩
  tenant := ⟨"acme"⟩
  workspace := ⟨"acme", "main"⟩
  environment := ⟨"prod"⟩
  securityDomain := ⟨"corp"⟩
  resourceOwnerId := some "alice"
  workspaceTenant := workspace_ofTenant "acme" "main"
  ownerNonEmpty := rfl

def emptyDigest : String := "e3b0c44298fc1c149afbf4c8996fb92427ae41e4649b934ca495991b7852b855"

/-- The digest of no bytes, on which the sample relies. -/
def emptyHost : InputHost where
  sha256 := fun _ => emptyDigest
  textSha256 := fun text => text
  isHexNumeral := fun _ => true
  lower := fun text => text

theorem midnight_valid : (⟨2024, 1, 1, 0, 0, 0, 0⟩ : IsoText.Stamp).Valid := by decide

def midnight : Datetime := ⟨⟨2024, 1, 1, 0, 0, 0, 0⟩, midnight_valid⟩

def tomorrow : Datetime := ⟨⟨2024, 1, 2, 0, 0, 0, 0⟩, by decide⟩

/-- One o'clock, and half a second past it. -/
def one : Datetime := ⟨⟨2024, 1, 1, 1, 0, 0, 0⟩, by decide⟩

def halfPast : Datetime := ⟨⟨2024, 1, 1, 1, 0, 0, 500000⟩, by decide⟩

def resourceId : String := "0123456789abcdef0123456789abcdef"

def keptReference : InputResourceReference :=
  ⟨resourceId, "sha256:" ++ emptyDigest, emptyDigest, 0, "acme", "main", "alice", "text/csv", "csv",
    midnight.text "Z"⟩

def leasing (retainUntil : Datetime) : Acquire :=
  ⟨keeper, [keptReference], "run", retainUntil, midnight, midnight⟩

/-- An input is staged, finalized and leased until the time. -/
def retaining (retainUntil : Datetime) : List Event :=
  [.stage ⟨keeper, [], "text/csv", "csv", tomorrow, midnight, resourceId⟩,
    .finalize ⟨keeper, resourceId, emptyDigest, 0, midnight⟩,
    .acquireLeases (leasing retainUntil)]

def retained (retainUntil : Datetime) : World :=
  Runs.run (World.next emptyHost) (start 1024 midnight) (retaining retainUntil)

/-- Acquiring a lease again with an earlier time moves its expiry back. -/
theorem lease_shortened :
    ((retained halfPast).store.expiryOf ((leasing one).keyOf keptReference) "run").map
        IsoStamp.time = some halfPast ∧
    ((retained halfPast).store.acquireLeases emptyHost (leasing one)).result.toOption.isSome =
      true ∧
    (((retained halfPast).store.acquireLeases emptyHost (leasing one)).state.expiryOf
        ((leasing one).keyOf keptReference) "run").map IsoStamp.time = some one ∧
    one < halfPast := by
  decide

theorem retaining_admissible (retainUntil : Datetime) :
    Runs.Guarded (World.next emptyHost) Admissible (start 1024 midnight)
      (retaining retainUntil) := by
  have hone : [midnight, midnight].Pairwise (· ≤ ·) := by decide
  have htwo : [midnight, midnight, midnight].Pairwise (· ≤ ·) := by decide
  exact ⟨⟨hone, List.not_mem_nil⟩, ⟨hone, trivial⟩, ⟨htwo, trivial⟩, trivial⟩

/-- Acquiring a lease again with a later time keeps its expiry ahead. -/
theorem lease_prolonged : ∃ e',
    ((retained one).store.acquireLeases emptyHost (leasing tomorrow)).state.expiryOf
      ((leasing tomorrow).keyOf keptReference) "run" = some e' ∧ one ≤ e'.time := by
  have hprior : (retained one).store.expiryOf ((leasing tomorrow).keyOf keptReference) "run" =
      some (iso one) := by decide
  have hok : ((retained one).store.acquireLeases emptyHost (leasing tomorrow)).result =
      .ok () := by rfl
  refine ((inputs_retained emptyHost 1024 midnight (retaining one) (retaining_admissible one)).2 _
    rfl).2.2.2.2.1 (leasing tomorrow) ?_ (by decide) hok keptReference List.mem_cons_self
    (iso one) hprior
  intro reference hreference prior hfound hsecond
  obtain rfl := List.mem_singleton.mp hreference
  rw [show (leasing tomorrow).leaseId = "run" from rfl, show Runs.run (World.next emptyHost)
    (start 1024 midnight) (retaining one) = retained one from rfl, hprior] at hfound
  obtain rfl := Option.some.inj hfound
  exact absurd hsecond (by decide)

end MemoryInputResourceStore

end Etlantic.ControlPlane.Inputs
