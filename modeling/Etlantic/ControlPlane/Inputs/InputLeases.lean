import Etlantic.ControlPlane.Inputs.InputResources

/-!
# What the operations do to uploads and leases

Looking at leases drops some that have run out; acquiring writes the greater
text; releasing and deleting drop.  Each operation has one lemma here, in terms
of the expiry that is found under a key and a lease id.
-/

namespace Etlantic.ControlPlane.Inputs

open IsoText

namespace MemoryInputResourceStore

/-! ## Tables -/

theorem live_get? {table : Dict String IsoStamp} {current : Datetime} {leaseId : String}
    {e : IsoStamp} : (live table current).get? leaseId = some e ↔
      table.get? leaseId = some e ∧ current < e.time := by
  rw [← Dict.mem_entries_iff, ← Dict.mem_entries_iff]
  unfold live
  rw [List.mem_filter]
  simp

theorem get?_of_isEmpty {κ ν : Type} [DecidableEq κ] {d : Dict κ ν}
    (h : d.entries.isEmpty = true) (key : κ) : d.get? key = none := by
  unfold Dict.get?
  rw [List.isEmpty_iff.mp h]
  rfl

theorem expiryOf_set (s : MemoryInputResourceStore) (key key' : LeaseKey)
    (table : Dict String IsoStamp) (leaseId : String) :
    expiryOf { s with leases := s.leases.set key table } key' leaseId =
      if key = key' then table.get? leaseId else s.expiryOf key' leaseId := by
  unfold expiryOf leasesOf
  dsimp only
  rw [Dict.get?_set]
  split <;> rfl

theorem expiryOf_erase (s : MemoryInputResourceStore) (key key' : LeaseKey) (leaseId : String) :
    expiryOf { s with leases := s.leases.erase key } key' leaseId =
      if key = key' then none else s.expiryOf key' leaseId := by
  unfold expiryOf leasesOf
  dsimp only
  rw [Dict.get?_erase]
  split <;> rfl

/-- Writing a table, or dropping it where it is empty, is the same for every lease. -/
theorem expiryOf_table (s : MemoryInputResourceStore) (key key' : LeaseKey)
    (table : Dict String IsoStamp) (leaseId : String) :
    expiryOf (if table.entries.isEmpty then { s with leases := s.leases.erase key }
      else { s with leases := s.leases.set key table }) key' leaseId =
        if key = key' then table.get? leaseId else s.expiryOf key' leaseId := by
  split
  · rename_i hempty
    rw [expiryOf_erase, get?_of_isEmpty hempty]
  · exact expiryOf_set s key key' table leaseId

/-! ## Looking at leases -/

/-- Some leases that have run out are gone and nothing else has changed. -/
structure Prunes (s t : MemoryInputResourceStore) (now : Datetime) : Prop where
  uploads : t.uploads = s.uploads
  kept : ∀ key leaseId e, t.expiryOf key leaseId = some e → s.expiryOf key leaseId = some e
  gone : ∀ key leaseId e, s.expiryOf key leaseId = some e →
    t.expiryOf key leaseId = some e ∨ e.time ≤ now

theorem Prunes.refl (s : MemoryInputResourceStore) (now : Datetime) : Prunes s s now :=
  ⟨rfl, fun _ _ _ h => h, fun _ _ _ h => .inl h⟩

theorem Prunes.trans {s t u : MemoryInputResourceStore} {now : Datetime} (h : Prunes s t now)
    (h' : Prunes t u now) : Prunes s u now := by
  refine ⟨h'.uploads.trans h.uploads, fun key leaseId e he => h.kept _ _ _ (h'.kept _ _ _ he), ?_⟩
  intro key leaseId e he
  rcases h.gone key leaseId e he with hthere | hpast
  · exact h'.gone key leaseId e hthere
  · exact .inr hpast

theorem hasLiveLease_expiryOf (s : MemoryInputResourceStore) (upload : Upload)
    (current : Datetime) (key : LeaseKey) (leaseId : String) :
    (hasLiveLease s upload current).2.expiryOf key leaseId =
      if upload.key = key then (live (s.leasesOf upload.key) current).get? leaseId
      else s.expiryOf key leaseId := by
  have h := expiryOf_table s upload.key key (live (s.leasesOf upload.key) current) leaseId
  unfold hasLiveLease
  dsimp only
  split at h
  · rename_i hempty
    rw [if_pos hempty]
    exact h
  · rename_i hsome
    rw [if_neg hsome]
    exact h

theorem hasLiveLease_uploads (s : MemoryInputResourceStore) (upload : Upload)
    (current : Datetime) : (hasLiveLease s upload current).2.uploads = s.uploads := by
  unfold hasLiveLease
  dsimp only
  split <;> rfl

theorem hasLiveLease_prunes (s : MemoryInputResourceStore) (upload : Upload)
    (current : Datetime) : Prunes s (hasLiveLease s upload current).2 current := by
  refine ⟨hasLiveLease_uploads s upload current, ?_, ?_⟩
  · intro key leaseId e he
    rw [hasLiveLease_expiryOf] at he
    split at he
    · rename_i hkey
      rw [← hkey]
      exact (live_get?.mp he).1
    · exact he
  · intro key leaseId e he
    rw [hasLiveLease_expiryOf]
    split
    · rename_i hkey
      rcases lt_or_ge current e.time with hlive | hpast
      · rw [← hkey] at he
        exact .inl (live_get?.mpr ⟨he, hlive⟩)
      · exact .inr hpast
    · exact .inl he

/-- Without a live lease every lease of the upload has run out. -/
theorem past_of_not_live {s : MemoryInputResourceStore} {upload : Upload} {current : Datetime}
    (h : (hasLiveLease s upload current).1 = false) {leaseId : String} {e : IsoStamp}
    (he : s.expiryOf upload.key leaseId = some e) : e.time ≤ current := by
  by_contra hlater
  have hlive : (live (s.leasesOf upload.key) current).get? leaseId = some e :=
    live_get?.mpr ⟨he, not_le.mp hlater⟩
  unfold hasLiveLease at h
  dsimp only at h
  split at h
  · rename_i hempty
    rw [get?_of_isEmpty hempty] at hlive
    cases hlive
  · cases h

theorem lapsed_prunes (s : MemoryInputResourceStore) (upload : Upload) (now now' : Datetime) :
    Prunes s (lapsed s upload now now').2 now' := by
  unfold lapsed
  split
  · exact hasLiveLease_prunes s upload now'
  · exact Prunes.refl s now'

/-- An upload that has lapsed has expired, and so has each of its leases. -/
theorem past_of_lapsed {s : MemoryInputResourceStore} {upload : Upload} {now now' : Datetime}
    (h : (lapsed s upload now now').1 = true) : upload.expiresAt.time ≤ now ∧
      ∀ leaseId e, s.expiryOf upload.key leaseId = some e → e.time ≤ now' := by
  unfold lapsed at h
  split at h
  · rename_i hexpired
    refine ⟨hexpired, ?_⟩
    intro leaseId e he
    refine past_of_not_live ?_ he
    simpa using h
  · cases h

/-! ## Access -/

theorem getUpload_ok {host : InputHost} {s : MemoryInputResourceStore} {ctx : ControlPlaneContext}
    {uploadId : String} {upload : Upload} (h : getUpload host s ctx uploadId = .ok upload) :
    s.uploads.get? uploadId = some upload ∧ upload.scope = ctx.scopeKey ∧
      owner host ctx = .ok upload.ownerId := by
  unfold getUpload at h
  cases hget : s.uploads.get? uploadId with
  | none =>
      rw [hget] at h
      cases h
  | some found =>
      rw [hget] at h
      dsimp only at h
      split at h
      · cases h
      · rename_i hscope
        cases howner : owner host ctx with
        | error raised =>
            rw [howner] at h
            cases h
        | ok own =>
            rw [howner] at h
            dsimp only at h
            split at h
            · cases h
            · rename_i hown
              obtain rfl := Except.ok.inj h
              exact ⟨rfl, not_not.mp hscope, by rw [not_not.mp hown]⟩

theorem verifyOwned_ok {host : InputHost} {ctx : ControlPlaneContext} {upload : Upload}
    {reference : InputResourceReference} {allow : Bool}
    (h : verifyOwned host ctx upload reference allow = .ok ()) :
    upload.reference = some reference := by
  unfold verifyOwned at h
  split at h
  · cases h
  · split at h
    · rename_i hall
      exact hall.1
    · cases h

theorem checkedContent_ok {host : InputHost} {upload : Upload}
    {reference : InputResourceReference} {content : List UInt8}
    (h : checkedContent host upload reference = .ok content) : content = upload.content := by
  unfold checkedContent at h
  split at h
  · cases h
  · exact (Except.ok.inj h).symm

/-- The upload under the id is finalized as the reference, and its content is the one given. -/
def Holds (s : MemoryInputResourceStore) (reference : InputResourceReference)
    (content : List UInt8) (upload : Upload) : Prop :=
  s.uploads.get? reference.resourceId = some upload ∧ upload.reference = some reference ∧
    content = upload.content

/-- Reading prunes leases, and gives content to the owner in the scope. -/
theorem read_spec (host : InputHost) (s : MemoryInputResourceStore) (call : Read) :
    Prunes s (s.read host call).state call.now' ∧
      ∀ content, (s.read host call).result = .ok content → ∃ upload,
        s.Holds call.reference content upload ∧ upload.scope = call.ctx.scopeKey ∧
          owner host call.ctx = .ok upload.ownerId := by
  unfold read
  cases hget : getUpload host s call.ctx call.reference.resourceId with
  | error raised => exact ⟨Prunes.refl s _, fun content h => by cases h⟩
  | ok upload =>
      dsimp only
      cases hverify : verifyOwned host call.ctx upload call.reference false with
      | error raised => exact ⟨Prunes.refl s _, fun content h => by cases h⟩
      | ok done =>
          dsimp only
          obtain ⟨hin, hscope, howner⟩ := getUpload_ok hget
          have hprunes := lapsed_prunes s upload call.now call.now'
          rcases hlapsed : lapsed s upload call.now call.now' with ⟨gone, t⟩
          rw [hlapsed] at hprunes
          cases gone with
          | true => exact ⟨hprunes, fun content h => by cases h⟩
          | false =>
              refine ⟨hprunes, fun content h => ?_⟩
              exact ⟨upload, ⟨hin, verifyOwned_ok hverify, checkedContent_ok h⟩, hscope, howner⟩

/-- Reading under a lease prunes leases, and gives content in the scope under a live lease. -/
theorem readLeased_spec (host : InputHost) (s : MemoryInputResourceStore) (call : ReadLeased) :
    Prunes s (s.readLeased host call).state call.now ∧
      ∀ content, (s.readLeased host call).result = .ok content → ∃ upload e,
        s.Holds call.reference content upload ∧ upload.scope = call.ctx.scopeKey ∧
          s.expiryOf upload.key call.leaseId = some e ∧ call.now < e.time := by
  unfold readLeased
  split
  · exact ⟨Prunes.refl s _, fun content h => by cases h⟩
  · cases hget : s.uploads.get? call.reference.resourceId with
    | none => exact ⟨Prunes.refl s _, fun content h => by cases h⟩
    | some upload =>
        dsimp only
        split
        · exact ⟨Prunes.refl s _, fun content h => by cases h⟩
        · rename_i hscope
          cases hverify : verifyOwned host call.ctx upload call.reference true with
          | error raised => exact ⟨Prunes.refl s _, fun content h => by cases h⟩
          | ok done =>
              dsimp only
              have hprunes := hasLiveLease_prunes s upload call.now
              cases hlease : (s.leasesOf upload.key).get? call.leaseId with
              | none => exact ⟨hprunes, fun content h => by cases h⟩
              | some e =>
                  dsimp only
                  split
                  · exact ⟨hprunes, fun content h => by cases h⟩
                  · rename_i hlive
                    refine ⟨Prunes.refl s _, fun content h => ?_⟩
                    exact ⟨upload, e, ⟨hget, verifyOwned_ok hverify, checkedContent_ok h⟩,
                      not_not.mp hscope, hlease, not_le.mp hlive⟩

theorem verifyReference_prunes (host : InputHost) (s : MemoryInputResourceStore)
    (call : VerifyReference) : Prunes s (s.verifyReference host call).state call.now := by
  unfold verifyReference
  split
  · exact Prunes.refl s _
  · rename_i upload _
    split
    · exact Prunes.refl s _
    · have hprunes := lapsed_prunes s upload call.now call.now
      rcases hlapsed : lapsed s upload call.now call.now with ⟨gone, t⟩
      rw [hlapsed] at hprunes
      cases gone with
      | true => exact hprunes
      | false => exact hprunes

/-! ## Acquiring -/

/-- The expiry that a call writes is not before the prior one nor before the one asked for, where
texts of one second both have a fraction or both have none. -/
theorem expiry_ge {call : Acquire} {prior : Option IsoStamp}
    (h : ∀ p, prior = some p → p.time.stamp.seconds = call.retainUntil.stamp.seconds →
      (p.time.stamp.microsecond = 0 ↔ call.retainUntil.stamp.microsecond = 0)) :
    call.retainUntil ≤ (call.expiry prior).time ∧
      ∀ p, prior = some p → p.time ≤ (call.expiry prior).time := by
  cases prior with
  | none =>
      unfold Acquire.expiry
      dsimp only
      rw [time_iso]
      exact ⟨le_rfl, fun p hp => by cases hp⟩
  | some p =>
      have htext : p.text < (iso call.retainUntil).text ↔ p.time < call.retainUntil := by
        rw [← p.written]
        exact Datetime.text_lt_text (h p rfl)
      unfold Acquire.expiry IsoStamp.max
      dsimp only
      by_cases hless : p.text < (iso call.retainUntil).text
      · rw [if_pos hless, time_iso]
        refine ⟨le_rfl, ?_⟩
        rintro p' hp'
        obtain rfl := Option.some.inj hp'
        exact (htext.mp hless).le
      · rw [if_neg hless]
        refine ⟨not_lt.mp fun hlater => hless (htext.mpr hlater), ?_⟩
        rintro p' hp'
        obtain rfl := Option.some.inj hp'
        exact le_rfl

/-- The expiry that a call writes is the prior one or the one asked for. -/
theorem expiry_cases (call : Acquire) (prior : Option IsoStamp) :
    (call.expiry prior) = iso call.retainUntil ∨ prior = some (call.expiry prior) := by
  cases prior with
  | none => exact .inl rfl
  | some p =>
      unfold Acquire.expiry IsoStamp.max
      dsimp only
      split
      · exact .inl rfl
      · exact .inr rfl

/-- What is prepared for a reference: its key, and the expiry of the lease unless that has run
out. -/
def PriorOf (s : MemoryInputResourceStore) (call : Acquire) (entry : LeaseKey × Option IsoStamp) :
    Prop :=
  (∀ p, entry.2 = some p → s.expiryOf entry.1 call.leaseId = some p) ∧
    (entry.2 = none → ∀ e, s.expiryOf entry.1 call.leaseId = some e → e.time ≤ call.now')

theorem PriorOf.of_prunes {s t : MemoryInputResourceStore} {call : Acquire}
    (h : Prunes s t call.now') {entry : LeaseKey × Option IsoStamp} (hentry : PriorOf t call entry) :
    PriorOf s call entry := by
  refine ⟨fun p hp => h.kept _ _ _ (hentry.1 p hp), ?_⟩
  intro hnone e he
  rcases h.gone _ _ _ he with hthere | hpast
  · exact hentry.2 hnone e hthere
  · exact hpast

/-- Uploads stand under their ids. -/
def Keyed (s : MemoryInputResourceStore) : Prop :=
  ∀ id upload, s.uploads.get? id = some upload → upload.uploadId = id

def Acquire.keyOf (call : Acquire) (reference : InputResourceReference) : LeaseKey :=
  (call.ctx.scopeKey, reference.resourceId)

/-- Preparing prunes leases and yields one entry for each reference. -/
theorem prepare_spec (host : InputHost) (call : Acquire) :
    ∀ {references : List InputResourceReference} {s : MemoryInputResourceStore}, Keyed s →
      Prunes s (prepare host call references s).2 call.now' ∧
        ∀ prepared, (prepare host call references s).1 = .ok prepared →
          prepared.map Prod.fst = references.map call.keyOf ∧
            ∀ entry ∈ prepared, PriorOf s call entry
  | [], s, _ => by
      refine ⟨Prunes.refl s _, fun prepared h => ?_⟩
      obtain rfl := Except.ok.inj h
      exact ⟨rfl, fun entry hentry => absurd hentry List.not_mem_nil⟩
  | reference :: rest, s, hkeyed => by
      unfold prepare
      cases hget : getUpload host s call.ctx reference.resourceId with
      | error raised => exact ⟨Prunes.refl s _, fun prepared h => by cases h⟩
      | ok upload =>
          dsimp only
          cases hverify : verifyOwned host call.ctx upload reference false with
          | error raised => exact ⟨Prunes.refl s _, fun prepared h => by cases h⟩
          | ok done =>
              dsimp only
              obtain ⟨hin, hscope, -⟩ := getUpload_ok hget
              have hkey : upload.key = call.keyOf reference := by
                unfold Upload.key Acquire.keyOf
                rw [hscope, hkeyed _ _ hin]
              have hprunes := lapsed_prunes s upload call.now' call.now'
              rcases hlapsed : lapsed s upload call.now' call.now' with ⟨gone, t⟩
              rw [hlapsed] at hprunes
              cases gone with
              | true => exact ⟨hprunes, fun prepared h => by cases h⟩
              | false =>
                  have hkeyed' : Keyed t := by
                    intro id found hfound
                    rw [hprunes.uploads] at hfound
                    exact hkeyed id found hfound
                  obtain ⟨hrest, hprepared⟩ := prepare_spec host call hkeyed'
                  refine ⟨hprunes.trans hrest, ?_⟩
                  intro prepared h
                  cases htail : (prepare host call rest t).1 with
                  | error raised =>
                      dsimp only at h
                      rw [htail] at h
                      cases h
                  | ok tail =>
                      dsimp only at h
                      rw [htail] at h
                      obtain rfl := Except.ok.inj h
                      obtain ⟨hkeys, hentries⟩ := hprepared tail htail
                      refine ⟨?_, ?_⟩
                      · rw [List.map_cons, List.map_cons, hkeys, hkey]
                      · intro entry hentry
                        rcases List.mem_cons.mp hentry with rfl | hentry
                        · refine PriorOf.of_prunes hprunes ⟨fun p hp => hp, ?_⟩
                          intro hnone e he
                          have hnone : t.expiryOf upload.key call.leaseId = none := hnone
                          rw [hnone] at he
                          cases he
                        · exact PriorOf.of_prunes hprunes (hentries entry hentry)

/-- Granting writes the prepared leases and nothing else. -/
theorem grants_expiryOf (call : Acquire) (key : LeaseKey) (leaseId : String) :
    ∀ (prepared : List (LeaseKey × Option IsoStamp)) (s : MemoryInputResourceStore),
      ((prepared.foldl (grant call) s).expiryOf key leaseId = s.expiryOf key leaseId ∧
          (leaseId ≠ call.leaseId ∨ key ∉ prepared.map Prod.fst)) ∨
        (leaseId = call.leaseId ∧ ∃ prior, (key, prior) ∈ prepared ∧
          (prepared.foldl (grant call) s).expiryOf key leaseId = some (call.expiry prior))
  | [], s => .inl ⟨rfl, .inr List.not_mem_nil⟩
  | entry :: rest, s => by
      rw [List.foldl_cons]
      rcases grants_expiryOf call key leaseId rest (grant call s entry) with
        ⟨hsame, hother⟩ | ⟨hlease, prior, hmem, hset⟩
      · have hfirst : (grant call s entry).expiryOf key leaseId =
            if entry.1 = key then
              ((s.leasesOf entry.1).set call.leaseId (call.expiry entry.2)).get? leaseId
            else s.expiryOf key leaseId := expiryOf_set s _ _ _ _
        rw [hsame, hfirst]
        by_cases hkey : entry.1 = key
        · rw [if_pos hkey, Dict.get?_set]
          by_cases hlease : call.leaseId = leaseId
          · refine .inr ⟨hlease.symm, entry.2, ?_, if_pos hlease⟩
            rw [← hkey]
            exact List.mem_cons_self
          · rw [if_neg hlease, hkey]
            exact .inl ⟨rfl, .inl fun heq => hlease heq.symm⟩
        · rw [if_neg hkey]
          refine .inl ⟨rfl, ?_⟩
          rcases hother with hlease | hkeys
          · exact .inl hlease
          · refine .inr ?_
            rw [List.map_cons, List.mem_cons, not_or]
            exact ⟨fun heq => hkey heq.symm, hkeys⟩
      · exact .inr ⟨hlease, prior, List.mem_cons_of_mem _ hmem, hset⟩

theorem grants_uploads (call : Acquire) : ∀ (prepared : List (LeaseKey × Option IsoStamp))
    (s : MemoryInputResourceStore), (prepared.foldl (grant call) s).uploads = s.uploads
  | [], _ => rfl
  | entry :: rest, s => (grants_uploads call rest (grant call s entry)).trans rfl

/-- A call that raises only prunes; one that returns grants what it prepared. -/
theorem acquireLeases_cases (host : InputHost) {s : MemoryInputResourceStore} (hkeyed : Keyed s)
    (call : Acquire) :
    ((s.acquireLeases host call).result ≠ .ok () ∧
        Prunes s (s.acquireLeases host call).state call.now') ∨
      ((s.acquireLeases host call).result = .ok () ∧ call.references = [] ∧
        (s.acquireLeases host call).state = s) ∨
      ((s.acquireLeases host call).result = .ok () ∧ call.now < call.retainUntil ∧
        ∃ (prepared : List (LeaseKey × Option IsoStamp)) (t : MemoryInputResourceStore),
          Prunes s t call.now' ∧
          prepared.map Prod.fst = call.references.map call.keyOf ∧
          (∀ entry ∈ prepared, PriorOf s call entry) ∧
          (s.acquireLeases host call).state = prepared.foldl (grant call) t) := by
  unfold acquireLeases
  split
  · exact .inl ⟨fun h => (by cases h), Prunes.refl s _⟩
  · split
    · rename_i hempty
      exact .inr (.inl ⟨rfl, List.isEmpty_iff.mp hempty, rfl⟩)
    · split
      · exact .inl ⟨fun h => (by cases h), Prunes.refl s _⟩
      · rename_i hfuture
        obtain ⟨hprunes, hprepared⟩ := prepare_spec host call hkeyed
        rcases hresult : prepare host call call.references s with ⟨outcome, t⟩
        rw [hresult] at hprunes hprepared
        cases outcome with
        | error raised => exact .inl ⟨fun h => (by cases h), hprunes⟩
        | ok prepared =>
            obtain ⟨hkeys, hentries⟩ := hprepared prepared rfl
            exact .inr (.inr ⟨rfl, not_le.mp hfuture, prepared, t, hprunes, hkeys, hentries, rfl⟩)

/-! ## Releasing and deleting -/

theorem dropLease_expiryOf (leaseId : String) (s : MemoryInputResourceStore) (key key' : LeaseKey)
    (leaseId' : String) : (dropLease leaseId s key).expiryOf key' leaseId' =
      if key = key' ∧ leaseId = leaseId' then none else s.expiryOf key' leaseId' := by
  have h := expiryOf_table s key key' ((s.leasesOf key).erase leaseId) leaseId'
  unfold dropLease
  dsimp only
  have hsame : (if ((s.leasesOf key).erase leaseId).entries.isEmpty = true then
      { s with leases := s.leases.erase key }
    else { s with leases := s.leases.set key ((s.leasesOf key).erase leaseId) }).expiryOf key'
      leaseId' = if key = key' then ((s.leasesOf key).erase leaseId).get? leaseId'
        else s.expiryOf key' leaseId' := h
  rw [hsame, Dict.get?_erase]
  by_cases hkey : key = key'
  · by_cases hlease : leaseId = leaseId'
    · rw [if_pos hkey, if_pos hlease, if_pos ⟨hkey, hlease⟩]
    · rw [if_pos hkey, if_neg hlease, if_neg fun hboth => hlease hboth.2, ← hkey]
      rfl
  · rw [if_neg hkey, if_neg fun hboth => hkey hboth.1]

theorem dropLease_uploads (leaseId : String) (s : MemoryInputResourceStore) (key : LeaseKey) :
    (dropLease leaseId s key).uploads = s.uploads := by
  unfold dropLease
  dsimp only
  split <;> rfl

theorem drops_expiryOf (leaseId : String) (key' : LeaseKey) (leaseId' : String) :
    ∀ (keys : List LeaseKey) (s : MemoryInputResourceStore),
      (keys.foldl (dropLease leaseId) s).expiryOf key' leaseId' =
        if key' ∈ keys ∧ leaseId = leaseId' then none else s.expiryOf key' leaseId'
  | [], s => by simp
  | key :: keys, s => by
      rw [List.foldl_cons, drops_expiryOf leaseId key' leaseId' keys, dropLease_expiryOf]
      by_cases hin : key' ∈ keys ∧ leaseId = leaseId'
      · rw [if_pos hin, if_pos ⟨List.mem_cons_of_mem _ hin.1, hin.2⟩]
      · rw [if_neg hin]
        by_cases hkey : key = key' ∧ leaseId = leaseId'
        · rw [if_pos hkey, if_pos ⟨hkey.1 ▸ List.mem_cons_self, hkey.2⟩]
        · rw [if_neg hkey, if_neg]
          rintro ⟨hmem, hlease⟩
          rcases List.mem_cons.mp hmem with heq | hmem
          · exact hkey ⟨heq.symm, hlease⟩
          · exact hin ⟨hmem, hlease⟩

theorem drops_uploads (leaseId : String) : ∀ (keys : List LeaseKey)
    (s : MemoryInputResourceStore), (keys.foldl (dropLease leaseId) s).uploads = s.uploads
  | [], _ => rfl
  | key :: keys, s => (drops_uploads leaseId keys _).trans (dropLease_uploads leaseId s key)

theorem mem_keys_of_expiryOf {s : MemoryInputResourceStore} {key : LeaseKey} {leaseId : String}
    {e : IsoStamp} (h : s.expiryOf key leaseId = some e) : key ∈ s.leases.entries.map Prod.fst := by
  unfold expiryOf leasesOf at h
  cases hget : s.leases.get? key with
  | none =>
      rw [hget] at h
      cases h
  | some table => exact List.mem_map.mpr ⟨_, Dict.mem_entries_iff.mpr hget, rfl⟩

/-- Releasing drops the lease from the uploads of the owner in the scope. -/
theorem releaseLease_cases (host : InputHost) (s : MemoryInputResourceStore) (call : Release) :
    ((owner host call.ctx).toOption = none ∧ (s.releaseLease host call).state = s) ∨
    ∃ own, owner host call.ctx = .ok own ∧
      (s.releaseLease host call).state.uploads = s.uploads ∧
      ∀ key leaseId e, (s.releaseLease host call).state.expiryOf key leaseId = some e ↔
        s.expiryOf key leaseId = some e ∧
          ¬ (leaseId = call.leaseId ∧ key.1 = call.ctx.scopeKey ∧
            (s.uploads.get? key.2).any (fun upload => upload.ownerId = own) = true) := by
  unfold releaseLease
  cases howner : owner host call.ctx with
  | error raised => exact .inl ⟨rfl, rfl⟩
  | ok own =>
      refine .inr ⟨own, rfl, drops_uploads _ _ _, ?_⟩
      intro key leaseId e
      dsimp only
      have happlies : key ∈ (s.leases.entries.map Prod.fst).filter (call.applies own s) ↔
          key ∈ s.leases.entries.map Prod.fst ∧ key.1 = call.ctx.scopeKey ∧
            (s.expiryOf key call.leaseId).isSome = true ∧
            (s.uploads.get? key.2).any (fun upload => upload.ownerId = own) = true := by
        rw [List.mem_filter]
        unfold Release.applies
        rw [Bool.and_eq_true, Bool.and_eq_true, decide_eq_true_eq, and_assoc]
        rfl
      rw [drops_expiryOf]
      constructor
      · intro h
        split at h
        · cases h
        · rename_i hnot
          refine ⟨h, ?_⟩
          rintro ⟨rfl, hscope, hown⟩
          refine hnot ⟨happlies.mpr ⟨mem_keys_of_expiryOf h, hscope, ?_, hown⟩, rfl⟩
          exact Option.isSome_iff_exists.mpr ⟨e, h⟩
      · rintro ⟨h, hnot⟩
        rw [if_neg]
        · exact h
        · rintro ⟨hin, hlease⟩
          obtain ⟨-, hscope, -, hown⟩ := happlies.mp hin
          exact hnot ⟨hlease.symm, hscope, hown⟩

/-- What a candidate for deletion is: an upload that has expired and whose leases have. -/
theorem candidates_spec (host : InputHost) (call : Cleanup) :
    ∀ {uploads : List Upload} {s : MemoryInputResourceStore},
      Prunes s (candidates host call uploads s).2 call.now ∧
        ∀ found, (candidates host call uploads s).1 = .ok found → ∀ upload ∈ found,
          upload ∈ uploads ∧ upload.expiresAt.time ≤ call.now ∧
            ∀ leaseId e, s.expiryOf upload.key leaseId = some e → e.time ≤ call.now
  | [], s => by
      refine ⟨Prunes.refl s _, fun found h upload hupload => ?_⟩
      obtain rfl := Except.ok.inj h
      cases hupload
  | first :: rest, s => by
      have hskip : Prunes s (candidates host call rest s).2 call.now ∧
          ∀ found, (candidates host call rest s).1 = .ok found → ∀ upload ∈ found,
            upload ∈ first :: rest ∧ upload.expiresAt.time ≤ call.now ∧
              ∀ leaseId e, s.expiryOf upload.key leaseId = some e → e.time ≤ call.now := by
        obtain ⟨hprunes, hfound⟩ := candidates_spec host call (s := s)
        refine ⟨hprunes, fun found h upload hupload => ?_⟩
        obtain ⟨hmem, hrest⟩ := hfound found h upload hupload
        exact ⟨List.mem_cons_of_mem _ hmem, hrest⟩
      unfold candidates
      split
      · exact hskip
      · split
        · exact ⟨Prunes.refl s _, fun found h => by cases h⟩
        · split
          · exact hskip
          · have hlapsed := lapsed_prunes s first call.now call.now
            have hgone := @past_of_lapsed s first call.now call.now
            rcases hresult : lapsed s first call.now call.now with ⟨gone, t⟩
            rw [hresult] at hlapsed hgone
            obtain ⟨hprunes, hfound⟩ := candidates_spec host call (s := t)
            refine ⟨hlapsed.trans hprunes, ?_⟩
            intro found h upload hupload
            cases htail : (candidates host call rest t).1 with
            | error raised =>
                dsimp only at h
                rw [htail] at h
                cases h
            | ok tail =>
                dsimp only at h
                rw [htail] at h
                obtain rfl := Except.ok.inj h
                have hlater : upload ∈ tail → upload ∈ first :: rest ∧
                    upload.expiresAt.time ≤ call.now ∧
                      ∀ leaseId e, s.expiryOf upload.key leaseId = some e → e.time ≤ call.now := by
                  intro hmem
                  obtain ⟨hin, hexpired, hpast⟩ := hfound tail htail upload hmem
                  refine ⟨List.mem_cons_of_mem _ hin, hexpired, ?_⟩
                  intro leaseId e he
                  rcases hlapsed.gone _ _ _ he with hthere | hearlier
                  · exact hpast leaseId e hthere
                  · exact hearlier
                cases gone with
                | false => exact hlater hupload
                | true =>
                    rcases List.mem_cons.mp hupload with rfl | hupload
                    · obtain ⟨hexpired, hpast⟩ := hgone rfl
                      exact ⟨List.mem_cons_self, hexpired, hpast⟩
                    · exact hlater hupload

theorem deletes_uploads (id : String) : ∀ (selected : List Upload) (s : MemoryInputResourceStore),
    (selected.foldl deleteUpload s).uploads.get? id =
      if id ∈ selected.map Upload.uploadId then none else s.uploads.get? id
  | [], s => by simp
  | upload :: rest, s => by
      rw [List.foldl_cons, deletes_uploads id rest]
      have hfirst : (deleteUpload s upload).uploads.get? id =
          if upload.uploadId = id then none else s.uploads.get? id := Dict.get?_erase _ _ _
      rw [hfirst]
      rw [List.map_cons]
      by_cases hrest : id ∈ rest.map Upload.uploadId
      · rw [if_pos hrest, if_pos (List.mem_cons_of_mem _ hrest)]
      · rw [if_neg hrest]
        by_cases hid : upload.uploadId = id
        · rw [if_pos hid, if_pos (hid ▸ List.mem_cons_self)]
        · rw [if_neg hid, if_neg]
          rw [List.mem_cons, not_or]
          exact ⟨fun heq => hid heq.symm, hrest⟩

theorem deletes_expiryOf (key : LeaseKey) (leaseId : String) :
    ∀ (selected : List Upload) (s : MemoryInputResourceStore),
      (selected.foldl deleteUpload s).expiryOf key leaseId =
        if key ∈ selected.map Upload.key then none else s.expiryOf key leaseId
  | [], s => by simp
  | upload :: rest, s => by
      rw [List.foldl_cons, deletes_expiryOf key leaseId rest]
      have hfirst : (deleteUpload s upload).expiryOf key leaseId =
          if upload.key = key then none else s.expiryOf key leaseId := expiryOf_erase s _ _ _
      rw [hfirst]
      rw [List.map_cons]
      by_cases hrest : key ∈ rest.map Upload.key
      · rw [if_pos hrest, if_pos (List.mem_cons_of_mem _ hrest)]
      · rw [if_neg hrest]
        by_cases hkey : upload.key = key
        · rw [if_pos hkey, if_pos (hkey ▸ List.mem_cons_self)]
        · rw [if_neg hkey, if_neg]
          rw [List.mem_cons, not_or]
          exact ⟨fun heq => hkey heq.symm, hrest⟩

/-- Cleaning up prunes leases, and then deletes some candidates. -/
theorem cleanup_cases (host : InputHost) (s : MemoryInputResourceStore) (call : Cleanup) :
    ∃ (selected : List Upload) (t : MemoryInputResourceStore), Prunes s t call.now ∧
      (s.cleanup host call).state = selected.foldl deleteUpload t ∧
      ∀ upload ∈ selected, (∃ id, s.uploads.get? id = some upload) ∧
        upload.expiresAt.time ≤ call.now ∧
        ∀ leaseId e, s.expiryOf upload.key leaseId = some e → e.time ≤ call.now := by
  unfold cleanup
  split
  · exact ⟨[], s, Prunes.refl s _, rfl, fun upload h => absurd h List.not_mem_nil⟩
  · obtain ⟨hprunes, hfound⟩ := candidates_spec host call (s := s)
    rcases hresult : candidates host call (s.uploads.entries.map Prod.snd) s with ⟨outcome, t⟩
    rw [hresult] at hprunes hfound
    cases outcome with
    | error raised => exact ⟨[], t, hprunes, rfl, fun upload h => absurd h List.not_mem_nil⟩
    | ok found =>
        refine ⟨_, t, hprunes, rfl, ?_⟩
        intro upload hupload
        have hmem : upload ∈ found :=
          (List.mem_insertionSort _).mp (List.mem_of_mem_take hupload)
        obtain ⟨hin, hpast⟩ := hfound found rfl upload hmem
        obtain ⟨⟨id, upload'⟩, hentry, rfl⟩ := List.mem_map.mp hin
        exact ⟨⟨id, Dict.mem_entries_iff.mp hentry⟩, hpast⟩

end MemoryInputResourceStore

end Etlantic.ControlPlane.Inputs
