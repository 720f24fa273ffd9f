import Etlantic.Base.Json
import Etlantic.Base.Runs
import Mathlib.Logic.Function.Basic

/-!
# Saving a landing checkpoint

`save_landing_checkpoint` loads the checkpoint, compares its generation with the expected
one and writes the file, as three steps that other calls may come between.  A call is lost
if another one writes between its load and its write; only the lease, which a caller may
leave out, keeps the three steps together.
-/

namespace Etlantic.Connectors.Checkpoint

/-! ## Checkpoints -/

structure LandingCheckpoint where
  schema : String
  pipelineId : String
  extractId : String
  bindingId : String
  bindingFingerprint : String
  generation : Int
  committedIdentities : List String
  lastReadManifestFingerprint : Option String
  publicationId : Option String
  updatedAt : Option String
  metadata : List (String × Json)

/-- What is found at the path. -/
inductive File where
  | missing
  /-- A text that is no checkpoint. -/
  | corrupt
  | checkpoint (checkpoint : LandingCheckpoint)

inductive CheckpointError where
  /-- `PMCONN602`, `PMCONN603` or `PMCONN604`. -/
  | corrupt
  /-- `PMCONN606`. -/
  | concurrentUpdate (expected onDisk : Int)

def loadLandingCheckpoint : File → Except CheckpointError (Option LandingCheckpoint)
  | .missing => .ok none
  | .corrupt => .error .corrupt
  | .checkpoint checkpoint => .ok (some checkpoint)

/-- The arguments of a call of `save_landing_checkpoint`, the time at which it writes, and
whether its caller holds the lease. -/
structure Save where
  checkpoint : LandingCheckpoint
  expectedGeneration : Option Int
  now : String
  leased : Bool

/-- The comparison with what was loaded. -/
def compareGeneration (existing : Option LandingCheckpoint) (s : Save) :
    Except CheckpointError Unit :=
  match s.expectedGeneration with
  | none => .ok ()
  | some expected =>
      let onDisk := (existing.map LandingCheckpoint.generation).getD 0
      if onDisk ≠ expected then .error (.concurrentUpdate expected onDisk) else .ok ()

/-- What is written: the checkpoint with a time. -/
def Save.payload (s : Save) : LandingCheckpoint :=
  match s.checkpoint.updatedAt with
  | some text => if text = "" then { s.checkpoint with updatedAt := some s.now } else s.checkpoint
  | none => { s.checkpoint with updatedAt := some s.now }

/-- `advance_landing_checkpoint`, as the call of `save_landing_checkpoint` that it makes. -/
def advanceLandingCheckpoint (base : LandingCheckpoint) (newIdentityKeys : List String)
    (publicationId manifestFingerprint : Option String) (now : String) (leased : Bool) : Save where
  checkpoint :=
    { base with
      schema := "etlantic.landing_checkpoint/1"
      generation := base.generation + 1
      committedIdentities :=
        (base.committedIdentities ++ newIdentityKeys).dedup.insertionSort (· ≤ ·)
      lastReadManifestFingerprint := manifestFingerprint
      publicationId := publicationId
      updatedAt := some now }
  expectedGeneration := some base.generation
  now := now
  leased := leased

/-! ## Interleavings -/

/-- Where a call is.  `seen` is the number of writes before its load. -/
inductive Phase where
  | idle
  | loaded (existing : Option LandingCheckpoint) (seen : Nat)
  | compared (seen : Nat)
  | saved
  | failed

/-- A write that was made. -/
structure Write where
  call : Nat
  seen : Nat
  content : LandingCheckpoint

structure State where
  file : File
  lease : Option Nat
  phases : Nat → Phase
  writes : List Write

def State.init (file : File) : State := ⟨file, none, fun _ => .idle, []⟩

inductive Event where
  | acquire (i : Nat)
  | load (i : Nat)
  | compare (i : Nat)
  | write (i : Nat)
  /-- A call raises, for a reason of its own. -/
  | fail (i : Nat)
  | release (i : Nat)

def State.goTo (σ : State) (i : Nat) (phase : Phase) : State :=
  { σ with phases := Function.update σ.phases i phase }

/-- One step; a step that a call cannot take changes nothing. -/
def next (calls : Nat → Save) (σ : State) : Event → State
  | .acquire i =>
      if (calls i).leased ∧ σ.lease = none then { σ with lease := some i } else σ
  | .load i =>
      match σ.phases i with
      | .idle =>
          if (calls i).leased ∧ σ.lease ≠ some i then σ
          else
            match loadLandingCheckpoint σ.file with
            | .ok existing => σ.goTo i (.loaded existing σ.writes.length)
            | .error _ => σ.goTo i .failed
      | _ => σ
  | .compare i =>
      match σ.phases i with
      | .loaded existing seen =>
          match compareGeneration existing (calls i) with
          | .ok _ => σ.goTo i (.compared seen)
          | .error _ => σ.goTo i .failed
      | _ => σ
  | .write i =>
      match σ.phases i with
      | .compared seen =>
          { σ.goTo i .saved with
            file := .checkpoint (calls i).payload
            writes := σ.writes ++ [⟨i, seen, (calls i).payload⟩] }
      | _ => σ
  | .fail i =>
      match σ.phases i with
      | .loaded _ _ => σ.goTo i .failed
      | .compared _ => σ.goTo i .failed
      | _ => σ
  | .release i =>
      match σ.phases i with
      | .loaded _ _ => σ
      | .compared _ => σ
      | _ => if σ.lease = some i then { σ with lease := none } else σ

/-- The state after some steps of the calls. -/
abbrev run (calls : Nat → Save) (file : File) (events : List Event) : State :=
  Runs.run (next calls) (.init file) events

/-! ## What the comparison is for -/

/-- The later of two calls that expect one generation started after a write of that
generation which came no earlier than the other's, and a save loses no identity of an
earlier save that it did not read. -/
structure Serial (calls : Nat → Save) (writes : List Write) : Prop where
  restored : ∀ (i j : Nat) (a b : Write), writes[i]? = some a → writes[j]? = some b → i < j →
    ∀ g, (calls a.call).expectedGeneration = some g →
      (calls b.call).expectedGeneration = some g →
        ∃ (k : Nat) (c : Write), writes[k]? = some c ∧ i ≤ k ∧ k < b.seen ∧
          c.content.generation = g
  kept : ∀ (i j : Nat) (a b : Write), writes[i]? = some a → writes[j]? = some b → i < j →
    ∀ identity ∈ a.content.committedIdentities,
      identity ∈ b.content.committedIdentities ∨ i < b.seen

/-- Two calls that may come between each other: they do not expect one generation, and the
second has the identities of the first. -/
structure Compatible (s t : Save) : Prop where
  generations : ∀ g, s.expectedGeneration = some g → t.expectedGeneration ≠ some g
  identities : ∀ identity ∈ s.checkpoint.committedIdentities,
    identity ∈ t.checkpoint.committedIdentities

/-- A call that writes between the load and the write of another is compatible with it. -/
def OvertakesSafely (calls : Nat → Save) (writes : List Write) : Prop :=
  ∀ (i j : Nat) (a b : Write), writes[i]? = some a → writes[j]? = some b → i < j → b.seen ≤ i →
    Compatible (calls a.call) (calls b.call)

theorem identities_payload (s : Save) :
    s.payload.committedIdentities = s.checkpoint.committedIdentities := by
  unfold Save.payload
  split
  · split
    · rfl
    · rfl
  · rfl

/-! ## What was loaded -/

variable {calls : Nat → Save} {σ : State} {file : File} {events : List Event}

/-- A call that expects a generation and loaded after some write found that generation
there. -/
def Found (calls : Nat → Save) (writes : List Write) (i seen : Nat) : Prop :=
  seen ≤ writes.length ∧ ∀ g, (calls i).expectedGeneration = some g → 0 < seen →
    ∃ c, writes[seen - 1]? = some c ∧ c.content.generation = g

/-- What the phases and the writes say of the loads. -/
structure Consistent (calls : Nat → Save) (σ : State) : Prop where
  file : ∀ c, σ.writes.getLast? = some c → σ.file = .checkpoint c.content
  loaded : ∀ i existing seen, σ.phases i = .loaded existing seen → seen ≤ σ.writes.length ∧
    (0 < seen → ∃ c, σ.writes[seen - 1]? = some c ∧ existing = some c.content)
  compared : ∀ i seen, σ.phases i = .compared seen → Found calls σ.writes i seen
  written : ∀ (j : Nat) (b : Write), σ.writes[j]? = some b →
    b.content = (calls b.call).payload ∧ b.seen ≤ j ∧ Found calls σ.writes b.call b.seen

theorem consistent_init : Consistent calls (.init file) where
  file := fun c hc => by cases hc
  loaded := fun i existing seen h => by cases h
  compared := fun i seen h => by cases h
  written := fun j b hb => by cases hb

theorem consistent_lease (h : Consistent calls σ) (lease : Option Nat) :
    Consistent calls { σ with lease := lease } :=
  ⟨h.file, h.loaded, h.compared, h.written⟩

theorem phases_goTo (σ : State) (i j : Nat) (phase : Phase) :
    (σ.goTo i phase).phases j = if j = i then phase else σ.phases j :=
  Function.update_apply σ.phases i phase j

/-- A phase that the writes bear out. -/
def PhaseOk (calls : Nat → Save) (writes : List Write) (i : Nat) : Phase → Prop
  | .loaded existing seen => seen ≤ writes.length ∧
      (0 < seen → ∃ c, writes[seen - 1]? = some c ∧ existing = some c.content)
  | .compared seen => Found calls writes i seen
  | _ => True

theorem consistent_goTo (h : Consistent calls σ) {i : Nat} {phase : Phase}
    (hphase : PhaseOk calls σ.writes i phase) : Consistent calls (σ.goTo i phase) := by
  refine ⟨h.file, fun j existing seen hj => ?_, fun j seen hj => ?_, h.written⟩
  · rw [phases_goTo] at hj
    split at hj
    · rw [hj] at hphase
      exact hphase
    · exact h.loaded j existing seen hj
  · rw [phases_goTo] at hj
    split at hj
    · rename_i hji
      rw [hj] at hphase
      rw [hji]
      exact hphase
    · exact h.compared j seen hj

theorem phaseOk_load (h : Consistent calls σ) {i : Nat} {existing : Option LandingCheckpoint}
    (hload : loadLandingCheckpoint σ.file = .ok existing) :
    PhaseOk calls σ.writes i (.loaded existing σ.writes.length) := by
  refine ⟨Nat.le_refl _, fun hpos => ?_⟩
  have hne : σ.writes ≠ [] := List.length_pos_iff.mp hpos
  refine ⟨σ.writes.getLast hne, ?_, ?_⟩
  · rw [← List.getLast?_eq_getElem?, List.getLast?_eq_some_getLast hne]
  · rw [h.file _ (List.getLast?_eq_some_getLast hne)] at hload
    exact (Except.ok.inj hload).symm

theorem phaseOk_compare (h : Consistent calls σ) {i seen : Nat}
    {existing : Option LandingCheckpoint} (hphase : σ.phases i = .loaded existing seen)
    (hcompare : compareGeneration existing (calls i) = .ok ()) :
    PhaseOk calls σ.writes i (.compared seen) := by
  obtain ⟨hle, hfound⟩ := h.loaded i existing seen hphase
  refine ⟨hle, fun g hg hpos => ?_⟩
  obtain ⟨c, hc, rfl⟩ := hfound hpos
  refine ⟨c, hc, ?_⟩
  simp only [compareGeneration, hg, Option.map_some, Option.getD_some] at hcompare
  by_contra hne
  rw [if_pos hne] at hcompare
  cases hcompare

theorem Found.append {writes : List Write} {i seen : Nat} (h : Found calls writes i seen)
    (w : Write) : Found calls (writes ++ [w]) i seen := by
  refine ⟨?_, fun g hg hpos => ?_⟩
  · rw [List.length_append]
    exact h.1.trans (Nat.le_add_right _ _)
  · obtain ⟨c, hc, hgen⟩ := h.2 g hg hpos
    refine ⟨c, ?_, hgen⟩
    have hlt := (List.getElem?_eq_some_iff.mp hc).1
    rw [List.getElem?_append_left hlt]
    exact hc

theorem consistent_write (h : Consistent calls σ) {i seen : Nat}
    (hphase : σ.phases i = .compared seen) :
    Consistent calls { σ.goTo i .saved with
      file := .checkpoint (calls i).payload
      writes := σ.writes ++ [⟨i, seen, (calls i).payload⟩] } := by
  have hsaved : Consistent calls (σ.goTo i .saved) := consistent_goTo h trivial
  refine ⟨fun c hc => ?_, fun j existing seen' hj => ?_, fun j seen' hj => ?_, fun j b hb => ?_⟩
  · rw [List.getLast?_concat] at hc
    obtain rfl := Option.some.inj hc
    rfl
  · obtain ⟨hle, hfound⟩ := hsaved.loaded j existing seen' hj
    refine ⟨?_, fun hpos => ?_⟩
    · rw [List.length_append]
      exact hle.trans (Nat.le_add_right _ _)
    · obtain ⟨c, hc, heq⟩ := hfound hpos
      refine ⟨c, ?_, heq⟩
      have hlt := (List.getElem?_eq_some_iff.mp hc).1
      exact (List.getElem?_append_left hlt).trans hc
  · exact (hsaved.compared j seen' hj).append _
  · by_cases hlt : j < σ.writes.length
    · rw [List.getElem?_append_left hlt] at hb
      obtain ⟨hcontent, hseen, hfound⟩ := h.written j b hb
      exact ⟨hcontent, hseen, hfound.append _⟩
    · have hge := Nat.not_lt.mp hlt
      rw [List.getElem?_append_right hge] at hb
      obtain ⟨hzero, rfl⟩ : j - σ.writes.length = 0 ∧ _ := by
        have hlast := (List.getElem?_eq_some_iff.mp hb).1
        have hz : j - σ.writes.length = 0 := by
          simp only [List.length_singleton] at hlast
          omega
        rw [hz] at hb
        exact ⟨hz, (Option.some.inj hb).symm⟩
      have hfound := h.compared i seen hphase
      exact ⟨rfl, hfound.1.trans hge, hfound.append _⟩

theorem consistent_next (h : Consistent calls σ) (event : Event) :
    Consistent calls (next calls σ event) := by
  cases event with
  | acquire i =>
      simp only [next]
      split
      · exact consistent_lease h _
      · exact h
  | load i =>
      simp only [next]
      cases hphase : σ.phases i with
      | idle =>
          simp only
          split
          · exact h
          · cases hload : loadLandingCheckpoint σ.file with
            | ok existing => exact consistent_goTo h (phaseOk_load h hload)
            | error error => exact consistent_goTo h trivial
      | _ => exact h
  | compare i =>
      simp only [next]
      cases hphase : σ.phases i with
      | loaded existing seen =>
          simp only
          cases hcompare : compareGeneration existing (calls i) with
          | ok _ => exact consistent_goTo h (phaseOk_compare h hphase hcompare)
          | error error => exact consistent_goTo h trivial
      | _ => exact h
  | write i =>
      simp only [next]
      cases hphase : σ.phases i with
      | compared seen => exact consistent_write h hphase
      | _ => exact h
  | fail i =>
      simp only [next]
      cases hphase : σ.phases i with
      | loaded existing seen => exact consistent_goTo h trivial
      | compared seen => exact consistent_goTo h trivial
      | _ => exact h
  | release i =>
      simp only [next]
      cases hphase : σ.phases i with
      | loaded existing seen => exact h
      | compared seen => exact h
      | _ =>
          simp only
          split
          · exact consistent_lease h _
          · exact h

theorem consistent_run (calls : Nat → Save) (file : File) (events : List Event) :
    Consistent calls (run calls file events) :=
  Runs.invariant (I := Consistent calls) (fun _ event h _ => consistent_next h event)
    consistent_init (Runs.guarded_true _ events)

/-! ## Calls that come between -/

/-- In every run, the saves are serial exactly if every call that writes between the load
and the write of another expects another generation than it, or none, and records nothing
that the other leaves out. -/
theorem serial_iff (calls : Nat → Save) (file : File) (events : List Event) :
    Serial calls (run calls file events).writes ↔
      OvertakesSafely calls (run calls file events).writes := by
  have h := consistent_run calls file events
  have hids : ∀ (j : Nat) (b : Write), (run calls file events).writes[j]? = some b →
      b.content.committedIdentities = (calls b.call).checkpoint.committedIdentities := by
    intro j b hb
    rw [(h.written j b hb).1, identities_payload]
  constructor
  · intro hserial i j a b ha hb hlt hseen
    constructor
    · intro g hga hgb
      obtain ⟨k, c, -, hik, hk, -⟩ := hserial.restored i j a b ha hb hlt g hga hgb
      omega
    · intro identity hidentity
      rw [← hids i a ha] at hidentity
      rcases hserial.kept i j a b ha hb hlt identity hidentity with hin | hread
      · rwa [hids j b hb] at hin
      · omega
  · intro hsafe
    constructor
    · intro i j a b ha hb hlt g hga hgb
      by_cases hseen : b.seen ≤ i
      · exact absurd hgb ((hsafe i j a b ha hb hlt hseen).generations g hga)
      · obtain ⟨-, -, -, hfound⟩ := h.written j b hb
        obtain ⟨c, hc, hgen⟩ := hfound g hgb (by omega)
        exact ⟨b.seen - 1, c, hc, by omega, by omega, hgen⟩
    · intro i j a b ha hb hlt identity hidentity
      by_cases hseen : b.seen ≤ i
      · refine .inl ?_
        rw [hids j b hb]
        rw [hids i a ha] at hidentity
        exact (hsafe i j a b ha hb hlt hseen).identities identity hidentity
      · exact .inr (by omega)

/-! ## Calls under the lease -/

/-- Only the holder of the lease is between its load and its write, and no call wrote since
its load. -/
structure Exclusive (σ : State) : Prop where
  loaded : ∀ i existing seen, σ.phases i = .loaded existing seen →
    σ.lease = some i ∧ seen = σ.writes.length
  compared : ∀ i seen, σ.phases i = .compared seen → σ.lease = some i ∧ seen = σ.writes.length
  written : ∀ (j : Nat) (b : Write), σ.writes[j]? = some b → b.seen = j

/-- Going to a phase that the lease allows. -/
theorem exclusive_goTo (h : Exclusive σ) {i : Nat} {phase : Phase}
    (hloaded : ∀ existing seen, phase = .loaded existing seen →
      σ.lease = some i ∧ seen = σ.writes.length)
    (hcompared : ∀ seen, phase = .compared seen → σ.lease = some i ∧ seen = σ.writes.length) :
    Exclusive (σ.goTo i phase) := by
  refine ⟨fun j existing seen hj => ?_, fun j seen hj => ?_, h.written⟩
  · rw [phases_goTo] at hj
    split at hj
    · rename_i hji
      rw [hji]
      exact hloaded existing seen hj
    · exact h.loaded j existing seen hj
  · rw [phases_goTo] at hj
    split at hj
    · rename_i hji
      rw [hji]
      exact hcompared seen hj
    · exact h.compared j seen hj

theorem exclusive_write (h : Exclusive σ) {i seen : Nat} (hphase : σ.phases i = .compared seen) :
    Exclusive { σ.goTo i .saved with
      file := .checkpoint (calls i).payload
      writes := σ.writes ++ [⟨i, seen, (calls i).payload⟩] } := by
  obtain ⟨hlease, hseen⟩ := h.compared i seen hphase
  refine ⟨fun j existing seen' hj => ?_, fun j seen' hj => ?_, fun j b hb => ?_⟩
  · rw [show (State.phases _ j) = (σ.goTo i .saved).phases j from rfl, phases_goTo] at hj
    split at hj
    · cases hj
    · rename_i hji
      have hother := (h.loaded j existing seen' hj).1
      rw [hlease] at hother
      exact absurd (Option.some.inj hother).symm hji
  · rw [show (State.phases _ j) = (σ.goTo i .saved).phases j from rfl, phases_goTo] at hj
    split at hj
    · cases hj
    · rename_i hji
      have hother := (h.compared j seen' hj).1
      rw [hlease] at hother
      exact absurd (Option.some.inj hother).symm hji
  · by_cases hlt : j < σ.writes.length
    · rw [List.getElem?_append_left hlt] at hb
      exact h.written j b hb
    · rw [List.getElem?_append_right (Nat.not_lt.mp hlt)] at hb
      have hlast := (List.getElem?_eq_some_iff.mp hb).1
      rw [List.length_singleton] at hlast
      have hj : j = σ.writes.length := by omega
      rw [hj, Nat.sub_self] at hb
      obtain rfl := Option.some.inj hb
      exact hseen.trans hj.symm

/-- Where every caller holds the lease, no call writes between the load and the write of
another. -/
theorem exclusive_next (hleased : ∀ i, (calls i).leased = true) (h : Exclusive σ)
    (event : Event) : Exclusive (next calls σ event) := by
  have hfailed : ∀ i, Exclusive (σ.goTo i .failed) := by
    intro i
    refine exclusive_goTo h (fun _ _ heq => ?_) (fun _ heq => ?_)
    · cases heq
    · cases heq
  cases event with
  | acquire i =>
      simp only [next]
      split
      · rename_i hfree
        refine ⟨fun j existing seen hj => ?_, fun j seen hj => ?_, h.written⟩
        · have hheld := (h.loaded j existing seen hj).1
          rw [hfree.2] at hheld
          cases hheld
        · have hheld := (h.compared j seen hj).1
          rw [hfree.2] at hheld
          cases hheld
      · exact h
  | load i =>
      simp only [next]
      cases hphase : σ.phases i with
      | idle =>
          simp only
          split
          · exact h
          · rename_i hlease
            have hheld : σ.lease = some i := by
              by_contra hnot
              exact hlease ⟨hleased i, hnot⟩
            cases loadLandingCheckpoint σ.file with
            | ok existing =>
                refine exclusive_goTo h (fun _ _ heq => ?_) (fun _ heq => ?_)
                · obtain ⟨-, rfl⟩ := Phase.loaded.inj heq
                  exact ⟨hheld, rfl⟩
                · cases heq
            | error error => exact hfailed i
      | _ => exact h
  | compare i =>
      simp only [next]
      cases hphase : σ.phases i with
      | loaded existing seen =>
          simp only
          cases compareGeneration existing (calls i) with
          | ok _ =>
              refine exclusive_goTo h (fun _ _ heq => ?_) (fun _ heq => ?_)
              · cases heq
              · obtain rfl := Phase.compared.inj heq
                exact h.loaded i existing _ hphase
          | error error => exact hfailed i
      | _ => exact h
  | write i =>
      simp only [next]
      cases hphase : σ.phases i with
      | compared seen => exact exclusive_write h hphase
      | _ => exact h
  | fail i =>
      simp only [next]
      cases hphase : σ.phases i with
      | loaded existing seen => exact hfailed i
      | compared seen => exact hfailed i
      | _ => exact h
  | release i =>
      have hfree : (∀ existing seen, σ.phases i ≠ .loaded existing seen) →
          (∀ seen, σ.phases i ≠ .compared seen) →
            Exclusive (if σ.lease = some i then { σ with lease := none } else σ) := by
        intro hloaded hcompared
        split
        · rename_i hheld
          refine ⟨fun j existing seen hj => ?_, fun j seen hj => ?_, h.written⟩
          · have hother := (h.loaded j existing seen hj).1
            rw [hheld] at hother
            obtain rfl := Option.some.inj hother
            exact absurd hj (hloaded existing seen)
          · have hother := (h.compared j seen hj).1
            rw [hheld] at hother
            obtain rfl := Option.some.inj hother
            exact absurd hj (hcompared seen)
        · exact h
      simp only [next]
      cases hphase : σ.phases i with
      | loaded existing seen => exact h
      | compared seen => exact h
      | _ =>
          refine hfree (fun _ _ heq => ?_) (fun _ heq => ?_)
          · rw [hphase] at heq
            cases heq
          · rw [hphase] at heq
            cases heq

/-- Under the lease, the saves of every run are serial. -/
theorem serial_of_leased (hleased : ∀ i, (calls i).leased = true) :
    Serial calls (run calls file events).writes := by
  have hinit : Exclusive (.init file) := by
    refine ⟨fun i existing seen h => ?_, fun i seen h => ?_, fun j b hb => ?_⟩
    · cases h
    · cases h
    · cases hb
  have h : Exclusive (run calls file events) :=
    Runs.invariant (I := Exclusive) (fun _ event hσ _ => exclusive_next hleased hσ event) hinit
      (Runs.guarded_true _ events)
  have hconsistent := consistent_run calls file events
  constructor
  · intro i j a b _ hb hlt g _ hgb
    obtain ⟨-, -, -, hfound⟩ := hconsistent.written j b hb
    have hj := h.written j b hb
    obtain ⟨c, hc, hgen⟩ := hfound g hgb (by omega)
    exact ⟨b.seen - 1, c, hc, by omega, by omega, hgen⟩
  · intro i j a b _ hb hlt identity _
    exact .inr (by rw [h.written j b hb]; exact hlt)

/-! ## Two first saves -/

/-- The first checkpoint of a run that read one file. -/
def firstSave (identity : String) : Save where
  checkpoint := ⟨"etlantic.landing_checkpoint/1", "", "", "", "", 1, [identity], none, none,
    some "t", []⟩
  expectedGeneration := some 0
  now := "t"
  leased := false

/-- The same two saves under the lease. -/
def leasedSave (i : Nat) : Save := { firstSave (if i = 0 then "a" else "b") with leased := true }

theorem leasedSave_serial : Serial leasedSave (run leasedSave .missing
    [.acquire 0, .load 0, .load 1, .compare 0, .write 0, .release 0, .acquire 1, .load 1,
      .compare 1, .write 1]).writes :=
  serial_of_leased fun _ => rfl

/-- Both calls load and compare before one writes. -/
def bothFirst : State :=
  run (fun i => firstSave (if i = 0 then "a" else "b")) .missing
    [.load 0, .load 1, .compare 0, .compare 1, .write 0, .write 1]

/-- Both calls expect generation 0 and succeed, and the identity of the first is lost. -/
theorem bothFirst_lost :
    bothFirst.writes.map (fun w => (w.call, w.seen, w.content.committedIdentities)) =
      [(0, 0, ["a"]), (1, 0, ["b"])] ∧
    ¬Serial (fun i => firstSave (if i = 0 then "a" else "b")) bothFirst.writes := by
  refine ⟨rfl, fun h => ?_⟩
  obtain ⟨k, c, -, -, hk, -⟩ := h.restored 0 1 _ _ rfl rfl Nat.zero_lt_one 0 rfl rfl
  exact absurd hk (Nat.not_lt_zero k)

end Etlantic.Connectors.Checkpoint
