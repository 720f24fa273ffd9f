import Mathlib.Data.List.Infix
import Etlantic.IoPolicy.AtomicWrites

/-!
# The steps of a write

The staging files that a call removes are recognised by a prefix.  The prefix of `a` is also
that of the staging files of `a.b`.  Destinations are separate if no name of one continues
that of another one behind a dot or looks like its staging files; then a staging file looks
abandoned only to the calls with its own destination.

A step of a call makes or removes one file, writes to its own staging file, moves that, or
leaves the files alone (`act_effect`).
-/

namespace Etlantic.IoPolicy

variable {ι : Type}

/-! ## Names -/

/-- No destination continues another one behind a dot or is named like its staging files. -/
def Separate (requests : ι → Request) : Prop :=
  ∀ c c', (requests c).destination ≠ (requests c').destination →
    hasPrefix ((requests c).destination ++ ".") (requests c').destination = false ∧
      isStagingOf (requests c).destination (requests c').destination = false

section Names

variable {d d' name random : String}

theorem hasPrefix_iff {p s : String} : hasPrefix p s = true ↔ p.toList <+: s.toList :=
  List.isPrefixOf_iff_prefix

theorem hasSuffix_iff {p s : String} : hasSuffix p s = true ↔ p.toList <:+ s.toList :=
  List.isSuffixOf_iff_suffix

theorem isStagingOf_iff : isStagingOf d name = true ↔
    ("." ++ d ++ ".").toList <+: name.toList ∧ ".tmp".toList <:+ name.toList := by
  unfold isStagingOf
  rw [Bool.and_eq_true, hasPrefix_iff, hasSuffix_iff]

theorem toList_stagingName :
    (stagingName d random).toList =
      '.' :: (d.toList ++ '.' :: (random.toList ++ ".tmp".toList)) := by
  unfold stagingName
  simp only [String.toList_append]
  rw [show ".".toList = ['.'] from rfl]
  simp only [List.append_assoc, List.cons_append, List.nil_append]

theorem toList_stagingPrefix : ("." ++ d ++ ".").toList = '.' :: (d.toList ++ ['.']) := by
  simp only [String.toList_append]
  rfl

theorem isStagingOf_stagingName : isStagingOf d (stagingName d random) = true := by
  rw [isStagingOf_iff, toList_stagingName, toList_stagingPrefix]
  constructor
  · rw [List.cons_prefix_cons, List.prefix_append_right_inj]
    exact ⟨rfl, List.prefix_append ['.'] _⟩
  · refine ⟨'.' :: (d.toList ++ '.' :: random.toList), ?_⟩
    simp only [List.cons_append, List.append_assoc]

theorem lockPath_inj (h : lockPath d = lockPath d') : d = d' := by
  unfold lockPath at h
  rw [← String.toList_inj, String.toList_append, String.toList_append,
    List.append_left_inj, String.toList_inj] at h
  exact h

theorem lockPath_ne_staging (h : isStagingOf d name = true) (d' : String) :
    name ≠ lockPath d' := by
  rintro rfl
  obtain ⟨-, hsuffix⟩ := isStagingOf_iff.mp h
  unfold lockPath at hsuffix
  rw [String.toList_append] at hsuffix
  have hlast : ".tmp".toList <:+ ".lock".toList :=
    List.suffix_of_suffix_length_le hsuffix (List.suffix_append _ _) (by decide)
  exact absurd hlast (by decide)

/-- The prefix of a name is also that of the staging files of a name that continues it. -/
theorem isStagingOf_of_prefix (h : hasPrefix (d ++ ".") d' = true) :
    isStagingOf d (stagingName d' random) = true := by
  have hlonger := (hasPrefix_iff.mp h).trans
    (List.prefix_append d'.toList ('.' :: (random.toList ++ ".tmp".toList)))
  have hown : isStagingOf d' (stagingName d' random) = true := isStagingOf_stagingName
  rw [String.toList_append] at hlonger
  rw [isStagingOf_iff]
  refine ⟨?_, (isStagingOf_iff.mp hown).2⟩
  rw [toList_stagingName, toList_stagingPrefix, List.cons_prefix_cons]
  exact ⟨rfl, hlonger⟩

/-- A staging file looks like one of a second destination only if that continues the first
behind a dot, or the other way round. -/
theorem prefix_of_isStagingOf (h : isStagingOf d (stagingName d' random) = true) (hne : d ≠ d') :
    hasPrefix (d ++ ".") d' = true ∨ hasPrefix (d' ++ ".") d = true := by
  have hdot : ∀ x : String, (x ++ ".").toList = x.toList ++ ['.'] := fun x => String.toList_append
  obtain ⟨hhead, -⟩ := isStagingOf_iff.mp h
  rw [toList_stagingName, toList_stagingPrefix, List.cons_prefix_cons] at hhead
  have hown : d'.toList ++ ['.'] <+: d'.toList ++ '.' :: (random.toList ++ ".tmp".toList) := by
    rw [List.prefix_append_right_inj]
    exact List.prefix_append ['.'] _
  have heq : ∀ {x y : String}, x.toList ++ ['.'] = y.toList ++ ['.'] → x = y := by
    intro x y hxy
    rwa [List.append_left_inj, String.toList_inj] at hxy
  rw [hasPrefix_iff, hasPrefix_iff, hdot, hdot]
  rcases List.prefix_or_prefix_of_prefix hhead.2 hown with hd | hd
  · rcases List.prefix_concat_iff.mp hd with hsame | hd
    · exact absurd (heq hsame) hne
    · exact .inl hd
  · rcases List.prefix_concat_iff.mp hd with hsame | hd
    · exact absurd (heq hsame).symm hne
    · exact .inr hd

theorem not_isStagingOf_self : isStagingOf d d = false := by
  rw [Bool.eq_false_iff]
  intro h
  have hlength := (isStagingOf_iff.mp h).1.length_le
  rw [toList_stagingPrefix, List.length_cons, List.length_append] at hlength
  omega

theorem hasPrefix_lockPath : hasPrefix (d ++ ".") (lockPath d) = true := by
  unfold lockPath
  rw [hasPrefix_iff, String.toList_append, String.toList_append, List.prefix_append_right_inj]
  exact List.prefix_append ['.'] _

theorem ne_lockPath_self : d ≠ lockPath d := by
  intro h
  have hlength := congrArg String.length h
  unfold lockPath at hlength
  rw [String.length_append] at hlength
  have hlock : ".lock".length = 5 := by decide
  omega

end Names

section Separation

variable {requests : ι → Request} {c c' : ι} {name random : String}

theorem Separate.ne_lockPath (hsep : Separate requests) :
    (requests c).destination ≠ lockPath (requests c').destination := by
  intro h
  have hne : (requests c').destination ≠ (requests c).destination := by
    intro heq
    rw [heq] at h
    exact ne_lockPath_self h
  have hhead := (hsep c' c hne).1
  rw [h, hasPrefix_lockPath] at hhead
  cases hhead

theorem Separate.ne_staging (hsep : Separate requests)
    (h : isStagingOf (requests c').destination name = true) : (requests c).destination ≠ name := by
  rintro rfl
  by_cases heq : (requests c').destination = (requests c).destination
  · rw [heq, not_isStagingOf_self] at h
    cases h
  · rw [(hsep c' c heq).2] at h
    cases h

/-- A staging file looks abandoned only to calls with its own destination. -/
theorem Separate.staging_own (hsep : Separate requests)
    (h : isStagingOf (requests c).destination
      (stagingName (requests c').destination random) = true) :
    (requests c).destination = (requests c').destination := by
  by_contra hne
  rcases prefix_of_isStagingOf h hne with hhead | hhead
  · rw [(hsep c c' hne).1] at hhead
    cases hhead
  · rw [(hsep c' c (Ne.symm hne)).1] at hhead
    cases hhead

end Separation

/-! ## Stages -/

/-- The call is between making its lock file and removing it. -/
def Stage.holds : Stage → Bool
  | .waiting => false
  | .finished _ => false
  | .crashed _ => false
  | _ => true

/-- No staging file has been made yet. -/
def Stage.early : Stage → Bool
  | .waiting => true
  | .locked => true
  | .sweeping _ => true
  | .removing _ _ => true
  | .swept => true
  | .cleared => true
  | _ => false

/-- The staging file of a call in progress, and what it holds. -/
def Stage.progress (payload : Bytes) : Stage → Option (String × Bytes)
  | .staged tmp count => some (tmp, payload.take count)
  | .flushed tmp => some (tmp, payload)
  | _ => none

theorem Stage.holds_of_progress {payload : Bytes} {stage : Stage} {p : String × Bytes}
    (h : stage.progress payload = some p) : stage.holds = true := by
  cases stage <;> first | rfl | cases h

/-- What a step that leaves the files alone makes of a stage. -/
structure Follows (r : Request) (stage stage' : Stage) : Prop where
  holds : stage'.holds = true → stage.holds = true
  removing : ∀ name rest, stage' = .removing name rest → isStagingOf r.destination name = true
  progress : ∀ p, stage'.progress r.payload = some p → stage.progress r.payload = some p
  unstaged : ∀ tmp count, stage' ≠ .staged tmp count
  abandoning : ∀ tmp, stage' = .abandoning tmp →
    ∃ content, stage.progress r.payload = some (tmp, content)
  early : stage'.early = true → stage.early = true
  published : stage'.published = stage.published
  announced : stage' ≠ .releasing .written

/-- The stage says nothing about files. -/
def Stage.plain : Stage → Bool
  | .removing _ _ => false
  | .staged _ _ => false
  | .flushed _ => false
  | .abandoning _ => false
  | .releasing .written => false
  | _ => true

theorem Follows.of_plain {r : Request} {stage stage' : Stage} (hplain : stage'.plain = true)
    (hholds : stage'.holds = true → stage.holds = true)
    (hearly : stage'.early = true → stage.early = true)
    (hpublished : stage'.published = stage.published) : Follows r stage stage' where
  holds := hholds
  removing := by
    rintro name rest rfl
    cases hplain
  progress := by
    intro p hp
    have hnone : stage'.progress r.payload = none := by
      cases stage' <;> first | rfl | cases hplain
    rw [hnone] at hp
    cases hp
  unstaged := by
    rintro tmp count rfl
    cases hplain
  abandoning := by
    rintro tmp rfl
    cases hplain
  early := hearly
  published := hpublished
  announced := by
    rintro rfl
    cases hplain

section Steps

variable [DecidableEq ι]

/-- All that a step of a call can do. -/
inductive Effect (r : Request) (self : ι) (dir : Directory ι) (stage : Stage) : Change ι → Prop
  | quiet {stage' : Stage} (follows : Follows r stage stage') :
      Effect r self dir stage ⟨dir, stage', false⟩
  | lock {stage' : Stage} (content : Bytes) (free : dir (lockPath r.destination) = none)
      (waiting : stage = .waiting) (locked : stage' = .locked ∨ stage' = .finished .failed) :
      Effect r self dir stage
        ⟨dir.set (lockPath r.destination) (some (.regular none content)), stage', false⟩
  | sweep {name : String} {rest : List String} (removing : stage = .removing name rest) :
      Effect r self dir stage ⟨dir.set name none, .sweeping rest, false⟩
  | create {random : String} (cleared : stage = .cleared)
      (free : dir (stagingName r.destination random) = none) :
      Effect r self dir stage ⟨dir.set (stagingName r.destination random)
        (some (.regular (some self) [])), .staged (stagingName r.destination random) 0, false⟩
  | write {tmp : String} {count : Nat} (more : Nat) (staged : stage = .staged tmp count) :
      Effect r self dir stage ⟨dir.append self ((r.payload.drop count).take more),
        .staged tmp (count + more), false⟩
  | publish {tmp : String} {entry : Entry ι} (flushed : stage = .flushed tmp)
      (found : dir tmp = some entry) :
      Effect r self dir stage
        ⟨(dir.set tmp none).set r.destination (some entry), .releasing .written, true⟩
  | discard {tmp : String} (abandoning : stage = .abandoning tmp) :
      Effect r self dir stage ⟨dir.set tmp none, .releasing .failed, false⟩
  | release {outcome : Outcome} (releasing : stage = .releasing outcome) :
      Effect r self dir stage
        ⟨dir.set (lockPath r.destination) none, .finished outcome, false⟩

section Effects

variable {r : Request} {self : ι} {dir : Directory ι} {change : Change ι} {stage : Stage}

theorem quiet_effect {stage' : Stage} (h : quiet dir stage' = some change)
    (follows : Follows r stage stage') : Effect r self dir stage change := by
  rw [quiet, Option.some.injEq] at h
  exact h ▸ .quiet follows

theorem startStep_effect {action : Action} (h : startStep r dir action = some change) :
    Effect r self dir .waiting change := by
  have hfinished : Follows r .waiting (.finished .failed) :=
    .of_plain rfl (fun h => by cases h) (fun h => by cases h) rfl
  cases action with
  | deny => exact quiet_effect h hfinished
  | timeout => exact quiet_effect h hfinished
  | interrupt => exact quiet_effect h hfinished
  | acquire pid =>
      cases hfree : dir (lockPath r.destination) with
      | none =>
          simp only [startStep, hfree, Option.some.injEq] at h
          exact h ▸ .lock pid hfree rfl (.inl rfl)
      | some entry =>
          simp only [startStep, hfree, reduceCtorEq] at h
  | acquireBroken =>
      cases hfree : dir (lockPath r.destination) with
      | none =>
          simp only [startStep, hfree, Option.some.injEq] at h
          exact h ▸ .lock [] hfree rfl (.inr rfl)
      | some entry =>
          simp only [startStep, hfree, reduceCtorEq] at h
  | _ => cases h

theorem sweepStep_effect {candidates : List String}
    (h : sweepStep r dir candidates = some change) :
    Effect r self dir (.sweeping candidates) change := by
  cases candidates with
  | nil =>
      rw [sweepStep] at h
      exact quiet_effect h (.of_plain rfl (fun _ => rfl) (fun _ => rfl) rfl)
  | cons name rest =>
      have hrest : Follows r (.sweeping (name :: rest)) (.sweeping rest) :=
        .of_plain rfl (fun _ => rfl) (fun _ => rfl) rfl
      simp only [sweepStep] at h
      by_cases hstaging : isStagingOf r.destination name = true
      · rw [if_pos hstaging] at h
        split at h
        · refine quiet_effect h ?_
          exact {
            holds := fun _ => rfl
            removing := by
              intro name' rest' heq
              cases heq
              exact hstaging
            progress := fun p hp => by cases hp
            unstaged := fun tmp count heq => by cases heq
            abandoning := fun tmp heq => by cases heq
            early := fun _ => rfl
            published := rfl
            announced := fun heq => by cases heq }
        · exact quiet_effect h hrest
      · rw [if_neg hstaging] at h
        exact quiet_effect h hrest

theorem removeStep_effect {name : String} {rest : List String}
    (h : removeStep dir name rest = some change) :
    Effect r self dir (.removing name rest) change := by
  unfold removeStep at h
  split at h
  · exact quiet_effect h (.of_plain rfl (fun _ => rfl) (fun _ => rfl) rfl)
  · exact quiet_effect h (.of_plain rfl (fun _ => rfl) (fun h => by cases h) rfl)
  · rw [Option.some.injEq] at h
    exact h ▸ .sweep rfl

theorem decideStep_effect (h : decideStep r dir = some change) :
    Effect r self dir .swept change := by
  unfold decideStep at h
  split at h
  · exact quiet_effect h (.of_plain rfl (fun _ => rfl) (fun h => by cases h) rfl)
  · exact quiet_effect h (.of_plain rfl (fun _ => rfl) (fun _ => rfl) rfl)

theorem createStep_effect {random : String} (h : createStep r self dir random = some change) :
    Effect r self dir .cleared change := by
  unfold createStep at h
  dsimp only at h
  split at h
  · rename_i hfree
    rw [Option.some.injEq] at h
    exact h ▸ .create rfl (Option.isNone_iff_eq_none.mp hfree.2)
  · cases h

theorem follows_abandoning {tmp : String} {content : Bytes}
    (hprogress : stage.progress r.payload = some (tmp, content))
    (hpublished : stage.published = false) : Follows r stage (.abandoning tmp) where
  holds := fun _ => Stage.holds_of_progress hprogress
  removing := fun name rest heq => by cases heq
  progress := fun p hp => by cases hp
  unstaged := fun tmp count heq => by cases heq
  abandoning := by
    intro tmp' heq
    cases heq
    exact ⟨content, hprogress⟩
  early := fun h => by cases h
  published := hpublished.symm
  announced := fun heq => by cases heq

theorem replaceStep_effect {tmp : String} (h : replaceStep r dir tmp = some change) :
    Effect r self dir (.flushed tmp) change := by
  have habandoning : Follows r (.flushed tmp) (.abandoning tmp) := follows_abandoning rfl rfl
  unfold replaceStep at h
  split at h
  · exact quiet_effect h habandoning
  · rename_i entry hfound
    split at h
    · exact quiet_effect h habandoning
    · rw [Option.some.injEq] at h
      exact h ▸ .publish rfl hfound

theorem follows_flushed {tmp : String} {count : Nat} (h : count = r.payload.length) :
    Follows r (.staged tmp count) (.flushed tmp) where
  holds := fun _ => rfl
  removing := fun name rest heq => by cases heq
  progress := by
    intro p hp
    have htake : r.payload.take count = r.payload := by rw [h, List.take_length]
    rw [← hp, Stage.progress, Stage.progress, htake]
  unstaged := fun tmp count heq => by cases heq
  abandoning := fun tmp heq => by cases heq
  early := fun h => by cases h
  published := rfl
  announced := fun heq => by cases heq

theorem follows_crashed : Follows r stage (.crashed stage.published) :=
  .of_plain rfl (fun h => by cases h) (fun h => by cases h) rfl

theorem follows_failed (hholds : stage.holds = true) (hpublished : stage.published = false) :
    Follows r stage (.releasing .failed) :=
  .of_plain rfl (fun _ => hholds) (fun h => by cases h) hpublished.symm

theorem follows_finished {outcome : Outcome} :
    Follows r (.releasing outcome) (.finished outcome) :=
  .of_plain rfl (fun h => by cases h) (fun h => by cases h) (by cases outcome <;> rfl)

/-- What a call does in one step. -/
theorem act_effect {action : Action} (h : act r self dir stage action = some change) :
    Effect r self dir stage change := by
  cases stage with
  | waiting =>
      cases action with
      | crash => exact quiet_effect h follows_crashed
      | _ =>
          simp only [act] at h
          exact startStep_effect h
  | locked =>
      cases action with
      | crash => exact quiet_effect h follows_crashed
      | list names =>
          exact quiet_effect h (.of_plain rfl (fun _ => rfl) (fun _ => rfl) rfl)
      | fail => exact quiet_effect h (follows_failed rfl rfl)
      | interrupt => exact quiet_effect h (follows_failed rfl rfl)
      | _ => cases h
  | sweeping candidates =>
      cases action with
      | crash => exact quiet_effect h follows_crashed
      | inspect => exact sweepStep_effect h
      | fail => exact quiet_effect h (follows_failed rfl rfl)
      | interrupt => exact quiet_effect h (follows_failed rfl rfl)
      | _ => cases h
  | removing name rest =>
      cases action with
      | crash => exact quiet_effect h follows_crashed
      | remove => exact removeStep_effect h
      | fail => exact quiet_effect h (follows_failed rfl rfl)
      | interrupt => exact quiet_effect h (follows_failed rfl rfl)
      | _ => cases h
  | swept =>
      cases action with
      | crash => exact quiet_effect h follows_crashed
      | decide => exact decideStep_effect h
      | fail => exact quiet_effect h (follows_failed rfl rfl)
      | interrupt => exact quiet_effect h (follows_failed rfl rfl)
      | _ => cases h
  | cleared =>
      cases action with
      | crash => exact quiet_effect h follows_crashed
      | create random => exact createStep_effect h
      | fail => exact quiet_effect h (follows_failed rfl rfl)
      | interrupt => exact quiet_effect h (follows_failed rfl rfl)
      | _ => cases h
  | staged tmp count =>
      cases action with
      | crash => exact quiet_effect h follows_crashed
      | write more =>
          simp only [act] at h
          split at h
          · rw [Option.some.injEq] at h
            exact h ▸ .write more rfl
          · cases h
      | flush =>
          simp only [act] at h
          split at h
          · rename_i hcount
            exact quiet_effect h (follows_flushed hcount)
          · cases h
      | fail => exact quiet_effect h (follows_abandoning rfl rfl)
      | interrupt => exact quiet_effect h (follows_failed rfl rfl)
      | _ => cases h
  | flushed tmp =>
      cases action with
      | crash => exact quiet_effect h follows_crashed
      | replace => exact replaceStep_effect h
      | fail => exact quiet_effect h (follows_abandoning rfl rfl)
      | interrupt => exact quiet_effect h (follows_failed rfl rfl)
      | _ => cases h
  | abandoning tmp =>
      cases action with
      | crash => exact quiet_effect h follows_crashed
      | discard =>
          simp only [act, Option.some.injEq] at h
          exact h ▸ .discard rfl
      | fail => exact quiet_effect h (follows_failed rfl rfl)
      | interrupt => exact quiet_effect h (follows_failed rfl rfl)
      | _ => cases h
  | releasing outcome =>
      cases action with
      | crash => exact quiet_effect h follows_crashed
      | release =>
          simp only [act, Option.some.injEq] at h
          exact h ▸ .release rfl
      | fail => exact quiet_effect h follows_finished
      | interrupt => exact quiet_effect h follows_finished
      | _ => cases h
  | finished outcome => cases h
  | crashed published => cases h

end Effects

end Steps

end Etlantic.IoPolicy
