import Etlantic.IoPolicy.WriteSteps

/-!
# Writes that do not interfere

Between its lock and its move over the destination, a call has its staging file to itself:
the lock keeps out the calls with the same destination, and the other ones do not take the
file for an abandoned one, if the destinations are separate.  So every destination holds
what was written to it last, and a call that crashes before its move changes none.

Of destinations that are not separate, one call can remove the staging file or even the
text of another one (`runs_safe_iff`).
-/

namespace Etlantic.IoPolicy

variable {ι : Type}

/-- The call that wrote to a destination last. -/
def lastWrite (requests : ι → Request) (writes : List ι) (destination : String) : Option ι :=
  writes.find? fun c => (requests c).destination = destination

section Writes

variable {requests : ι → Request} {writes : List ι} {c : ι} {d : String}

theorem lastWrite_cons_ne (h : (requests c).destination ≠ d) :
    lastWrite requests (c :: writes) d = lastWrite requests writes d :=
  List.find?_cons_of_neg (by simpa using h)

theorem lastWrite_cons_self :
    lastWrite requests (c :: writes) (requests c).destination = some c :=
  List.find?_cons_of_pos (by simp)

end Writes

/-- No call disturbs another one, seen from what the directory held at the start. -/
structure Safe [DecidableEq ι] (requests : ι → Request) (start s : State ι) : Prop where
  /-- A call in progress finds its staging file with what it has written. -/
  kept : ∀ c tmp content, (s.stage c).progress (requests c).payload = some (tmp, content) →
    s.dir tmp = some (.regular (some c) content)
  /-- No other call removes it or writes to it. -/
  untouched : ∀ e c tmp content, e.call ≠ c →
    (s.stage c).progress (requests c).payload = some (tmp, content) →
      (next requests s e).dir tmp = s.dir tmp
  /-- The move over the destination finds it, too. -/
  replaces : ∀ c tmp, s.stage c = .flushed tmp →
    s.dir (requests c).destination ≠ some .directory →
      (next requests s ⟨c, .replace⟩).stage c = .releasing .written
  /-- A destination holds what was written last. -/
  stored : ∀ c, s.dir (requests c).destination =
    match lastWrite requests s.writes (requests c).destination with
    | some writer => some (.regular (some writer) (requests writer).payload)
    | none => start.dir (requests c).destination
  /-- A call that has just written was the last to do so. -/
  latest : ∀ c, s.stage c = .releasing .written →
    lastWrite requests s.writes (requests c).destination = some c
  /-- The writes are those of the calls that moved their staging files, and no others. -/
  counted : ∀ c, c ∈ s.writes ↔ (s.stage c).published = true

/-- What holds in every reachable state. -/
structure Inv (requests : ι → Request) (start s : State ι) : Prop where
  locked : ∀ c, (s.stage c).holds = true → s.dir (lockPath (requests c).destination) ≠ none
  exclusive : ∀ c c', (s.stage c).holds = true → (s.stage c').holds = true →
    (requests c).destination = (requests c').destination → c = c'
  candidate : ∀ c name rest, s.stage c = .removing name rest →
    isStagingOf (requests c).destination name = true
  kept : ∀ c tmp content, (s.stage c).progress (requests c).payload = some (tmp, content) →
    s.dir tmp = some (.regular (some c) content)
  named : ∀ c tmp content, (s.stage c).progress (requests c).payload = some (tmp, content) →
    ∃ random, tmp = stagingName (requests c).destination random
  abandoned : ∀ c tmp, s.stage c = .abandoning tmp →
    ∃ random, tmp = stagingName (requests c).destination random
  writers : ∀ name c content, s.dir name = some (.regular (some c) content) →
    (s.stage c).early = false ∧ ∀ tmp count, s.stage c = .staged tmp count → name = tmp
  stored : ∀ c, s.dir (requests c).destination =
    match lastWrite requests s.writes (requests c).destination with
    | some writer => some (.regular (some writer) (requests writer).payload)
    | none => start.dir (requests c).destination
  latest : ∀ c, s.stage c = .releasing .written →
    lastWrite requests s.writes (requests c).destination = some c
  counted : ∀ c, c ∈ s.writes ↔ (s.stage c).published = true

section Directories

variable {dir : Directory ι} {name other : String} {entry : Option (Entry ι)} {self : ι}
  {bytes : Bytes}

@[simp] theorem set_self : (dir.set name entry) name = entry := if_pos rfl

theorem set_ne (h : other ≠ name) : (dir.set name entry) other = dir other := if_neg h

variable [DecidableEq ι]

theorem append_eq_none : (dir.append self bytes) name = none ↔ dir name = none := by
  unfold Directory.append
  cases h : dir name with
  | none => simp
  | some entry => cases entry <;> simp

theorem append_regular {writer : Option ι} {content : Bytes}
    (h : dir name = some (.regular writer content)) :
    (dir.append self bytes) name =
      some (.regular writer (if writer = some self then content ++ bytes else content)) := by
  unfold Directory.append
  rw [h]

/-- Files of other calls are left alone. -/
theorem append_of_no_writer (h : ∀ content, dir name ≠ some (.regular (some self) content)) :
    (dir.append self bytes) name = dir name := by
  unfold Directory.append
  cases hentry : dir name with
  | none => rfl
  | some entry =>
      cases entry with
      | regular writer content =>
          have hwriter : writer ≠ some self := by
            rintro rfl
            exact h content hentry
          simp only [if_neg hwriter]
      | directory => rfl
      | special => rfl

theorem writer_append {writer : ι} {content : Bytes}
    (h : (dir.append self bytes) name = some (.regular (some writer) content)) :
    ∃ before, dir name = some (.regular (some writer) before) ∧
      (writer ≠ self → before = content) := by
  unfold Directory.append at h
  cases hentry : dir name with
  | none =>
      rw [hentry] at h
      cases h
  | some entry =>
      cases entry with
      | regular other before =>
          simp only [hentry, Option.some.injEq, Entry.regular.injEq] at h
          obtain ⟨rfl, hcontent⟩ := h
          refine ⟨before, rfl, ?_⟩
          intro hne
          rwa [if_neg fun heq => hne (Option.some.inj heq)] at hcontent
      | directory =>
          rw [hentry] at h
          cases h
      | special =>
          rw [hentry] at h
          cases h

end Directories

section Step

variable {requests : ι → Request} {start s : State ι} {c : ι} {change : Change ι}

/-- The staging files of two calls that hold their locks have different names. -/
theorem Inv.other_staging (hsep : Separate requests) (inv : Inv requests start s) {c' : ι}
    {name tmp : String} {content : Bytes} (hne : c' ≠ c) (hholds : (s.stage c).holds = true)
    (hname : isStagingOf (requests c).destination name = true)
    (hprogress : (s.stage c').progress (requests c').payload = some (tmp, content)) :
    tmp ≠ name := by
  rintro rfl
  obtain ⟨random, rfl⟩ := inv.named c' tmp content hprogress
  have hsame := hsep.staging_own hname
  exact hne (inv.exclusive c c' hholds (Stage.holds_of_progress hprogress) hsame).symm

/-- The file that a call is about to discard looks like a staging file of its destination. -/
theorem Inv.isStagingOf_abandoned (inv : Inv requests start s) {tmp : String}
    (h : s.stage c = .abandoning tmp) : isStagingOf (requests c).destination tmp = true := by
  obtain ⟨random, rfl⟩ := inv.abandoned c tmp h
  exact isStagingOf_stagingName

theorem Inv.isStagingOf_flushed (inv : Inv requests start s) {tmp : String}
    (h : s.stage c = .flushed tmp) : isStagingOf (requests c).destination tmp = true := by
  obtain ⟨random, rfl⟩ := inv.named c tmp (requests c).payload (by rw [h]; rfl)
  exact isStagingOf_stagingName

variable [DecidableEq ι]

/-- A lock file disappears only where its own call releases it. -/
theorem Effect.lock_kept (inv : Inv requests start s)
    (heff : Effect (requests c) c s.dir (s.stage c) change) {d : String}
    (hgone : change.dir (lockPath d) = none) :
    s.dir (lockPath d) = none ∨
      (d = (requests c).destination ∧ (s.stage c).holds = true ∧ change.stage.holds = false) := by
  cases heff with
  | quiet follows => exact .inl hgone
  | lock content free waiting locked =>
      by_cases heq : lockPath d = lockPath (requests c).destination
      · rw [heq]
        exact .inl free
      · exact .inl ((set_ne heq).symm.trans hgone)
  | sweep removing =>
      have hname := lockPath_ne_staging (inv.candidate c _ _ removing) d
      exact .inl ((set_ne (Ne.symm hname)).symm.trans hgone)
  | @create random cleared free =>
      have hname : stagingName (requests c).destination random ≠ lockPath d :=
        lockPath_ne_staging isStagingOf_stagingName _
      exact .inl ((set_ne (Ne.symm hname)).symm.trans hgone)
  | write more staged => exact .inl (append_eq_none.mp hgone)
  | publish flushed found =>
      have hname := lockPath_ne_staging (inv.isStagingOf_flushed flushed) d
      by_cases heq : lockPath d = (requests c).destination
      · rw [heq] at hgone
        exact absurd (set_self.symm.trans hgone) (Option.some_ne_none _)
      · have hset := (set_ne heq).symm.trans hgone
        exact .inl ((set_ne (Ne.symm hname)).symm.trans hset)
  | discard abandoning =>
      have hname := lockPath_ne_staging (inv.isStagingOf_abandoned abandoning) d
      exact .inl ((set_ne (Ne.symm hname)).symm.trans hgone)
  | release releasing =>
      by_cases heq : lockPath d = lockPath (requests c).destination
      · exact .inr ⟨lockPath_inj heq, by rw [releasing]; rfl, rfl⟩
      · exact .inl ((set_ne heq).symm.trans hgone)

/-- A call holds its lock only from where it found none. -/
theorem Effect.holds (heff : Effect (requests c) c s.dir (s.stage c) change)
    (hholds : change.stage.holds = true) :
    (s.stage c).holds = true ∨ (s.dir (lockPath (requests c).destination) = none ∧
      change.dir (lockPath (requests c).destination) ≠ none) := by
  cases heff with
  | quiet follows => exact .inl (follows.holds hholds)
  | lock content free waiting locked =>
      exact .inr ⟨free, fun hgone => absurd (set_self.symm.trans hgone) (Option.some_ne_none _)⟩
  | sweep removing => exact .inl (by rw [removing]; rfl)
  | create cleared free => exact .inl (by rw [cleared]; rfl)
  | write more staged => exact .inl (by rw [staged]; rfl)
  | publish flushed found => exact .inl (by rw [flushed]; rfl)
  | discard abandoning => exact .inl (by rw [abandoning]; rfl)
  | release releasing => cases hholds

/-- The staging file of another call is left alone. -/
theorem Effect.staging_kept (hsep : Separate requests) (inv : Inv requests start s)
    (heff : Effect (requests c) c s.dir (s.stage c) change) {c' : ι} {tmp : String}
    {content : Bytes} (hne : c' ≠ c)
    (hprogress : (s.stage c').progress (requests c').payload = some (tmp, content)) :
    change.dir tmp = s.dir tmp := by
  have hkept := inv.kept c' tmp content hprogress
  have hlock : tmp ≠ lockPath (requests c).destination := by
    obtain ⟨random, rfl⟩ := inv.named c' tmp content hprogress
    exact lockPath_ne_staging isStagingOf_stagingName _
  cases heff with
  | quiet follows => rfl
  | lock content free waiting locked => exact set_ne hlock
  | sweep removing =>
      apply set_ne
      exact inv.other_staging hsep hne (by rw [removing]; rfl) (inv.candidate c _ _ removing)
        hprogress
  | create cleared free =>
      apply set_ne
      rintro rfl
      rw [free] at hkept
      cases hkept
  | write more staged =>
      apply append_of_no_writer
      intro content' heq
      rw [hkept, Option.some.injEq, Entry.regular.injEq] at heq
      exact hne (Option.some.inj heq.1)
  | publish flushed found =>
      have hdest : tmp ≠ (requests c).destination := by
        obtain ⟨random, rfl⟩ := inv.named c' tmp content hprogress
        exact (hsep.ne_staging isStagingOf_stagingName).symm
      refine (set_ne hdest).trans (set_ne ?_)
      exact inv.other_staging hsep hne (by rw [flushed]; rfl) (inv.isStagingOf_flushed flushed)
        hprogress
  | discard abandoning =>
      apply set_ne
      exact inv.other_staging hsep hne (by rw [abandoning]; rfl)
        (inv.isStagingOf_abandoned abandoning) hprogress
  | release releasing => exact set_ne hlock

/-- A call finds its own staging file as it has left it. -/
theorem Effect.progress_kept (inv : Inv requests start s)
    (heff : Effect (requests c) c s.dir (s.stage c) change) {tmp : String} {content : Bytes}
    (hprogress : change.stage.progress (requests c).payload = some (tmp, content)) :
    change.dir tmp = some (.regular (some c) content) ∧
      ∃ random, tmp = stagingName (requests c).destination random := by
  cases heff with
  | quiet follows =>
      have hbefore := follows.progress _ hprogress
      exact ⟨inv.kept c tmp content hbefore, inv.named c tmp content hbefore⟩
  | lock pid free waiting locked =>
      rcases locked with rfl | rfl
      · cases hprogress
      · cases hprogress
  | sweep removing => cases hprogress
  | @create random cleared free =>
      cases hprogress
      exact ⟨set_self, random, rfl⟩
  | @write tmp' count more staged =>
      have hbefore : (s.stage c).progress (requests c).payload =
          some (tmp', (requests c).payload.take count) := by
        rw [staged]
        rfl
      cases hprogress
      refine ⟨?_, inv.named c tmp _ hbefore⟩
      rw [List.take_add]
      exact (append_regular (inv.kept c tmp _ hbefore)).trans (by rw [if_pos rfl])
  | publish flushed found => cases hprogress
  | discard abandoning => cases hprogress
  | release releasing => cases hprogress

/-- A destination changes only where a call moves its staging file there. -/
theorem Effect.destination_kept (hsep : Separate requests) (inv : Inv requests start s)
    (heff : Effect (requests c) c s.dir (s.stage c) change) (c' : ι)
    (hother : change.published = true → (requests c').destination ≠ (requests c).destination) :
    change.dir (requests c').destination = s.dir (requests c').destination := by
  cases heff with
  | quiet follows => rfl
  | lock content free waiting locked => exact set_ne hsep.ne_lockPath
  | sweep removing => exact set_ne (hsep.ne_staging (inv.candidate c _ _ removing))
  | create cleared free => exact set_ne (hsep.ne_staging isStagingOf_stagingName)
  | write more staged =>
      apply append_of_no_writer
      intro content hentry
      have hname := (inv.writers _ c content hentry).2 _ _ staged
      obtain ⟨random, hrandom⟩ := inv.named c _ _ (by rw [staged]; rfl)
      exact hsep.ne_staging isStagingOf_stagingName (hname.trans hrandom)
  | publish flushed found =>
      have hname := hsep.ne_staging (c := c') (inv.isStagingOf_flushed flushed)
      exact (set_ne (hother rfl)).trans (set_ne hname)
  | discard abandoning => exact set_ne (hsep.ne_staging (inv.isStagingOf_abandoned abandoning))
  | release releasing => exact set_ne hsep.ne_lockPath

/-- A call that moves its staging file leaves its text at the destination. -/
theorem Effect.of_published (inv : Inv requests start s)
    (heff : Effect (requests c) c s.dir (s.stage c) change) (hpublished : change.published = true) :
    change.dir (requests c).destination =
        some (.regular (some c) (requests c).payload) ∧
      change.stage = .releasing .written ∧ (s.stage c).holds = true := by
  cases heff with
  | @publish tmp entry flushed found =>
      have hkept := inv.kept c tmp (requests c).payload (by rw [flushed]; rfl)
      rw [found] at hkept
      exact ⟨set_self.trans hkept, rfl, by rw [flushed]; rfl⟩
  | quiet follows => cases hpublished
  | lock content free waiting locked => cases hpublished
  | sweep removing => cases hpublished
  | create cleared free => cases hpublished
  | write more staged => cases hpublished
  | discard abandoning => cases hpublished
  | release releasing => cases hpublished

theorem Effect.of_not_published (heff : Effect (requests c) c s.dir (s.stage c) change)
    (hpublished : change.published = false) :
    change.stage ≠ .releasing .written ∧ change.stage.published = (s.stage c).published := by
  cases heff with
  | quiet follows => exact ⟨follows.announced, follows.published⟩
  | lock content free waiting locked =>
      rw [waiting]
      rcases locked with rfl | rfl
      · exact ⟨by simp, rfl⟩
      · exact ⟨by simp, rfl⟩
  | sweep removing => exact ⟨by simp, by rw [removing]; rfl⟩
  | create cleared free => exact ⟨by simp, by rw [cleared]; rfl⟩
  | write more staged => exact ⟨by simp, by rw [staged]; rfl⟩
  | publish flushed found => cases hpublished
  | discard abandoning => exact ⟨by simp, by rw [abandoning]; rfl⟩
  | @release outcome releasing =>
      refine ⟨by simp, ?_⟩
      rw [releasing]
      cases outcome <;> rfl

/-- A call that has not made its staging file has made none, and the file that it has open is
its staging file. -/
theorem Effect.writers (inv : Inv requests start s)
    (heff : Effect (requests c) c s.dir (s.stage c) change) {name : String} {content : Bytes}
    (hentry : change.dir name = some (.regular (some c) content)) :
    change.stage.early = false ∧ ∀ tmp count, change.stage = .staged tmp count → name = tmp := by
  -- an earlier stage has no file, so the step is none that stays early
  have hlate : ∀ {other before}, s.dir other = some (.regular (some c) before) →
      (s.stage c).early ≠ true := by
    intro other before hbefore hearly
    rw [(inv.writers other c before hbefore).1] at hearly
    cases hearly
  cases heff with
  | @quiet stage' follows =>
      refine ⟨?_, fun tmp count hstaged => absurd hstaged (follows.unstaged tmp count)⟩
      rw [Bool.eq_false_iff]
      exact fun hearly => hlate hentry (follows.early hearly)
  | lock pid free waiting locked =>
      by_cases heq : name = lockPath (requests c).destination
      · rw [heq] at hentry
        cases set_self.symm.trans hentry
      · exact absurd (by rw [waiting]; rfl) (hlate ((set_ne heq).symm.trans hentry))
  | @sweep candidate rest removing =>
      by_cases heq : name = candidate
      · rw [heq] at hentry
        cases set_self.symm.trans hentry
      · exact absurd (by rw [removing]; rfl) (hlate ((set_ne heq).symm.trans hentry))
  | @create random cleared free =>
      by_cases heq : name = stagingName (requests c).destination random
      · refine ⟨rfl, ?_⟩
        rintro tmp count hstaged
        cases hstaged
        exact heq
      · exact absurd (by rw [cleared]; rfl) (hlate ((set_ne heq).symm.trans hentry))
  | @write tmp count more staged =>
      obtain ⟨before, hbefore, -⟩ := writer_append hentry
      refine ⟨rfl, ?_⟩
      rintro tmp' count' hstaged
      cases hstaged
      exact (inv.writers name c before hbefore).2 tmp count staged
  | publish flushed found => exact ⟨rfl, by simp⟩
  | discard abandoning => exact ⟨rfl, by simp⟩
  | release releasing => exact ⟨rfl, by simp⟩

/-- Files that another call has made have been there before. -/
theorem Effect.other_writers (inv : Inv requests start s)
    (heff : Effect (requests c) c s.dir (s.stage c) change) {name : String} {c' : ι}
    {content : Bytes} (hne : c' ≠ c)
    (hentry : change.dir name = some (.regular (some c') content)) :
    ∃ before, s.dir name = some (.regular (some c') before) := by
  -- a file that is set or moved is of the call itself or of none
  have hset : ∀ {dir : Directory ι} {other : String} {entry : Option (Entry ι)},
      (∀ before, entry ≠ some (.regular (some c') before)) →
        (dir.set other entry) name = some (.regular (some c') content) →
          dir name = some (.regular (some c') content) := by
    intro dir other entry hno hdir
    by_cases heq : name = other
    · rw [heq] at hdir
      exact absurd (set_self.symm.trans hdir) (hno content)
    · exact (set_ne heq).symm.trans hdir
  cases heff with
  | quiet follows => exact ⟨content, hentry⟩
  | lock pid free waiting locked => exact ⟨content, hset (by simp) hentry⟩
  | sweep removing => exact ⟨content, hset (by simp) hentry⟩
  | create cleared free => exact ⟨content, hset (by simp [Ne.symm hne]) hentry⟩
  | write more staged =>
      obtain ⟨before, hbefore, -⟩ := writer_append hentry
      exact ⟨before, hbefore⟩
  | @publish tmp entry flushed found =>
      have hkept := inv.kept c tmp (requests c).payload (by rw [flushed]; rfl)
      rw [found] at hkept
      refine ⟨content, hset (by simp) (hset ?_ hentry)⟩
      rw [hkept]
      simp [Ne.symm hne]
  | discard abandoning => exact ⟨content, hset (by simp) hentry⟩
  | release releasing => exact ⟨content, hset (by simp) hentry⟩

theorem Effect.removing
    (heff : Effect (requests c) c s.dir (s.stage c) change) {name : String} {rest : List String}
    (hremoving : change.stage = .removing name rest) :
    isStagingOf (requests c).destination name = true := by
  cases heff with
  | quiet follows => exact follows.removing name rest hremoving
  | lock pid free waiting locked => rcases locked with rfl | rfl <;> cases hremoving
  | sweep removing => cases hremoving
  | create cleared free => cases hremoving
  | write more staged => cases hremoving
  | publish flushed found => cases hremoving
  | discard abandoning => cases hremoving
  | release releasing => cases hremoving

theorem Effect.abandoning (inv : Inv requests start s)
    (heff : Effect (requests c) c s.dir (s.stage c) change) {tmp : String}
    (habandoning : change.stage = .abandoning tmp) :
    ∃ random, tmp = stagingName (requests c).destination random := by
  cases heff with
  | quiet follows =>
      obtain ⟨content, hprogress⟩ := follows.abandoning tmp habandoning
      exact inv.named c tmp content hprogress
  | lock pid free waiting locked => rcases locked with rfl | rfl <;> cases habandoning
  | sweep removing => cases habandoning
  | create cleared free => cases habandoning
  | write more staged => cases habandoning
  | publish flushed found => cases habandoning
  | discard abandoning => cases habandoning
  | release releasing => cases habandoning

end Step

section After

variable {requests : ι → Request} {start s : State ι} {c x : ι} {change : Change ι}
  [DecidableEq ι]

/-- The state behind a step of a call. -/
def Change.after (change : Change ι) (s : State ι) (c : ι) : State ι where
  dir := change.dir
  stage := fun x => if x = c then change.stage else s.stage x
  writes := if change.published then c :: s.writes else s.writes

theorem after_stage_self : (change.after s c).stage c = change.stage := if_pos rfl

theorem after_stage_ne (h : x ≠ c) : (change.after s c).stage x = s.stage x := if_neg h

theorem next_eq {e : Event ι}
    (h : act (requests e.call) e.call s.dir (s.stage e.call) e.action = some change) :
    next requests s e = change.after s e.call := by
  unfold next
  rw [h]
  rfl

/-- The last write to a destination stays the last one unless the call moves its file there. -/
theorem lastWrite_after {d : String}
    (h : change.published = true → (requests c).destination ≠ d) :
    lastWrite requests (change.after s c).writes d = lastWrite requests s.writes d := by
  unfold Change.after
  cases hpublished : change.published with
  | false => rfl
  | true => exact lastWrite_cons_ne (h hpublished)

theorem Inv.locked_after (inv : Inv requests start s)
    (heff : Effect (requests c) c s.dir (s.stage c) change)
    (hholds : ((change.after s c).stage x).holds = true) :
    change.dir (lockPath (requests x).destination) ≠ none := by
  intro hgone
  rcases heff.lock_kept inv hgone with hnone | ⟨hsame, hheld, hreleased⟩
  · by_cases hx : x = c
    · subst hx
      rw [after_stage_self] at hholds
      rcases heff.holds hholds with hbefore | ⟨-, hpresent⟩
      · exact inv.locked x hbefore hnone
      · exact hpresent hgone
    · rw [after_stage_ne hx] at hholds
      exact inv.locked x hholds hnone
  · by_cases hx : x = c
    · subst hx
      rw [after_stage_self, hreleased] at hholds
      cases hholds
    · rw [after_stage_ne hx] at hholds
      exact hx (inv.exclusive x c hholds hheld hsame)

/-- A call that holds its lock keeps out the other calls with its destination. -/
theorem Inv.alone_after (inv : Inv requests start s)
    (heff : Effect (requests c) c s.dir (s.stage c) change)
    (hholds : change.stage.holds = true) (hother : (s.stage x).holds = true)
    (hsame : (requests x).destination = (requests c).destination) : x = c := by
  rcases heff.holds hholds with hbefore | ⟨hfree, -⟩
  · exact inv.exclusive x c hother hbefore hsame
  · rw [← hsame] at hfree
    exact absurd hfree (inv.locked x hother)

theorem Inv.exclusive_after (inv : Inv requests start s)
    (heff : Effect (requests c) c s.dir (s.stage c) change) {y : ι}
    (hx : ((change.after s c).stage x).holds = true)
    (hy : ((change.after s c).stage y).holds = true)
    (hsame : (requests x).destination = (requests y).destination) : x = y := by
  by_cases hxc : x = c
  · subst hxc
    rw [after_stage_self] at hx
    by_contra hne
    rw [after_stage_ne (Ne.symm hne)] at hy
    exact hne (inv.alone_after heff hx hy hsame.symm).symm
  · rw [after_stage_ne hxc] at hx
    by_cases hyc : y = c
    · subst hyc
      rw [after_stage_self] at hy
      exact inv.alone_after heff hy hx hsame
    · rw [after_stage_ne hyc] at hy
      exact inv.exclusive x y hx hy hsame

theorem Inv.kept_after (hsep : Separate requests) (inv : Inv requests start s)
    (heff : Effect (requests c) c s.dir (s.stage c) change) {tmp : String} {content : Bytes}
    (hprogress : ((change.after s c).stage x).progress (requests x).payload =
      some (tmp, content)) :
    change.dir tmp = some (.regular (some x) content) ∧
      ∃ random, tmp = stagingName (requests x).destination random := by
  by_cases hx : x = c
  · subst hx
    rw [after_stage_self] at hprogress
    exact heff.progress_kept inv hprogress
  · rw [after_stage_ne hx] at hprogress
    refine ⟨?_, inv.named x tmp content hprogress⟩
    rw [heff.staging_kept hsep inv hx hprogress]
    exact inv.kept x tmp content hprogress

theorem Inv.writers_after (inv : Inv requests start s)
    (heff : Effect (requests c) c s.dir (s.stage c) change) {name : String} {content : Bytes}
    (hentry : change.dir name = some (.regular (some x) content)) :
    ((change.after s c).stage x).early = false ∧
      ∀ tmp count, (change.after s c).stage x = .staged tmp count → name = tmp := by
  by_cases hx : x = c
  · subst hx
    rw [after_stage_self]
    exact heff.writers inv hentry
  · rw [after_stage_ne hx]
    obtain ⟨before, hbefore⟩ := heff.other_writers inv hx hentry
    exact inv.writers name x before hbefore

theorem Inv.stored_after (hsep : Separate requests) (inv : Inv requests start s)
    (heff : Effect (requests c) c s.dir (s.stage c) change) :
    change.dir (requests x).destination =
      match lastWrite requests (change.after s c).writes (requests x).destination with
      | some writer => some (.regular (some writer) (requests writer).payload)
      | none => start.dir (requests x).destination := by
  by_cases hwritten : change.published = true ∧ (requests c).destination = (requests x).destination
  · obtain ⟨hpublished, hsame⟩ := hwritten
    obtain ⟨hdir, -, -⟩ := heff.of_published inv hpublished
    have hlast : lastWrite requests (change.after s c).writes (requests x).destination =
        some c := by
      unfold Change.after
      rw [if_pos hpublished, ← hsame]
      exact lastWrite_cons_self
    rw [hlast, ← hsame]
    exact hdir
  · have hother : change.published = true →
        (requests c).destination ≠ (requests x).destination :=
      fun hpublished hsame => hwritten ⟨hpublished, hsame⟩
    rw [lastWrite_after hother,
      heff.destination_kept hsep inv x fun hpublished => (hother hpublished).symm]
    exact inv.stored x

theorem Inv.latest_after (inv : Inv requests start s)
    (heff : Effect (requests c) c s.dir (s.stage c) change)
    (hreleasing : (change.after s c).stage x = .releasing .written) :
    lastWrite requests (change.after s c).writes (requests x).destination = some x := by
  by_cases hx : x = c
  · subst hx
    rw [after_stage_self] at hreleasing
    have hpublished : change.published = true := by
      by_contra hnot
      exact (heff.of_not_published (Bool.eq_false_iff.mpr hnot)).1 hreleasing
    unfold Change.after
    rw [if_pos hpublished]
    exact lastWrite_cons_self
  · rw [after_stage_ne hx] at hreleasing
    rw [lastWrite_after ?_]
    · exact inv.latest x hreleasing
    · intro hpublished hsame
      obtain ⟨-, -, hheld⟩ := heff.of_published inv hpublished
      exact hx (inv.exclusive x c (by rw [hreleasing]; rfl) hheld hsame.symm)

theorem Inv.counted_after (inv : Inv requests start s)
    (heff : Effect (requests c) c s.dir (s.stage c) change) :
    x ∈ (change.after s c).writes ↔ ((change.after s c).stage x).published = true := by
  by_cases hx : x = c
  · subst hx
    rw [after_stage_self]
    unfold Change.after
    cases hpublished : change.published with
    | true =>
        rw [if_pos rfl, (heff.of_published inv hpublished).2.1]
        exact iff_of_true List.mem_cons_self rfl
    | false =>
        rw [if_neg (by simp), (heff.of_not_published hpublished).2]
        exact inv.counted x
  · rw [after_stage_ne hx, ← inv.counted x]
    unfold Change.after
    cases change.published with
    | true => rw [if_pos rfl, List.mem_cons, or_iff_right hx]
    | false => rw [if_neg (by simp)]

/-- A step keeps the invariant. -/
theorem next_inv (hsep : Separate requests) (inv : Inv requests start s) (e : Event ι) :
    Inv requests start (next requests s e) := by
  cases hact : act (requests e.call) e.call s.dir (s.stage e.call) e.action with
  | none =>
      unfold next
      rw [hact]
      exact inv
  | some change =>
      have heff := act_effect hact
      rw [next_eq hact]
      exact {
        locked := fun x hholds => inv.locked_after heff hholds
        exclusive := fun x y hx hy hsame => inv.exclusive_after heff hx hy hsame
        candidate := by
          intro x name rest hremoving
          by_cases hx : x = e.call
          · subst hx
            rw [after_stage_self] at hremoving
            exact heff.removing hremoving
          · rw [after_stage_ne hx] at hremoving
            exact inv.candidate x name rest hremoving
        kept := fun x tmp content hprogress => (inv.kept_after hsep heff hprogress).1
        named := fun x tmp content hprogress => (inv.kept_after hsep heff hprogress).2
        abandoned := by
          intro x tmp habandoning
          by_cases hx : x = e.call
          · subst hx
            rw [after_stage_self] at habandoning
            exact heff.abandoning inv habandoning
          · rw [after_stage_ne hx] at habandoning
            exact inv.abandoned x tmp habandoning
        writers := fun name x content hentry => inv.writers_after heff hentry
        stored := fun x => inv.stored_after hsep heff
        latest := fun x hreleasing => inv.latest_after heff hreleasing
        counted := fun x => inv.counted_after heff }

end After

section Runs

variable {requests : ι → Request} {start s : State ι}

/-- The invariant holds where no call has begun. -/
theorem begun_inv (hbegun : Begun start) : Inv requests start start where
  locked := by
    intro c hholds
    rw [hbegun.stage c] at hholds
    cases hholds
  exclusive := by
    intro c c' hholds
    rw [hbegun.stage c] at hholds
    cases hholds
  candidate := by
    intro c name rest hstage
    rw [hbegun.stage c] at hstage
    cases hstage
  kept := by
    intro c tmp content hprogress
    rw [hbegun.stage c] at hprogress
    cases hprogress
  named := by
    intro c tmp content hprogress
    rw [hbegun.stage c] at hprogress
    cases hprogress
  abandoned := by
    intro c tmp hstage
    rw [hbegun.stage c] at hstage
    cases hstage
  writers := by
    intro name c content hentry
    cases hbegun.writers name (some c) content hentry
  stored := by
    intro c
    rw [hbegun.writes]
    rfl
  latest := by
    intro c hstage
    rw [hbegun.stage c] at hstage
    cases hstage
  counted := by
    intro c
    rw [hbegun.writes, hbegun.stage c]
    exact iff_of_false List.not_mem_nil (by decide)

variable [DecidableEq ι]

theorem Inv.safe (hsep : Separate requests) (inv : Inv requests start s) :
    Safe requests start s where
  kept := inv.kept
  untouched := by
    intro e c tmp content hne hprogress
    cases hact : act (requests e.call) e.call s.dir (s.stage e.call) e.action with
    | none =>
        unfold next
        rw [hact]
    | some change =>
        rw [next_eq hact]
        exact (act_effect hact).staging_kept hsep inv (Ne.symm hne) hprogress
  replaces := by
    intro c tmp hflushed hdest
    have hkept := inv.kept c tmp (requests c).payload (by rw [hflushed]; rfl)
    have hact : act (requests c) c s.dir (s.stage c) .replace =
        some ⟨(s.dir.set tmp none).set (requests c).destination
          (some (.regular (some c) (requests c).payload)), .releasing .written, true⟩ := by
      rw [hflushed]
      cases hentry : s.dir (requests c).destination with
      | none => simp only [act, replaceStep, hkept, hentry]
      | some entry =>
          cases entry with
          | regular writer content => simp only [act, replaceStep, hkept, hentry]
          | directory => exact absurd hentry hdest
          | special => simp only [act, replaceStep, hkept, hentry]
    have hnext := congrArg (fun t => t.stage c) (next_eq (e := ⟨c, .replace⟩) hact)
    exact hnext.trans (if_pos rfl)
  stored := inv.stored
  latest := inv.latest
  counted := inv.counted

/-- Calls to separate destinations do not interfere, in whatever order their steps are taken. -/
theorem run_safe (hsep : Separate requests) (hbegun : Begun start) (events : List (Event ι)) :
    Safe requests start (Runs.run (next requests) start events) := by
  have hinv : Inv requests start (Runs.run (next requests) start events) :=
    Runs.invariant (I := Inv requests start) (fun s e inv _ => next_inv hsep inv e)
      (begun_inv hbegun) (Runs.guarded_true start events)
  exact hinv.safe hsep

end Runs

/-! ## Destinations that are not separate -/

section Overlaps

variable [DecidableEq ι] {requests : ι → Request} {c c' : ι}

/-- A call that has its staging file when another one looks for abandoned ones. -/
def overlap (c c' : ι) (tmp random : String) : List (Event ι) :=
  [⟨c', .acquire []⟩, ⟨c', .list []⟩, ⟨c', .inspect⟩, ⟨c', .decide⟩, ⟨c', .create random⟩,
    ⟨c, .acquire []⟩, ⟨c, .list [tmp]⟩, ⟨c, .inspect⟩, ⟨c, .remove⟩]

/-- A call that sees a file that is not its own. -/
def sweep (c : ι) (name : String) : List (Event ι) :=
  [⟨c, .acquire []⟩, ⟨c, .list [name]⟩, ⟨c, .inspect⟩, ⟨c, .remove⟩]

theorem not_safe_of_prefix
    (hne : (requests c).destination ≠ (requests c').destination)
    (hhead : hasPrefix ((requests c).destination ++ ".") (requests c').destination = true) :
    ∃ (start : State ι) (events : List (Event ι)), Begun start ∧
      ¬ Safe requests start (Runs.run (next requests) start events) := by
  generalize htmp : stagingName (requests c').destination "aaaaaaaa" = tmp
  have hstaging : isStagingOf (requests c).destination tmp = true := by
    rw [← htmp]
    exact isStagingOf_of_prefix hhead
  have hcalls : c ≠ c' := by
    rintro rfl
    exact hne rfl
  have hlocks : lockPath (requests c).destination ≠ lockPath (requests c').destination :=
    fun h => hne (lockPath_inj h)
  have hdest : (requests c').destination ≠ lockPath (requests c').destination := ne_lockPath_self
  have hlock : tmp ≠ lockPath (requests c).destination := lockPath_ne_staging hstaging _
  have hlock' : tmp ≠ lockPath (requests c').destination := lockPath_ne_staging hstaging _
  have hrandom : isRandomPart "aaaaaaaa" = true := by decide
  refine ⟨⟨fun _ => none, fun _ => .waiting, []⟩, overlap c c' tmp "aaaaaaaa",
    ⟨fun _ => rfl, rfl, by simp⟩, ?_⟩
  intro h
  have hkept := h.kept c' tmp []
  simp [overlap, Runs.run, next, act, startStep, quiet, sweepStep, decideStep, createStep,
    removeStep, Directory.set, Stage.progress, hcalls, Ne.symm hcalls, hlocks, hlock, hlock',
    Ne.symm hlock, hstaging, hdest, hrandom, htmp] at hkept

theorem not_safe_of_staging
    (hstaging : isStagingOf (requests c).destination (requests c').destination = true) :
    ∃ (start : State ι) (events : List (Event ι)), Begun start ∧
      ¬ Safe requests start (Runs.run (next requests) start events) := by
  have hlock : (requests c').destination ≠ lockPath (requests c).destination :=
    lockPath_ne_staging hstaging _
  refine ⟨⟨fun name => if name = (requests c').destination then some (.regular none []) else none,
    fun _ => .waiting, []⟩, sweep c (requests c').destination, ⟨fun _ => rfl, rfl, ?_⟩, ?_⟩
  · intro name writer content hentry
    dsimp only at hentry
    split at hentry
    · cases hentry
      rfl
    · cases hentry
  · intro h
    have hstored := h.stored c'
    simp [sweep, Runs.run, next, act, startStep, quiet, sweepStep, removeStep, Directory.set,
      lastWrite, hlock, Ne.symm hlock, hstaging] at hstored

/-- Calls do not interfere in any order of their steps, whatever files there are at the start,
just if their destinations are separate. -/
theorem runs_safe_iff :
    (∀ (start : State ι) (events : List (Event ι)), Begun start →
      Safe requests start (Runs.run (next requests) start events)) ↔ Separate requests := by
  constructor
  · intro h c c' hne
    rw [Bool.eq_false_iff, Bool.eq_false_iff]
    constructor
    · intro hhead
      obtain ⟨start, events, hbegun, hnot⟩ := not_safe_of_prefix hne hhead
      exact hnot (h start events hbegun)
    · intro hstaging
      obtain ⟨start, events, hbegun, hnot⟩ := not_safe_of_staging hstaging
      exact hnot (h start events hbegun)
  · intro hsep start events hbegun
    exact run_safe hsep hbegun events

end Overlaps

/-- Texts for `report` and for `report.json`. -/
def twoReports : Bool → Request
  | true => ⟨"report.json", [1], .atomicReplace⟩
  | false => ⟨"report", [2], .atomicReplace⟩

/-- A call for `report` removes the staging file of a call for `report.json`. -/
theorem not_runs_safe : ¬ ∀ (requests : Bool → Request) (start : State Bool)
    (events : List (Event Bool)), Begun start →
      Safe requests start (Runs.run (next requests) start events) := by
  intro h
  have hsafe := h twoReports ⟨fun _ => none, fun _ => .waiting, []⟩
    (overlap false true ".report.json.k3x_09ab.tmp" "k3x_09ab") ⟨fun _ => rfl, rfl, by simp⟩
  have hkept := hsafe.kept true ".report.json.k3x_09ab.tmp" [] (by decide)
  have hgone : ((Runs.run (next twoReports) ⟨fun _ => none, fun _ => .waiting, []⟩
      (overlap false true ".report.json.k3x_09ab.tmp" "k3x_09ab")).dir
        ".report.json.k3x_09ab.tmp").isNone = true := by decide
  rw [hkept] at hgone
  cases hgone

end Etlantic.IoPolicy
