import Etlantic.ControlPlane.Durable.Readers
import Etlantic.ControlPlane.Durable.Lifecycle
import Etlantic.Base.Keyset
import Mathlib.Data.String.Basic

/-!
# Scanning the execution scopes

A scan asks for a page of scopes and goes on behind its cursor, up to the watermark
of the first page.  The pages are ordered by identifier and the watermark is a place
in the order of insertion.  The two meet because submissions keep their places: up to
the watermark lies, at every later read, what was there at the first.
-/

namespace Etlantic.ControlPlane.Durable

variable {host : Host} {e : Event} {s₀ s t : Store} {ctx : ControlPlaneContext}

/-- The submissions of a workspace, in the order of their insertion. -/
def submissionIds (ctx : ControlPlaneContext) (s : Store) : List String :=
  (scopedRows s.submissions ctx.scopeKey).map fun row => row.1.id

/-- The watermark of a page. -/
def watermark (ctx : ControlPlaneContext) (throughSubmissionId : Option String) (s : Store) :
    Option String :=
  throughSubmissionId <|>
    (scopedRows s.submissions ctx.scopeKey).getLast?.map fun row => row.1.id

/-- The rows that a page looks at. -/
def selectedRows (ctx : ControlPlaneContext) (afterSubmissionId throughSubmissionId : Option String)
    (limit : Int) (s : Store) : List (Key × SubmissionRecord) :=
  (scopeCandidates (scopedRows s.submissions ctx.scopeKey) (watermark ctx throughSubmissionId s)
    afterSubmissionId).take limit.toNat

/-- A page of scopes, with the submissions it looked at. -/
structure ScopeRead where
  page : ExecutionScopePage
  scanned : List String

def readScopes (ctx : ControlPlaneContext) (afterSubmissionId throughSubmissionId : Option String)
    (limit : Int) (s : Store) : Option ScopeRead :=
  match (listExecutionScopes ctx afterSubmissionId throughSubmissionId limit s).result with
  | .error _ => none
  | .ok page => some ⟨page,
      (selectedRows ctx afterSubmissionId throughSubmissionId limit s).map fun row => row.1.id⟩

/-- Read behind the cursor until no cursor is left; `store n` is the store at the read `n`. -/
def followCursor (ctx : ControlPlaneContext) (limit : Nat → Int) (store : Nat → Store)
    (highWatermark : Option String) : Nat → Nat → Option String → Option (List ScopeRead)
  | _, _, none => some []
  | 0, _, some _ => none
  | fuel + 1, n, some cursor => do
      let read ← readScopes ctx (some cursor) highWatermark (limit n) (store n)
      let rest ← followCursor ctx limit store highWatermark fuel (n + 1) read.page.nextCursor
      return read :: rest

/-- A whole scan, from the first page on. -/
def scanScopes (ctx : ControlPlaneContext) (limit : Nat → Int) (store : Nat → Store) (fuel : Nat) :
    Option (List ScopeRead) := do
  let first ← readScopes ctx none none (limit 0) (store 0)
  let rest ← followCursor ctx limit store first.page.highWatermark fuel 1 first.page.nextCursor
  return first :: rest

/-- The store at each read, with the calls that come between the reads. -/
def storeAt (host : Host) (s : Store) (between : Nat → List Event) : Nat → Store
  | 0 => s
  | n + 1 => run host (storeAt host s between n) (between n)

/-! ## Submissions keep their places -/

/-- The submissions of `s` come first in `t`. -/
def KeepsOrder (s t : Store) : Prop :=
  s.submissions.entries.map Prod.fst <+: t.submissions.entries.map Prod.fst

theorem KeepsOrder.of_set {k : Key} {row : SubmissionRecord}
    (h : t.submissions = s.submissions.set k row) : KeepsOrder s t := by
  unfold KeepsOrder
  rw [h]
  exact Dict.keys_prefix_set _ _ _

theorem Write.keepsOrder (h : Write host e s₀ s t) : KeepsOrder s t := by
  cases h with
  | accept hcall hid hnew hidem hvalid hroute hlimit => exact KeepsOrder.of_set rfl
  | publish hcall hscope hrow hunpublished hget haccepted => exact KeepsOrder.of_set rfl
  | requestCancel hcall hscope hget hlive => exact KeepsOrder.of_set rfl
  | finishAttempt hcall hstatus hk hattempt hrunning hget hfence => exact KeepsOrder.of_set rfl
  | cancelSubmission hget hrequested hidle hready => exact KeepsOrder.of_set rfl
  | _ => exact List.prefix_rfl

theorem run_keepsOrder (hs : Linked s) (es : List Event) : KeepsOrder s (run host s es) :=
  run_related (I := fun _ => True) (fun _ => List.prefix_rfl) (fun h h' => h.trans h')
    (fun _ _ _ _ _ _ _ _ _ _ => trivial) (fun _ _ _ _ _ _ _ _ _ hw => hw.keepsOrder) hs trivial
    (Runs.guarded_true s es)

theorem submissionIds_eq (ctx : ControlPlaneContext) (s : Store) :
    submissionIds ctx s =
      ((s.submissions.entries.map Prod.fst).filter fun k => k.scope = ctx.scopeKey).map Key.id := by
  unfold submissionIds scopedRows
  rw [List.filter_map, List.map_map]
  rfl

theorem KeepsOrder.submissionIds (h : KeepsOrder s t) (ctx : ControlPlaneContext) :
    submissionIds ctx s <+: submissionIds ctx t := by
  rw [submissionIds_eq, submissionIds_eq]
  exact (h.filter _).map _

theorem submissionIds_nodup (ctx : ControlPlaneContext) (s : Store) :
    (submissionIds ctx s).Nodup := by
  rw [submissionIds_eq]
  apply List.Nodup.map_on
  · intro k hk k' hk' hid
    have hscope := of_decide_eq_true (List.mem_filter.mp hk).2
    have hscope' := of_decide_eq_true (List.mem_filter.mp hk').2
    cases k
    cases k'
    exact congrArg₂ Key.mk (hscope.trans hscope'.symm) hid
  · exact s.submissions.nodup.filter _

/-! ## One page -/

/-- The rows up to the watermark and behind the cursor are the keys of a keyset page. -/
theorem scopeCandidates_ids {rows : List (Key × SubmissionRecord)} {old : List String}
    (after : Option String) (hfront : old <+: rows.map fun row => row.1.id)
    (hnodup : (rows.map fun row => row.1.id).Nodup) :
    (scopeCandidates rows old.getLast? after).map (fun row => row.1.id) =
      Keyset.behind after old := by
  obtain ⟨later, hlater⟩ := hfront
  rcases List.eq_nil_or_concat' old with rfl | ⟨front, w, rfl⟩
  · unfold scopeCandidates
    have hnone : rows.findIdx? (fun row => some row.1.id = ([] : List String).getLast?) = none := by
      rw [List.findIdx?_eq_none_iff]
      intro row _
      exact decide_eq_false (by simp)
    rw [hnone]
    rfl
  · have htake : (rows.take (front.length + 1)).map (fun row => row.1.id) = front ++ [w] := by
      rw [List.map_take, ← hlater]
      exact List.take_left' (by simp)
    have hfound : rows.findIdx? (fun row => some row.1.id = (front ++ [w]).getLast?) =
        some front.length := by
      rw [List.append_assoc, List.singleton_append] at hlater
      obtain ⟨before, behind, rfl, hbefore, hbehind⟩ := List.map_eq_append_iff.mp hlater.symm
      obtain ⟨row, rest, rfl, hrow, -⟩ := List.map_eq_cons_iff.mp hbehind
      rw [List.findIdx?_append, List.findIdx?_eq_none_iff.mpr ?_]
      · have hlen : before.length = front.length := by
          rw [← hbefore, List.length_map]
        simp [List.findIdx?_cons, hrow, hlen]
      · intro other hother
        rw [List.map_append, hbefore, hbehind, List.nodup_append] at hnodup
        have hne : other.1.id ≠ w := by
          apply hnodup.2.2 _ _ w List.mem_cons_self
          rw [← hbefore]
          exact List.mem_map_of_mem hother
        simp [hne]
    unfold scopeCandidates
    rw [hfound]
    show (((rows.take (front.length + 1)).filter fun row => after.all (· < row.1.id)).insertionSort
        fun a b => a.1.id ≤ b.1.id).map (fun row => row.1.id) = _
    rw [List.map_insertionSort (r := fun a b : Key × SubmissionRecord => a.1.id ≤ b.1.id)
      (s := fun a b : String => a ≤ b) (fun row : Key × SubmissionRecord => row.1.id) _
      (fun _ _ _ _ => Iff.rfl)]
    unfold Keyset.behind
    rw [← htake, List.filter_map]
    rfl

theorem mem_of_mem_scopeCandidates {rows : List (Key × SubmissionRecord)}
    {highWatermark after : Option String} {row : Key × SubmissionRecord}
    (h : row ∈ scopeCandidates rows highWatermark after) : row ∈ rows := by
  unfold scopeCandidates at h
  split at h
  · cases h
  · rw [List.mem_insertionSort] at h
    exact List.mem_of_mem_take (List.mem_filter.mp h).1

/-- The authority of a submission is settled when it is accepted. -/
theorem executionContext_settled (hadvance : SubmissionsAdvance s t) {row row' : Key × SubmissionRecord}
    (hrow : row ∈ scopedRows s.submissions ctx.scopeKey)
    (hrow' : row' ∈ scopedRows t.submissions ctx.scopeKey) (hid : row.1.id = row'.1.id) :
    executionContextFromSubmission row'.2 = executionContextFromSubmission row.2 := by
  obtain ⟨hmem, hscope⟩ := List.mem_filter.mp hrow
  obtain ⟨hmem', hscope'⟩ := List.mem_filter.mp hrow'
  have hkey : row.1 = row'.1 :=
    congrArg₂ Key.mk ((of_decide_eq_true hscope).trans (of_decide_eq_true hscope').symm) hid
  obtain ⟨status, hstays, -⟩ := hadvance row.1 row.2 (Dict.mem_entries_iff.mp hmem)
  have hget : t.submissions.get? row'.1 = some row'.2 := Dict.mem_entries_iff.mp hmem'
  rw [← hkey, hstays] at hget
  rw [← Option.some.inj hget]
  rfl

/-- The page lists the authorities of the submissions that it looked at. -/
def ScopeRead.Lists (ctx : ControlPlaneContext) (s : Store) (read : ScopeRead) : Prop :=
  ∀ scope, scope ∈ read.page.scopes ↔
    ∃ row ∈ scopedRows s.submissions ctx.scopeKey, row.1.id ∈ read.scanned ∧
      executionContextFromSubmission row.2 = some scope

/-- A page read up to the last submission of `s`, from a store that has grown since. -/
theorem readScopes_spec (after through : Option String) {limit : Int}
    (hfront : submissionIds ctx s <+: submissionIds ctx t) (hadvance : SubmissionsAdvance s t)
    (hmark : watermark ctx through t = (submissionIds ctx s).getLast?)
    (hlimit : 1 ≤ limit ∧ limit ≤ 1000) :
    ∃ read, readScopes ctx after through limit t = some read ∧
      read.scanned = (Keyset.behind after (submissionIds ctx s)).take limit.toNat ∧
      read.page.nextCursor = Keyset.nextCursor limit.toNat after (submissionIds ctx s) ∧
      read.page.highWatermark = (submissionIds ctx s).getLast? ∧ read.Lists ctx s := by
  have hids := scopeCandidates_ids after hfront (submissionIds_nodup ctx t)
  rw [← hmark] at hids
  have hscanned : (selectedRows ctx after through limit t).map (fun row => row.1.id) =
      (Keyset.behind after (submissionIds ctx s)).take limit.toNat := by
    rw [← hids, ← List.map_take]
    rfl
  have hlen := congrArg List.length hids
  rw [List.length_map] at hlen
  have hread : readScopes ctx after through limit t = some ⟨{
      scopes := ((selectedRows ctx after through limit t).filterMap fun row =>
        executionContextFromSubmission row.2).eraseDups
      nextCursor :=
        if limit < ((scopeCandidates (scopedRows t.submissions ctx.scopeKey)
          (watermark ctx through t) after).length : Int) then
          (selectedRows ctx after through limit t).getLast?.map fun row => row.1.id
        else none
      highWatermark := watermark ctx through t },
      (selectedRows ctx after through limit t).map fun row => row.1.id⟩ := by
    unfold readScopes listExecutionScopes
    rw [if_neg (by omega)]
    rfl
  refine ⟨_, hread, hscanned, ?_, hmark, ?_⟩
  · show (if _ then _ else none) = Keyset.nextCursor _ _ _
    rw [← List.getLast?_map, hscanned, hlen]
    unfold Keyset.nextCursor
    by_cases hmore : limit < ((Keyset.behind after (submissionIds ctx s)).length : Int)
    · rw [if_pos hmore, if_pos (by omega)]
    · rw [if_neg hmore, if_neg (by omega)]
  · intro scope
    show scope ∈ List.eraseDups _ ↔ _
    rw [List.mem_eraseDups, List.mem_filterMap]
    constructor
    · rintro ⟨row', hmem, hscope⟩
      have hid : row'.1.id ∈ (selectedRows ctx after through limit t).map fun row => row.1.id :=
        List.mem_map_of_mem hmem
      have hold := hid
      rw [hscanned] at hold
      obtain ⟨row, hrow, hsame⟩ :=
        List.mem_map.mp (Keyset.mem_behind.mp (List.mem_of_mem_take hold)).1
      have hrow' := mem_of_mem_scopeCandidates (List.mem_of_mem_take hmem)
      refine ⟨row, hrow, ?_, ?_⟩
      · rw [hsame]
        exact hid
      · rw [← executionContext_settled hadvance hrow hrow' hsame]
        exact hscope
    · rintro ⟨row, hrow, hid, hscope⟩
      obtain ⟨row', hmem, hsame⟩ := List.mem_map.mp hid
      have hrow' := mem_of_mem_scopeCandidates (List.mem_of_mem_take hmem)
      refine ⟨row', hmem, ?_⟩
      rw [executionContext_settled hadvance hrow hrow' hsame.symm]
      exact hscope

/-! ## A whole scan -/

/-- What lies between the first read and a later one: submissions are added and advance. -/
structure ScansFrom (ctx : ControlPlaneContext) (s : Store) (store : Nat → Store) : Prop where
  first : store 0 = s
  grows : ∀ n, submissionIds ctx s <+: submissionIds ctx (store n)
  advances : ∀ n, SubmissionsAdvance s (store n)

variable {limit : Nat → Int} {store : Nat → Store}

/-- The reads behind a cursor are the pages behind it. -/
theorem followCursor_pages (hstore : ScansFrom ctx s store)
    (hlimit : ∀ n, 1 ≤ limit n ∧ limit n ≤ 1000) {w : String}
    (hlast : (submissionIds ctx s).getLast? = some w) :
    ∀ (fuel n : Nat) (cursor : String) (read : List (List String)),
      Keyset.pages (fun n => (limit n).toNat) (submissionIds ctx s) fuel n (some cursor) =
        some read →
      ∃ reads, followCursor ctx limit store (some w) fuel n (some cursor) = some reads ∧
        reads.map ScopeRead.scanned = read ∧ ∀ read ∈ reads, read.Lists ctx s
  | 0, _, _, _, h => by cases h
  | fuel + 1, n, cursor, read, h => by
      obtain ⟨page, hpage, hscanned, hnext, -, hlists⟩ := readScopes_spec (some cursor)
        (some w) (hstore.grows n) (hstore.advances n) hlast.symm (hlimit n)
      unfold Keyset.pages at h
      rw [← hnext] at h
      unfold followCursor
      rw [hpage]
      show ∃ reads, (followCursor ctx limit store (some w) fuel (n + 1) page.page.nextCursor).bind
        _ = _ ∧ _
      cases hcursor : page.page.nextCursor with
      | none =>
          rw [hcursor] at h
          refine ⟨[page], by cases fuel <;> rfl, ?_, ?_⟩
          · rw [List.map_singleton, hscanned]
            exact Option.some.inj h
          · intro read hread
            rw [List.mem_singleton.mp hread]
            exact hlists
      | some cursor' =>
          rw [hcursor] at h
          obtain ⟨rest, hrest, rfl⟩ := Option.map_eq_some_iff.mp h
          obtain ⟨reads, hreads, hflat, hall⟩ :=
            followCursor_pages hstore hlimit hlast fuel (n + 1) cursor' rest hrest
          refine ⟨page :: reads, by rw [hreads]; rfl, ?_, ?_⟩
          · rw [List.map_cons, hscanned, hflat]
          · exact List.forall_mem_cons.mpr ⟨hlists, hall⟩

theorem scanScopes_pages (hstore : ScansFrom ctx s store)
    (hlimit : ∀ n, 1 ≤ limit n ∧ limit n ≤ 1000) {fuel : Nat} {read : List (List String)}
    (h : Keyset.pages (fun n => (limit n).toNat) (submissionIds ctx s) (fuel + 1) 0 none =
      some read) :
    ∃ reads, scanScopes ctx limit store fuel = some reads ∧
      reads.map ScopeRead.scanned = read ∧ ∀ read ∈ reads, read.Lists ctx s := by
  have hmark : watermark ctx none (store 0) = (submissionIds ctx s).getLast? := by
    rw [hstore.first]
    exact List.getLast?_map.symm
  obtain ⟨page, hpage, hscanned, hnext, hwatermark, hlists⟩ := readScopes_spec none none
    (hstore.grows 0) (hstore.advances 0) hmark (hlimit 0)
  unfold Keyset.pages at h
  rw [← hnext] at h
  unfold scanScopes
  rw [hpage]
  show ∃ reads, (followCursor ctx limit store page.page.highWatermark fuel 1
    page.page.nextCursor).bind _ = _ ∧ _
  cases hcursor : page.page.nextCursor with
  | none =>
      rw [hcursor] at h
      refine ⟨[page], by cases fuel <;> rfl, ?_, ?_⟩
      · rw [List.map_singleton, hscanned]
        exact Option.some.inj h
      · intro read hread
        rw [List.mem_singleton.mp hread]
        exact hlists
  | some cursor =>
      rw [hcursor] at h
      obtain ⟨rest, hrest, rfl⟩ := Option.map_eq_some_iff.mp h
      have hsome : ∃ w, (submissionIds ctx s).getLast? = some w := by
        apply Option.ne_none_iff_exists'.mp
        intro hnone
        rw [List.getLast?_eq_none_iff] at hnone
        rw [hcursor, hnone] at hnext
        cases hnext
      obtain ⟨w, hlast⟩ := hsome
      obtain ⟨reads, hreads, hflat, hall⟩ :=
        followCursor_pages hstore hlimit hlast fuel 1 cursor rest hrest
      refine ⟨page :: reads, by rw [hwatermark, hlast, hreads]; rfl, ?_, ?_⟩
      · rw [List.map_cons, hscanned, hflat]
      · exact List.forall_mem_cons.mpr ⟨hlists, hall⟩

theorem storeAt_keeps (hs : Linked s) (hlife : Lifecycle s) {between : Nat → List Event}
    (hfresh : ∀ n, FreshRun host (storeAt host s between n) (between n)) :
    ∀ n, Linked (storeAt host s between n) ∧ Lifecycle (storeAt host s between n) ∧
      KeepsOrder s (storeAt host s between n) ∧ SubmissionsAdvance s (storeAt host s between n)
  | 0 => ⟨hs, hlife, List.prefix_rfl, SubmissionsAdvance.refl s⟩
  | n + 1 => by
      obtain ⟨hlinked, hlife', horder, hadvance⟩ := storeAt_keeps hs hlife hfresh n
      obtain ⟨-, hlife''⟩ := run_invariant (I := Lifecycle)
        (fun _ _ _ _ _ _ _ _ hI hw => hw.lifecycle hI) hlinked hlife'
        (Runs.guarded_true (storeAt host s between n) (between n))
      exact ⟨run_linked host (between n) hlinked, hlife'',
        horder.trans (run_keepsOrder hlinked (between n)),
        hadvance.trans (run_submissionsAdvance hlinked hlife' (hfresh n))⟩

section Sample

/-- Two submissions, which a scan reads one a page. -/
def scannedAcceptances : List Event :=
  [⟨sampleEnv 'a' 0, .accept sampleContext (sampleAccept "b" "local" none)⟩,
    ⟨sampleEnv 'b' 1, .accept sampleContext (sampleAccept "a" "local" none)⟩]

/-- A third submission is accepted between the first page and the second. -/
def acceptedBetween : Nat → List Event
  | 0 => [⟨sampleEnv 'c' 2, .accept sampleContext (sampleAccept "c" "local" none)⟩]
  | _ + 1 => []

end Sample

end Etlantic.ControlPlane.Durable
