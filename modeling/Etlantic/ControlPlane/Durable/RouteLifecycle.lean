import Etlantic.ControlPlane.Durable.Recovery
import Mathlib.Data.List.Chain

/-!
# The lifecycle of a route

The status of a route changes only by `transition_execution_route_state`, which
numbers the changes and keeps the last 64 of them.  From `cleanup_pending` on the
route has no submission and no schedule reservation, and it never gets one:
both need an active route, and the way back is closed.
-/

namespace Etlantic.ControlPlane.Durable

/-- The status change that the event makes to the route. -/
def routeChange? (host : Host) (route : String) (s : Store) (e : Event) :
    Option (ExecutionRouteLifecycle × ExecutionRouteLifecycle) :=
  match e.call with
  | .transitionExecutionRouteState _ changed _ text _ =>
      if changed = route ∧ (e.outcome host s).succeeded = true then
        ((ExecutionRouteLifecycle.ofText? text).filter
          (fun status => status ≠ (s.routeState route).status)).map
            fun status => ((s.routeState route).status, status)
      else none
  | _ => none

/-- The status changes of a route along a run, in order. -/
def routeChanges (host : Host) (limit : Option Int) (route : String) (es : List Event) :
    List (ExecutionRouteLifecycle × ExecutionRouteLifecycle) :=
  Runs.observe (next host) (routeChange? host route) (Store.init limit) es

/-- A history entry without its time and principal. -/
def numbered (transition : ExecutionRouteTransition) :
    (ExecutionRouteLifecycle × ExecutionRouteLifecycle) × Nat :=
  ((transition.fromStatus, transition.toStatus), transition.revision)

/-- The record of a route after these status changes. -/
structure RouteHistory (record : ExecutionRouteRecord)
    (changes : List (ExecutionRouteLifecycle × ExecutionRouteLifecycle)) : Prop where
  revision : record.revision = changes.length
  status : record.status = (changes.getLast?.map Prod.snd).getD .active
  history : record.history.map numbered = lastEntries (changes.zipIdx 1)
  chained : changes.IsChain fun a b => a.2 = b.1

/-- The route is being cleaned up, or is cleaned. -/
def isCleaning (status : ExecutionRouteLifecycle) : Bool :=
  status = .cleanupPending || status = .cleaned

/-- No submission and no schedule reservation uses the route. -/
structure Store.Vacant (s : Store) (route : String) : Prop where
  submission : s.submissions.All fun _ row => row.executionRoute ≠ route
  reservation : s.routeReferences route = ∅

def CleanupVacant (s : Store) : Prop :=
  ∀ route, isCleaning (s.routeState route).status = true → s.Vacant route

/-- Cleaning is final. -/
def CleanupAdvance (s t : Store) : Prop :=
  ∀ route, (isCleaning (s.routeState route).status = true →
      isCleaning (t.routeState route).status = true) ∧
    ((s.routeState route).status = .cleaned → (t.routeState route).status = .cleaned)

variable {host : Host} {e : Event} {s₀ s t : Store} {ctx : ControlPlaneContext} {route : String}

/-! ## Bounded histories -/

theorem length_lastEntries {α : Type} (xs : List α) :
    (lastEntries xs).length = min 64 xs.length := by
  unfold lastEntries
  rw [List.length_drop]
  omega

theorem map_lastEntries {α β : Type} (f : α → β) (xs : List α) :
    (lastEntries xs).map f = lastEntries (xs.map f) := by
  unfold lastEntries
  rw [List.map_drop, List.length_map]

/-- Truncating before an append makes no difference. -/
theorem lastEntries_append {α : Type} (xs : List α) (x : α) :
    lastEntries (lastEntries xs ++ [x]) = lastEntries (xs ++ [x]) := by
  have happend : (xs ++ [x]).drop (xs.length - 64) = xs.drop (xs.length - 64) ++ [x] :=
    List.drop_append_of_le_length (Nat.sub_le _ _)
  have hlength : xs.length - 64 + ((xs ++ [x]).length - (xs.length - 64) - 64) =
      (xs ++ [x]).length - 64 := by
    rw [List.length_append, List.length_singleton]
    omega
  unfold lastEntries
  rw [← happend, List.drop_drop, List.length_drop, hlength]

theorem isChain_zipIdx {α : Type} {R : α → α → Prop} {xs : List α} (h : xs.IsChain R) (n : Nat) :
    (xs.zipIdx n).IsChain fun a b => R a.1 b.1 ∧ b.2 = a.2 + 1 := by
  rw [List.isChain_iff_getElem] at h ⊢
  intro i hi
  have hlength : i + 1 < xs.length := by simpa using hi
  rw [List.getElem_zipIdx, List.getElem_zipIdx]
  exact ⟨h i hlength, by omega⟩

theorem routeHistory_initial : RouteHistory (.initial route) [] where
  revision := rfl
  status := rfl
  history := rfl
  chained := .nil

theorem RouteHistory.advance {record : ExecutionRouteRecord}
    {changes : List (ExecutionRouteLifecycle × ExecutionRouteLifecycle)}
    (h : RouteHistory record changes) (status : ExecutionRouteLifecycle) (at_ : Instant) :
    RouteHistory (advanceRoute ctx route record status at_)
      (changes ++ [(record.status, status)]) where
  revision := by
    rw [List.length_append, List.length_singleton, ← h.revision]
    rfl
  status := by simp [advanceRoute]
  history := by
    unfold advanceRoute
    rw [map_lastEntries, List.map_append, h.history, List.map_singleton, lastEntries_append,
      List.zipIdx_append, h.revision, Nat.add_comm changes.length 1]
    rfl
  chained := by
    refine List.isChain_append.mpr ⟨h.chained, .singleton _, fun last hlast first hfirst => ?_⟩
    rw [List.head?_singleton, Option.mem_some_iff] at hfirst
    rw [← hfirst, h.status, Option.mem_def.mp hlast]
    rfl

/-! ## One transition -/

theorem routeState_set (record : ExecutionRouteRecord) (route route' : String) :
    Store.routeState { s with
      executionRouteStates := s.executionRouteStates.set route record } route' =
        if route = route' then record else s.routeState route' := by
  unfold Store.routeState
  rw [Dict.get?_set]
  split <;> rfl

theorem allowed_changes {old new : ExecutionRouteLifecycle}
    (h : (old, new) ∈ ExecutionRouteLifecycle.allowed) : old ≠ new := by
  rintro rfl
  cases old <;> exact absurd h (by decide)

/-- What a transition does: it is refused, or it names the current revision and asks
for the current status or for a new one. -/
theorem transitionExecutionRouteState_spec (env : Env) (ctx : ControlPlaneContext)
    (route : String) (expectedRevision : Int) (text : String) (now : Option Instant) (s : Store) :
    (transitionExecutionRouteState env ctx route expectedRevision text now s).RefusedOr s fun t =>
      ((s.routeState route).revision : Int) = expectedRevision ∧
      ∃ status, ExecutionRouteLifecycle.ofText? text = some status ∧
        (status = (s.routeState route).status ∧ t = s ∨
          ((s.routeState route).status, status) ∈ ExecutionRouteLifecycle.allowed ∧
            transitionRefusal route status s = none ∧ t = { s with
              executionRouteStates := s.executionRouteStates.set route (advanceRoute ctx route
                (s.routeState route) status (now.getD (env.now [0]))) }) := by
  unfold transitionExecutionRouteState
  split
  · exact refusedOr_raise _ _ _
  · split
    · exact refusedOr_raise _ _ _
    · split
      · exact refusedOr_raise _ _ _
      · split
        · exact refusedOr_raise _ _ _
        · rename_i status hstatus
          dsimp only
          split
          · exact refusedOr_raise _ _ _
          · rename_i hrevision
            rw [ne_eq, not_not] at hrevision
            split
            · rename_i hsame
              exact refusedOr_ret _ ⟨hrevision, status, hstatus, .inl ⟨hsame, rfl⟩⟩
            · split
              · exact refusedOr_raise _ _ _
              · rename_i hallowed
                rw [not_not] at hallowed
                split
                · exact refusedOr_raise _ _ _
                · rename_i hrefusal
                  exact refusedOr_ret _
                    ⟨hrevision, status, hstatus, .inr ⟨hallowed, hrefusal, rfl⟩⟩

/-- Only transitions write the route states. -/
theorem next_routeStates (hs : Linked s) (hother : ∀ ctx route expectedRevision text now,
      e.call ≠ .transitionExecutionRouteState ctx route expectedRevision text now) :
    (next host s e).executionRouteStates = s.executionRouteStates := by
  refine (Runs.writes_related (I := fun _ => True)
    (R := fun s t => s.executionRouteStates = t.executionRouteStates) (fun _ => rfl)
    Eq.trans (fun _ _ _ _ => trivial) (fun a b _ hw => ?_) (next_writes hs) trivial).symm
  cases hw with
  | transitionRoute hcall hstatus hprefect hchanged hallowed hrefusal hsucceeded =>
      exact absurd hcall (hother _ _ _ _ _)
  | _ => rfl

/-- An event changes the status of the route, or leaves its record as it is. -/
theorem next_routeState (host : Host) (e : Event) (hs : Linked s) (route : String) :
    routeChange? host route s e = none ∧
        (next host s e).routeState route = s.routeState route ∨
      ∃ ctx status at_, routeChange? host route s e = some ((s.routeState route).status, status) ∧
        ((s.routeState route).status, status) ∈ ExecutionRouteLifecycle.allowed ∧
        transitionRefusal route status s = none ∧ next host s e = { s with
          executionRouteStates := s.executionRouteStates.set route
            (advanceRoute ctx route (s.routeState route) status at_) } := by
  by_cases hcall : ∃ ctx changed expectedRevision text now,
      e.call = .transitionExecutionRouteState ctx changed expectedRevision text now
  · obtain ⟨ctx, changed, expectedRevision, text, now, hcall⟩ := hcall
    have hnext : next host s e =
        (transitionExecutionRouteState e.env ctx changed expectedRevision text now s).store := by
      unfold next Event.outcome
      rw [hcall]
      rfl
    have hsucceeded : (e.outcome host s).succeeded =
        (transitionExecutionRouteState e.env ctx changed expectedRevision text now s).succeeded := by
      unfold Event.outcome
      rw [hcall]
      exact Outcome.void_succeeded _
    unfold routeChange?
    rw [hcall, hnext, hsucceeded]
    dsimp only
    rcases transitionExecutionRouteState_spec e.env ctx changed expectedRevision text now s with
      ⟨hfailed, hstore⟩ | ⟨hok, -, status, hstatus, ⟨hsame, hstore⟩ | ⟨hallowed, hrefusal, hstore⟩⟩
    · rw [hfailed, hstore]
      exact .inl ⟨by simp, rfl⟩
    · rw [hok, hstore, hstatus]
      refine .inl ⟨?_, rfl⟩
      split
      · rename_i hroute
        rw [← hroute.1, hsame]
        simp
      · rfl
    · rw [hok, hstore, hstatus]
      by_cases hroute : changed = route
      · subst hroute
        refine .inr ⟨ctx, status, _, ?_, hallowed, hrefusal, rfl⟩
        simp [(allowed_changes hallowed).symm]
      · exact .inl ⟨by simp [hroute], (routeState_set _ _ _).trans (if_neg hroute)⟩
  · push Not at hcall
    refine .inl ⟨?_, ?_⟩
    · unfold routeChange?
      split
      · rename_i hother
        exact absurd hother (hcall _ _ _ _ _)
      · rfl
    · unfold Store.routeState
      rw [next_routeStates hs hcall]

theorem reached_routeHistory (host : Host) (limit : Option Int) (route : String)
    (es : List Event) :
    RouteHistory ((reached host limit es).routeState route) (routeChanges host limit route es) := by
  have hstep : ∀ s e (seen : List (ExecutionRouteLifecycle × ExecutionRouteLifecycle)),
      Linked s ∧ RouteHistory (s.routeState route) seen → True → Linked (next host s e) ∧
        RouteHistory ((next host s e).routeState route)
          (seen ++ (routeChange? host route s e).toList) := by
    intro s e seen h _
    refine ⟨next_linked host e h.1, ?_⟩
    rcases next_routeState host e h.1 route with
      ⟨hnone, hsame⟩ | ⟨ctx, status, at_, hsome, -, -, hnext⟩
    · rw [hnone, hsame, Option.toList_none, List.append_nil]
      exact h.2
    · rw [hsome, hnext, routeState_set, if_pos rfl]
      exact h.2.advance status at_
  exact (Runs.invariant_observed
    (I := fun s seen => Linked s ∧ RouteHistory (s.routeState route) seen) hstep
    ⟨linked_init limit, routeHistory_initial⟩ (Runs.guarded_true _ es)).2

/-! ## Cleaning up -/

theorem CleanupAdvance.refl (s : Store) : CleanupAdvance s s := fun _ => ⟨id, id⟩

theorem CleanupAdvance.trans {u : Store} (h : CleanupAdvance s t) (h' : CleanupAdvance t u) :
    CleanupAdvance s u := fun route =>
  ⟨fun hclosed => (h' route).1 ((h route).1 hclosed),
    fun hcleaned => (h' route).2 ((h route).2 hcleaned)⟩

/-- The one way on from `cleanup_pending`, and none from `cleaned`. -/
theorem allowed_cleaning {old new : ExecutionRouteLifecycle}
    (h : (old, new) ∈ ExecutionRouteLifecycle.allowed) :
    (isCleaning old = true → isCleaning new = true) ∧ old ≠ .cleaned := by
  cases old <;> cases new <;> first | exact absurd h (by decide) | exact ⟨by decide, by decide⟩

/-- Cleaning starts with `cleanup_pending`. -/
theorem allowed_into_cleaning {old new : ExecutionRouteLifecycle}
    (h : (old, new) ∈ ExecutionRouteLifecycle.allowed) (hnew : isCleaning new = true) :
    new = .cleanupPending ∨ isCleaning old = true := by
  cases old <;> cases new <;>
    first | exact absurd h (by decide) | exact absurd hnew (by decide) | decide

theorem Write.cleanupAdvance (h : Write host e s₀ s t) : CleanupAdvance s t := by
  cases h with
  | transitionRoute hcall hstatus hprefect hchanged hallowed hrefusal hsucceeded =>
      intro route'
      rw [routeState_set]
      split
      · rename_i hroute
        subst hroute
        exact ⟨(allowed_cleaning hallowed).1, fun h => absurd h (allowed_cleaning hallowed).2⟩
      · exact ⟨id, id⟩
  | _ => exact fun _ => ⟨id, id⟩

theorem run_cleanupAdvance (host : Host) (es : List Event) (hs : Linked s) :
    CleanupAdvance s (run host s es) :=
  run_related (I := fun _ => True) CleanupAdvance.refl CleanupAdvance.trans
    (fun _ _ _ _ _ _ _ _ _ _ => trivial) (fun _ _ _ _ _ _ _ _ _ hw => hw.cleanupAdvance) hs
    trivial (Runs.guarded_true s es)

theorem Store.Vacant.setStatus (h : s.Vacant route) {k : Key} {row : SubmissionRecord}
    (hget : s.submissions.get? k = some row) (status : SubmissionStatus) :
    Store.Vacant { s with submissions := s.submissions.set k (row.withStatus status) } route :=
  ⟨h.submission.set (h.submission k row hget), h.reservation⟩

/-- An active route is not the one that is cleaned up. -/
theorem ne_of_active {active : String} (hactive : (s.routeState active).status = .active)
    (hclosed : isCleaning (s.routeState route).status = true) : active ≠ route := by
  rintro rfl
  rw [hactive] at hclosed
  cases hclosed

/-- A route enters `cleanup_pending` without submissions and reservations. -/
theorem vacant_of_allowed (h : transitionRefusal route .cleanupPending s = none) :
    s.Vacant route := by
  unfold transitionRefusal at h
  dsimp only at h
  rw [if_neg (by decide), if_pos rfl] at h
  split at h
  · cases h
  · rename_i hclear
    push Not at hclear
    obtain ⟨-, hsubmissions, hreservations⟩ := hclear
    have hcount : (s.submissions.count fun _ row => row.executionRoute = route) = 0 := hsubmissions
    exact ⟨fun k row hget => of_decide_eq_false (Dict.count_eq_zero.mp hcount k row hget),
      Finset.card_eq_zero.mp hreservations⟩

theorem Write.cleanupVacant (hs : CleanupVacant s) (h : Write host e s₀ s t) :
    CleanupVacant t := by
  intro route' hclosed
  cases h with
  | accept hcall hid hnew hidem hvalid hroute hlimit =>
      have hvacant := hs route' hclosed
      exact ⟨hvacant.submission.set (ne_of_active hroute hclosed), hvacant.reservation⟩
  | publish hcall hscope hrow hunpublished hget haccepted =>
      have hnext := (hs route' hclosed).setStatus hget .dispatched
      exact ⟨hnext.submission, hnext.reservation⟩
  | requestCancel hcall hscope hget hlive => exact (hs route' hclosed).setStatus hget _
  | finishAttempt hcall hstatus hk hattempt hrunning hget hfence =>
      rename_i status k attempt submission at_
      have hnext := (hs route' hclosed).setStatus hget (finishStatuses status submission).2
      exact ⟨hnext.submission, hnext.reservation⟩
  | cancelSubmission hget hrequested hidle hready => exact (hs route' hclosed).setStatus hget _
  | reserveReference hprefect hroute =>
      have hvacant := hs route' hclosed
      refine ⟨hvacant.submission, ?_⟩
      unfold Store.routeReferences
      rw [Dict.get?_set_ne _ _ (ne_of_active hroute hclosed)]
      exact hvacant.reservation
  | releaseReferences hsub =>
      have hvacant := hs route' hclosed
      exact ⟨hvacant.submission,
        Finset.subset_empty.mp ((hsub route').trans hvacant.reservation.subset)⟩
  | transitionRoute hcall hstatus hprefect hchanged hallowed hrefusal hsucceeded =>
      rw [routeState_set] at hclosed
      split at hclosed
      · rename_i hroute
        subst hroute
        rcases allowed_into_cleaning hallowed hclosed with rfl | hbefore
        · have hvacant := vacant_of_allowed hrefusal
          exact ⟨hvacant.submission, hvacant.reservation⟩
        · have hvacant := hs _ hbefore
          exact ⟨hvacant.submission, hvacant.reservation⟩
      · have hvacant := hs route' hclosed
        exact ⟨hvacant.submission, hvacant.reservation⟩
  | _ => exact ⟨(hs route' hclosed).submission, (hs route' hclosed).reservation⟩

theorem cleanupVacant_init (limit : Option Int) : CleanupVacant (Store.init limit) :=
  fun _ hclosed => nomatch hclosed

theorem reached_cleanupVacant (host : Host) (limit : Option Int) (es : List Event) :
    CleanupVacant (reached host limit es) :=
  (run_invariant (I := CleanupVacant) (fun _ _ _ _ _ _ _ _ hI hw => hw.cleanupVacant hI)
    (linked_init limit) (cleanupVacant_init limit) (Runs.guarded_true _ es)).2

theorem Store.Vacant.referenceCounts (h : s.Vacant route) :
    s.executionRouteReferenceCounts route = ⟨0, 0⟩ := by
  have hsubmissions : (s.submissions.count fun _ row => row.executionRoute = route) = 0 :=
    Dict.count_eq_zero.mpr fun k row hget => decide_eq_false (h.submission k row hget)
  unfold Store.executionRouteReferenceCounts
  rw [hsubmissions, h.reservation]
  rfl

/-- The revision of a route counts its status changes, and its history is the last 64
of them, numbered and linked; a transition names the current revision; from
`cleanup_pending` on the route has no submission and no reservation, ever, and
`cleaned` is final. -/
theorem route_lifecycle (host : Host) (limit : Option Int) (es : List Event) :
    (∀ route, ((reached host limit es).routeState route).revision =
        (routeChanges host limit route es).length ∧
      ((reached host limit es).routeState route).history.map numbered =
        lastEntries ((routeChanges host limit route es).zipIdx 1) ∧
      ((reached host limit es).routeState route).history.length =
        min 64 ((reached host limit es).routeState route).revision ∧
      ((reached host limit es).routeState route).history.IsChain fun earlier later =>
        later.revision = earlier.revision + 1 ∧ later.fromStatus = earlier.toStatus) ∧
    (∀ env ctx route expectedRevision text now,
      (transitionExecutionRouteState env ctx route expectedRevision text now
        (reached host limit es)).succeeded = true →
      (((reached host limit es).routeState route).revision : Int) = expectedRevision) ∧
    (∀ route, ((reached host limit es).routeState route).status = .cleaned →
      ∀ es', ((reached host limit (es ++ es')).routeState route).status = .cleaned) ∧
    ∀ route, isCleaning ((reached host limit es).routeState route).status = true →
      ∀ es', (reached host limit (es ++ es')).executionRouteReferenceCounts route = ⟨0, 0⟩ := by
  have hadvance := fun es' => run_cleanupAdvance host es' (reached_linked host limit es)
  refine ⟨fun route => ?_, ?_, fun route hcleaned es' => ?_, fun route hclosed es' => ?_⟩
  · have h := reached_routeHistory host limit route es
    refine ⟨h.revision, h.history, ?_, ?_⟩
    · have hlength := congrArg List.length h.history
      rwa [List.length_map, length_lastEntries, List.length_zipIdx, ← h.revision] at hlength
    · have hchain := (isChain_zipIdx h.chained 1).drop
        (((routeChanges host limit route es).zipIdx 1).length - 64)
      rw [show List.drop _ _ = _ from h.history.symm, List.isChain_map] at hchain
      exact hchain.imp fun _ _ hlinked => ⟨hlinked.2, hlinked.1.symm⟩
  · intro env ctx route expectedRevision text now hsucceeded
    rcases transitionExecutionRouteState_spec env ctx route expectedRevision text now
      (reached host limit es) with
      ⟨hfailed, -⟩ | ⟨-, hrevision, -⟩
    · rw [hsucceeded] at hfailed
      cases hfailed
    · exact hrevision
  · rw [reached_append]
    exact (hadvance es' route).2 hcleaned
  · refine (reached_cleanupVacant host limit (es ++ es') route ?_).referenceCounts
    rw [reached_append]
    exact (hadvance es' route).1 hclosed

section Sample

/-- The sample route walks down its lifecycle. -/
def cleanedRoute : List Event :=
  [⟨sampleEnv 'a' 0, .transitionExecutionRouteState sampleContext sampleRoute 0 "draining" none⟩,
    ⟨sampleEnv 'b' 1, .transitionExecutionRouteState sampleContext sampleRoute 1 "retired" none⟩,
    ⟨sampleEnv 'c' 2,
      .transitionExecutionRouteState sampleContext sampleRoute 2 "cleanup_pending" none⟩,
    ⟨sampleEnv 'd' 3, .transitionExecutionRouteState sampleContext sampleRoute 3 "cleaned" none⟩]

/-- Work that arrives after the route was cleaned is refused. -/
def lateWork : List Event :=
  [⟨sampleEnv 'e' 4, .accept sampleContext (sampleAccept "a" sampleRoute none)⟩,
    ⟨sampleEnv 'f' 5, .reserveExecutionRouteReference sampleRoute "nightly"⟩]

theorem route_lifecycle_cleaned :
    ((reached sampleHost none (cleanedRoute ++ lateWork)).routeState sampleRoute).status =
        .cleaned ∧
      (reached sampleHost none (cleanedRoute ++ lateWork)).executionRouteReferenceCounts
        sampleRoute = ⟨0, 0⟩ := by
  obtain ⟨-, -, hcleaned, hvacant⟩ := route_lifecycle sampleHost none cleanedRoute
  exact ⟨hcleaned sampleRoute (by decide) lateWork,
    hvacant sampleRoute (by decide) lateWork⟩

end Sample

end Etlantic.ControlPlane.Durable
