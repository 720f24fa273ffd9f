import Etlantic.Base.Evolves
import Etlantic.ControlPlane.Durable.Ledger

/-!
# Generations of a dispatch

Every remote create of a submission belongs to a generation of its dispatch, and
the creation key tells the generations apart.  A generation ends only while no
execution of the submission began, its remote run never changes, and past the
third one every further generation was authorized by an operator.
-/

namespace Etlantic.ControlPlane.Durable

/-- A remote run is known only once the delivery is settled, and the creation key
is the one of the record's generation. -/
def DispatchSound (host : Host) (s : Store) : Prop :=
  s.dispatches.All fun k record =>
    (record.remoteRunId ≠ none → record.status.isSettled = true) ∧
      record.creationKey = dispatchCreationKey host k record.bindingFingerprint record.generation

/-- The submission has no attempt, effect or result publication. -/
structure Store.Unbegun (s : Store) (k : Key) : Prop where
  attempt : ∀ attemptKey attempt, s.attempts.get? attemptKey = some attempt →
    ¬ (attemptKey.scope = k.scope ∧ attempt.submissionId = k.id)
  effect : ∀ effectKey effect, s.effects.get? effectKey = some effect →
    ¬ (effectKey.scope = k.scope ∧ effect.submissionId = k.id)
  publication : ∀ publicationKey publication,
    s.resultPublications.get? publicationKey = some publication →
      ¬ (publicationKey.scope = k.scope ∧ publicationKey.submissionId = k.id)

/-- The dispatch keeps its generation and its remote run. -/
def SameGeneration (before after : DispatchRecord) : Prop :=
  after.generation = before.generation ∧
    ∀ remote, before.remoteRunId = some remote → after.remoteRunId = some remote

/-- What one call does to the dispatches: each stays in its generation, or starts
the next one because no execution began. -/
def DispatchesStep (s t : Store) : Prop :=
  ∀ k before, s.dispatches.get? k = some before → ∃ after, t.dispatches.get? k = some after ∧
    (SameGeneration before after ∨
      after.generation = before.generation + 1 ∧ s.executionBegan k = false)

/-- What a run does to the dispatches. -/
def DispatchesAdvance (s t : Store) : Prop :=
  ∀ k before, s.dispatches.get? k = some before → ∃ after, t.dispatches.get? k = some after ∧
    (SameGeneration before after ∨ before.generation < after.generation)

/-- The key of a dispatch that an operator rearmed by this event. -/
def operatorRearm? (host : Host) (s : Store) (e : Event) : Option Key :=
  match e.call with
  | .rearmReconciliationRequiredDispatch ctx submissionId _ _ _ _ _ =>
      if (e.outcome host s).succeeded then some (key ctx submissionId) else none
  | _ => none

/-- The operator rearms of a run, in order. -/
def operatorRearms (host : Host) (limit : Option Int) (es : List Event) : List Key :=
  Runs.observe (next host) (operatorRearm? host) (Store.init limit) es

variable {host : Host} {e : Event} {s₀ s t u : Store} {ctx : ControlPlaneContext} {k : Key}

/-! ## The creation key -/

theorem creationIdentity_inj {k k' : Key} {binding binding' : String}
    {generation generation' : Nat}
    (h : creationIdentity k binding generation = creationIdentity k' binding' generation') :
    k = k' ∧ binding = binding' ∧ generation = generation' := by
  have htext := congrArg String.toList h
  simp only [creationIdentity, Json.dumps, String.toList_ofList, Json.render, Json.renderItems,
    Json.commaSep, List.cons_append, List.append_assoc, List.cons.injEq, true_and] at htext
  obtain ⟨htenant, htext⟩ := Json.quote_append_inj Json.escapeAscii_selfDelimiting htext
  simp only [List.cons.injEq, true_and] at htext
  obtain ⟨hworkspace, htext⟩ := Json.quote_append_inj Json.escapeAscii_selfDelimiting htext
  simp only [List.cons.injEq, true_and] at htext
  obtain ⟨hid, htext⟩ := Json.quote_append_inj Json.escapeAscii_selfDelimiting htext
  simp only [List.cons.injEq, true_and] at htext
  obtain ⟨hbinding, htext⟩ := Json.quote_append_inj Json.escapeAscii_selfDelimiting htext
  simp only [List.cons.injEq, true_and] at htext
  have hgeneration := Json.toString_natCast_inj (List.append_cancel_right htext)
  obtain ⟨⟨tenant, workspace⟩, id⟩ := k
  obtain ⟨⟨tenant', workspace'⟩, id'⟩ := k'
  simp_all

theorem dispatchCreationKey_inj (hinjective : Function.Injective host.sha256) {k k' : Key}
    {binding binding' : String} {generation generation' : Nat}
    (h : dispatchCreationKey host k binding generation =
      dispatchCreationKey host k' binding' generation') :
    k = k' ∧ binding = binding' ∧ generation = generation' :=
  creationIdentity_inj (hinjective ((String.append_right_inj _).mp h))

/-! ## Sound records -/

theorem dispatchSound_init (limit : Option Int) : DispatchSound host (Store.init limit) :=
  Dict.all_empty _

theorem isUnclaimable_unsettled {record : DispatchRecord} {submission : SubmissionRecord}
    {current : Instant} (h : isUnclaimable record submission current = false) :
    record.status.isSettled = false := by
  unfold isUnclaimable at h
  simp only [Bool.or_eq_false_iff] at h
  exact h.1.1.1

/-- Before it is settled a delivery has no remote run. -/
theorem DispatchSound.unlinked (hs : DispatchSound host s) {record : DispatchRecord}
    (hget : s.dispatches.get? k = some record) (hopen : record.status.isSettled = false) :
    record.remoteRunId = none := by
  by_contra hlinked
  rw [(hs k record hget).1 hlinked] at hopen
  cases hopen

theorem leased_unsettled {record : DispatchRecord} (h : record.status = .leased) :
    record.status.isSettled = false := by
  rw [h]
  rfl

theorem Write.dispatchSound (hs : DispatchSound host s) (h : Write host e s₀ s t) :
    DispatchSound host t := by
  cases h with
  | cancelDispatch hget hopen => exact Dict.All.set hs ⟨fun _ => rfl, (hs _ _ hget).2⟩
  | prepareDispatch hcall hget hnew =>
      exact Dict.All.set hs ⟨fun hlinked => absurd rfl hlinked, rfl⟩
  | claimDispatch hcall hscope hrecord hget hclaimable howner hseconds =>
      have hunlinked := hs.unlinked hrecord (isUnclaimable_unsettled hclaimable)
      exact Dict.All.set hs ⟨fun hlinked => absurd hunlinked hlinked, (hs _ _ hrecord).2⟩
  | linkDispatch hcall hscope hrecord hleased =>
      exact Dict.All.set hs ⟨fun _ => rfl, (hs _ _ hrecord).2⟩
  | releaseDispatch hcall hscope hrecord hleased =>
      have hunlinked := hs.unlinked hrecord (leased_unsettled hleased)
      exact Dict.All.set hs ⟨fun hlinked => absurd hunlinked hlinked, (hs _ _ hrecord).2⟩
  | rearmDispatch hcall hrecord hget hdispatched haccepted hunbegun hbound =>
      exact Dict.All.set hs ⟨fun hlinked => absurd rfl hlinked, rfl⟩
  | exhaustDispatch hrecord hget hdispatched haccepted =>
      exact Dict.All.set hs ⟨fun _ => rfl, (hs _ _ hrecord).2⟩
  | rearmReconciled hcall hscope hsucceeded hrecord hget hrequired haccepted hactive hunbegun =>
      exact Dict.All.set hs ⟨fun hlinked => absurd rfl hlinked, rfl⟩
  | _ => exact hs

theorem reached_dispatchSound (host : Host) (limit : Option Int) (es : List Event) :
    DispatchSound host (reached host limit es) :=
  (run_invariant (I := DispatchSound host) (fun _ _ _ _ _ _ _ _ hI hw => hw.dispatchSound hI)
    (linked_init limit) (dispatchSound_init limit) (Runs.guarded_true _ es)).2

/-! ## One call -/

theorem SameGeneration.refl (record : DispatchRecord) : SameGeneration record record :=
  ⟨rfl, fun _ h => h⟩

theorem SameGeneration.trans {a b c : DispatchRecord} (h : SameGeneration a b)
    (h' : SameGeneration b c) : SameGeneration a c :=
  ⟨h'.1.trans h.1, fun remote hlinked => h'.2 remote (h.2 remote hlinked)⟩

theorem DispatchesStep.refl (s : Store) : DispatchesStep s s :=
  fun _ record h => ⟨record, h, .inl (.refl record)⟩

/-- A write inside a generation, after the writes before it. -/
theorem DispatchesStep.keep (h : DispatchesStep s₀ s) {record record' : DispatchRecord}
    (hget : s.dispatches.get? k = some record) (hsame : SameGeneration record record') :
    DispatchesStep s₀ { s with dispatches := s.dispatches.set k record' } := by
  intro k' before hbefore
  obtain ⟨middle, hmiddle, hstep⟩ := h k' before hbefore
  by_cases hk : k = k'
  · subst hk
    obtain rfl : record = middle := Option.some.inj (hget.symm.trans hmiddle)
    refine ⟨record', Dict.get?_set_self _ _ _, ?_⟩
    rcases hstep with hkept | ⟨hnext, hunbegun⟩
    · exact .inl (hkept.trans hsame)
    · exact .inr ⟨hsame.1.trans hnext, hunbegun⟩
  · exact ⟨middle, (Dict.get?_set_ne _ _ hk).trans hmiddle, hstep⟩

/-- The next generation, from the store of the call. -/
theorem dispatchesStep_rearm {record record' : DispatchRecord}
    (hget : s.dispatches.get? k = some record) (hnext : record'.generation = record.generation + 1)
    (hunbegun : s.executionBegan k = false) :
    DispatchesStep s { s with dispatches := s.dispatches.set k record' } := by
  intro k' before hbefore
  by_cases hk : k = k'
  · subst hk
    obtain rfl : record = before := Option.some.inj (hget.symm.trans hbefore)
    exact ⟨record', Dict.get?_set_self _ _ _, .inr ⟨hnext, hunbegun⟩⟩
  · exact ⟨before, (Dict.get?_set_ne _ _ hk).trans hbefore, .inl (.refl before)⟩

theorem Write.dispatchesStep (hsound : DispatchSound host s₀) (hs : DispatchesStep s₀ s)
    (h : Write host e s₀ s t) : DispatchesStep s₀ t := by
  cases h with
  | cancelDispatch hget hopen => exact hs.keep hget (.refl _)
  | prepareDispatch hcall hget hnew =>
      intro k before hbefore
      exact ⟨before, Dict.get?_set_fresh hnew hbefore, .inl (.refl before)⟩
  | claimDispatch hcall hscope hrecord hget hclaimable howner hseconds => exact hs.keep hrecord ⟨rfl, fun _ h => h⟩
  | linkDispatch hcall hscope hrecord hleased =>
      have hunlinked := hsound.unlinked hrecord (leased_unsettled hleased)
      exact hs.keep hrecord ⟨rfl, fun remote hlinked => nomatch hunlinked.symm.trans hlinked⟩
  | releaseDispatch hcall hscope hrecord hleased => exact hs.keep hrecord ⟨rfl, fun _ h => h⟩
  | rearmDispatch hcall hrecord hget hdispatched haccepted hunbegun hbound =>
      exact dispatchesStep_rearm hrecord rfl hunbegun
  | exhaustDispatch hrecord hget hdispatched haccepted => exact hs.keep hrecord ⟨rfl, fun _ h => h⟩
  | rearmReconciled hcall hscope hsucceeded hrecord hget hrequired haccepted hactive hunbegun =>
      exact dispatchesStep_rearm hrecord rfl hunbegun
  | _ => exact hs

theorem next_dispatchesStep (hs : Linked s) (hsound : DispatchSound host s) :
    DispatchesStep s (next host s e) :=
  Runs.writes_invariant (I := DispatchesStep s) (fun _ _ hstep hw => hw.dispatchesStep hsound hstep)
    (next_writes hs) (.refl s)

theorem Linked.unbegun (hs : Linked s) (h : s.executionBegan k = false) : s.Unbegun k := by
  unfold Store.executionBegan at h
  simp only [Bool.or_eq_false_iff] at h
  obtain ⟨⟨hattempt, heffect⟩, hpublication⟩ := h
  constructor
  · rintro attemptKey attempt hget ⟨hscope, hid⟩
    have hnot := Dict.any_eq_false.mp hattempt attemptKey attempt hget
    simp [hid, (hs.attempt _ _ hget).1, hscope] at hnot
  · rintro effectKey effect hget ⟨hscope, hid⟩
    have hnot := Dict.any_eq_false.mp heffect effectKey effect hget
    simp [hid, (hs.effect _ _ hget).2.1, hscope] at hnot
  · rintro publicationKey publication hget ⟨hscope, hid⟩
    have hnot := Dict.any_eq_false.mp hpublication publicationKey publication hget
    simp [(hs.publication _ _ hget).1, hid, (hs.publication _ _ hget).2.1, hscope] at hnot

/-! ## Runs -/

theorem DispatchesAdvance.refl (s : Store) : DispatchesAdvance s s :=
  Dict.Evolves.refl (fun record => .inl (.refl record)) _

theorem DispatchesAdvance.trans (h : DispatchesAdvance s t) (h' : DispatchesAdvance t u) :
    DispatchesAdvance s u := by
  refine Dict.Evolves.trans (fun before middle after hfirst hsecond => ?_) h h'
  rcases hfirst with hkept | hlt <;> rcases hsecond with hkept' | hlt'
  · exact .inl (hkept.trans hkept')
  · exact .inr (hkept.1 ▸ hlt')
  · exact .inr (hkept'.1 ▸ hlt)
  · exact .inr (hlt.trans hlt')

theorem DispatchesStep.advance (h : DispatchesStep s t) : DispatchesAdvance s t := by
  intro k before hbefore
  obtain ⟨after, hafter, hstep⟩ := h k before hbefore
  refine ⟨after, hafter, ?_⟩
  rcases hstep with hkept | ⟨hnext, -⟩
  · exact .inl hkept
  · exact .inr (by omega)

theorem run_dispatchesAdvance (es : List Event) (hs : Linked s) (hsound : DispatchSound host s) :
    DispatchesAdvance s (run host s es) := by
  refine Runs.related (I := fun s => Linked s ∧ DispatchSound host s) DispatchesAdvance.refl
    DispatchesAdvance.trans (fun s e h _ => ?_) (fun s e h _ => ?_) ⟨hs, hsound⟩
    (Runs.guarded_true s es)
  · exact ⟨next_linked host e h.1, Runs.writes_invariant (fun _ _ hI hw => hw.dispatchSound hI)
      (next_writes h.1) h.2⟩
  · exact (next_dispatchesStep h.1 h.2).advance

/-- Generations past the third one were authorized: each write stays within the
bound that the rearms so far allow. -/
theorem Write.generation_le {before after : Key → Nat}
    (hoperator : ∀ k, operatorRearm? host s₀ e = some k → before k + 1 ≤ after k)
    (hs₀ : s₀.dispatches.All fun k record => record.generation ≤ maxDispatchGenerations + before k)
    (hs : s.dispatches.All fun k record => record.generation ≤ maxDispatchGenerations + after k)
    (h : Write host e s₀ s t) :
    t.dispatches.All fun k record => record.generation ≤ maxDispatchGenerations + after k := by
  cases h with
  | cancelDispatch hget hopen =>
      have hbound := hs _ _ hget
      exact Dict.All.set hs hbound
  | prepareDispatch hcall hget hnew =>
      exact Dict.All.set hs (le_trans (show 1 ≤ maxDispatchGenerations by decide)
        (Nat.le_add_right _ _))
  | claimDispatch hcall hscope hrecord hget hclaimable howner hseconds =>
      have hbound := hs _ _ hrecord
      exact Dict.All.set hs hbound
  | linkDispatch hcall hscope hrecord hleased =>
      have hbound := hs _ _ hrecord
      exact Dict.All.set hs hbound
  | releaseDispatch hcall hscope hrecord hleased =>
      have hbound := hs _ _ hrecord
      exact Dict.All.set hs hbound
  | rearmDispatch hcall hrecord hget hdispatched haccepted hunbegun hbound =>
      exact Dict.All.set hs (le_trans (Nat.succ_le_of_lt hbound) (Nat.le_add_right _ _))
  | exhaustDispatch hrecord hget hdispatched haccepted =>
      have hbound := hs _ _ hrecord
      exact Dict.All.set hs hbound
  | rearmReconciled hcall hscope hsucceeded hrecord hget hrequired haccepted hactive hunbegun =>
      rename_i ctx k _ _ _ _ _ record _ _ _ _
      have hcounted : operatorRearm? host s₀ e = some k := by
        unfold operatorRearm?
        rw [hcall]
        dsimp only
        rw [if_pos hsucceeded, key, ← hscope]
      have hbound := hs₀ _ _ hrecord
      have hnext : record.generation + 1 ≤ maxDispatchGenerations + after k := by
        have hallowed := hoperator k hcounted
        omega
      exact Dict.All.set hs hnext
  | _ => exact hs

/-- The dispatches of a store against the operator rearms seen so far. -/
def GenerationsBounded (s : Store) (seen : List Key) : Prop :=
  s.dispatches.All fun k record => record.generation ≤ maxDispatchGenerations + seen.count k

theorem next_generationsBounded {seen : List Key} (hs : Linked s) (h : GenerationsBounded s seen) :
    GenerationsBounded (next host s e) (seen ++ (operatorRearm? host s e).toList) := by
  have hgrow : ∀ k, seen.count k ≤ (seen ++ (operatorRearm? host s e).toList).count k := by
    intro k
    rw [List.count_append]
    omega
  have hoperator : ∀ k, operatorRearm? host s e = some k →
      seen.count k + 1 ≤ (seen ++ (operatorRearm? host s e).toList).count k := by
    intro k hcounted
    rw [hcounted, List.count_append]
    simp
  have hstart : GenerationsBounded s (seen ++ (operatorRearm? host s e).toList) :=
    Dict.All.mono h fun k _ hbound => hbound.trans (Nat.add_le_add_left (hgrow k) _)
  exact Runs.writes_invariant
    (I := fun t => GenerationsBounded t (seen ++ (operatorRearm? host s e).toList))
    (fun _ _ hI hw => hw.generation_le hoperator h hI) (next_writes hs) hstart

theorem reached_generationsBounded (host : Host) (limit : Option Int) (es : List Event) :
    GenerationsBounded (reached host limit es) (operatorRearms host limit es) := by
  have hstep : ∀ s e (seen : List Key), Linked s ∧ GenerationsBounded s seen → True →
      Linked (next host s e) ∧
        GenerationsBounded (next host s e) (seen ++ (operatorRearm? host s e).toList) :=
    fun s e seen h _ => ⟨next_linked host e h.1, next_generationsBounded h.1 h.2⟩
  have hinit : GenerationsBounded (Store.init limit) [] := Dict.all_empty _
  exact (Runs.invariant_observed (I := fun s seen => Linked s ∧ GenerationsBounded s seen) hstep
    ⟨linked_init limit, hinit⟩ (Runs.guarded_true _ es)).2

/-- Along every run a dispatch moves through its generations one by one, and only
while no execution of its submission began; a generation has one remote run; the
creation key is the digest of the generation's identity, so that two generations
never share one; past the third generation each was authorized by an operator. -/
theorem dispatch_generations (host : Host) (limit : Option Int) (es : List Event) :
    (∀ e k before, (reached host limit es).dispatches.get? k = some before →
      ∃ after, (reached host limit (es ++ [e])).dispatches.get? k = some after ∧
        (after.generation = before.generation ∨
          after.generation = before.generation + 1 ∧ (reached host limit es).Unbegun k)) ∧
    (∀ es' k before, (reached host limit es).dispatches.get? k = some before →
      ∃ after, (reached host limit (es ++ es')).dispatches.get? k = some after ∧
        before.generation ≤ after.generation ∧
        (after.generation = before.generation → ∀ remote remote',
          before.remoteRunId = some remote → after.remoteRunId = some remote' →
            remote = remote')) ∧
    (∀ k record, (reached host limit es).dispatches.get? k = some record →
      record.creationKey =
        dispatchCreationKey host k record.bindingFingerprint record.generation ∧
      record.generation ≤ 3 + (operatorRearms host limit es).count k) ∧
    (Function.Injective host.sha256 → ∀ es' k k' record record',
      (reached host limit es).dispatches.get? k = some record →
      (reached host limit es').dispatches.get? k' = some record' →
      record.creationKey = record'.creationKey →
        k = k' ∧ record.generation = record'.generation) := by
  have hlinked : Linked (reached host limit es) := reached_linked host limit es
  have hsound : DispatchSound host (reached host limit es) := reached_dispatchSound host limit es
  refine ⟨?_, ?_, ?_, ?_⟩
  · intro e k before hbefore
    rw [reached_append]
    obtain ⟨after, hafter, hstep⟩ := next_dispatchesStep hlinked hsound k before hbefore
    refine ⟨after, hafter, ?_⟩
    rcases hstep with hkept | ⟨hnext, hunbegun⟩
    · exact .inl hkept.1
    · exact .inr ⟨hnext, hlinked.unbegun hunbegun⟩
  · intro es' k before hbefore
    rw [reached_append]
    obtain ⟨after, hafter, hadvance⟩ := run_dispatchesAdvance es' hlinked hsound k before hbefore
    refine ⟨after, hafter, ?_⟩
    rcases hadvance with hkept | hlt
    · refine ⟨hkept.1.ge, fun _ remote remote' hremote hremote' => ?_⟩
      exact Option.some.inj ((hkept.2 remote hremote).symm.trans hremote')
    · exact ⟨hlt.le, fun hsame => absurd hsame hlt.ne'⟩
  · exact fun k record hget =>
      ⟨(hsound k record hget).2, reached_generationsBounded host limit es k record hget⟩
  · intro hinjective es' k k' record record' hget hget' hsame
    rw [(hsound k record hget).2, (reached_dispatchSound host limit es' k' record' hget').2] at hsame
    obtain ⟨hk, -, hgeneration⟩ := dispatchCreationKey_inj hinjective hsame
    exact ⟨hk, hgeneration⟩

section Sample

/-- A digest that is known for some texts and marks the others. -/
def digestBy (digests : List (String × String)) (text : String) : String :=
  match digests.find? (fun d => d.1 = text) with
  | some d => d.2
  | none => "~" ++ text

theorem digestBy_cons_self (text digest : String) (rest : List (String × String)) :
    digestBy ((text, digest) :: rest) text = digest := by
  simp [digestBy]

theorem digestBy_cons_ne {other text : String} (h : other ≠ text) (digest : String)
    (rest : List (String × String)) :
    digestBy ((other, digest) :: rest) text = digestBy rest text := by
  simp [digestBy, h]

theorem digestBy_injective {digests : List (String × String)}
    (hdistinct : (digests.map Prod.snd).Nodup)
    (hhead : ∀ d ∈ digests, d.2.toList.head? ≠ some '~') : Function.Injective (digestBy digests) := by
  have hmarked : ∀ d ∈ digests, ∀ text, d.2 ≠ "~" ++ text := by
    intro d hd text heq
    refine hhead d hd ?_
    rw [heq, String.toList_append]
    rfl
  have hfound : ∀ {text : String} {d : String × String},
      digests.find? (fun d => d.1 = text) = some d → d ∈ digests ∧ d.1 = text :=
    fun h => ⟨List.mem_of_find?_eq_some h, by simpa using List.find?_some h⟩
  intro a b h
  unfold digestBy at h
  cases ha : digests.find? (fun d => d.1 = a) with
  | none =>
      cases hb : digests.find? (fun d => d.1 = b) with
      | none =>
          simp only [ha, hb] at h
          exact (String.append_right_inj _).mp h
      | some d =>
          simp only [ha, hb] at h
          exact absurd h.symm (hmarked d (hfound hb).1 a)
  | some d =>
      cases hb : digests.find? (fun d => d.1 = b) with
      | none =>
          simp only [ha, hb] at h
          exact absurd h (hmarked d (hfound ha).1 b)
      | some d' =>
          simp only [ha, hb] at h
          obtain rfl := List.inj_on_of_nodup_map hdistinct (hfound ha).1 (hfound hb).1 h
          exact (hfound ha).2.symm.trans (hfound hb).2

theorem sampleSha256_injective : Function.Injective sampleSha256 :=
  have hdistinct : (sampleDigests.map Prod.snd).Nodup := by decide
  digestBy_injective hdistinct (by decide)

/-- The host accepts the text as the canonical envelope of the plan. -/
structure ValidEnvelope (host : Host) (envelope plan : String) : Prop where
  accepted : host.executionEnvelope envelope = .ok ⟨plan, some planSchemaTag, envelope⟩
  nonEmpty : envelope ≠ ""
  plan : isBlank plan = false

theorem hostAccepting_accepts (envelope plan : String) :
    (hostAccepting envelope plan).executionEnvelope envelope =
      .ok ⟨plan, some planSchemaTag, envelope⟩ :=
  if_pos rfl

theorem dumps_obj_ne_empty (escape : Char → List Char) (fields : List (String × Json)) :
    (Json.obj fields).dumps escape ≠ "" := by
  intro h
  have htext := congrArg String.toList h
  simp [Json.dumps, Json.render] at htext

theorem sampleEnvelope_nonEmpty : sampleEnvelope ≠ "" := dumps_obj_ne_empty _ _

theorem sampleEnvelope_valid : ValidEnvelope sampleHost sampleEnvelope samplePlanSha256 where
  accepted := hostAccepting_accepts sampleEnvelope samplePlanSha256
  nonEmpty := sampleEnvelope_nonEmpty
  plan := by decide

theorem sampleRoute_valid : isExecutionRoute sampleRoute = true := by decide

theorem sampleRoute_prefect : isPrefectRoute sampleRoute = true := by decide

/-- An acceptance on the sample route, and its dispatch prepared. -/
def remoteAccept (envelope plan : String) : AcceptRequest :=
  { sampleAccept "a" sampleRoute (some envelope) with planFingerprint := plan }

def preparedRun (envelope plan : String) : List Event :=
  [⟨sampleEnv 'a' 0, .accept sampleContext (remoteAccept envelope plan)⟩,
    ⟨sampleEnv 'b' 1, .prepareDispatch sampleContext "a"⟩]

variable (host : Host) (envelope plan : String)

def remoteSubmission : SubmissionRecord :=
  acceptedSubmission sampleContext (remoteAccept envelope plan)
    { requestedInputs host sampleContext (remoteAccept envelope plan) with
      inputSnapshot := some envelope } "a" (seconds 0)

def remoteDispatch : DispatchRecord :=
  preparedDispatch host sampleContext (remoteSubmission host envelope plan) "a" envelope (seconds 1)
    sampleRoute_valid sampleRoute_prefect

def preparedStore : Store :=
  { (insertAcceptance host (sampleEnv 'a' 0) sampleContext (remoteAccept envelope plan) "a"
      (Store.init none)).store with
    submissions := Dict.empty.set (key sampleContext "a") (remoteSubmission host envelope plan)
    dispatches := Dict.empty.set (key sampleContext "a") (remoteDispatch host envelope plan) }

variable {host envelope plan}

theorem reached_preparedRun (h : ValidEnvelope host envelope plan) :
    reached host none (preparedRun envelope plan) = preparedStore host envelope plan := by
  have hinputs : requestedInputs host sampleContext (remoteAccept envelope plan) =
      { requestedInputs host sampleContext (remoteAccept envelope plan) with
        inputSnapshot := some envelope } := by
    simp [requestedInputs, redactOrPreserveExecutionEnvelope, remoteAccept, sampleAccept, h.accepted]
  have hvalid : (remoteAccept envelope plan).invalid = none := by
    simp only [AcceptRequest.invalid, remoteAccept, sampleAccept, h.plan, sampleRoute_valid]
    decide
  have haccept : accept host (sampleEnv 'a' 0) sampleContext (remoteAccept envelope plan)
      (Store.init none) = insertAcceptance host (sampleEnv 'a' 0) sampleContext
        (remoteAccept envelope plan) "a" (Store.init none) := by
    unfold accept
    rw [hvalid]
    rfl
  have hprepare : ∀ s : Store, s.submissions.get? (key sampleContext "a") =
      some (remoteSubmission host envelope plan) → s.dispatches = Dict.empty →
      (prepareDispatch host (sampleEnv 'b' 1) sampleContext "a" s).store = { s with
        dispatches := Dict.empty.set (key sampleContext "a") (remoteDispatch host envelope plan) } := by
    intro s hget hnone
    unfold prepareDispatch
    dsimp only
    rw [hget, hnone]
    dsimp only
    rw [dif_pos (show isExecutionRoute (remoteSubmission host envelope plan).executionRoute = true
      from sampleRoute_valid), dif_pos (show isPrefectRoute
        (remoteSubmission host envelope plan).executionRoute = true from sampleRoute_prefect)]
    have hsnapshot : (remoteSubmission host envelope plan).inputSnapshot.filter
        (fun text => text ≠ "") = some envelope := by
      simp [remoteSubmission, acceptedSubmission, h.nonEmpty]
    rw [hsnapshot]
    dsimp only
    rw [h.accepted]
    dsimp only
    rw [if_neg (by simp [remoteSubmission, acceptedSubmission, remoteAccept])]
    rfl
  show (prepareDispatch host (sampleEnv 'b' 1) sampleContext "a" (accept host (sampleEnv 'a' 0)
    sampleContext (remoteAccept envelope plan) (Store.init none)).store).store = _
  have hget : (insertAcceptance host (sampleEnv 'a' 0) sampleContext (remoteAccept envelope plan)
      "a" (Store.init none)).store.submissions =
      Dict.empty.set (key sampleContext "a") (remoteSubmission host envelope plan) := by
    unfold insertAcceptance remoteSubmission
    dsimp only [ret_store]
    rw [← hinputs]
    rfl
  rw [haccept, hprepare _ (by rw [hget, Dict.get?_set_self]) rfl]
  unfold preparedStore
  rw [← hget]

/-- The remote run of the first generation fails before a worker claims it. -/
def failedRemoteRun : List Event :=
  [⟨sampleEnv 'c' 2, .claimDispatch sampleContext "a" "dispatcher" 60 none⟩,
    ⟨sampleEnv 'd' 3, .linkDispatch sampleContext "a" "dispatcher" 1 (some "flow-1") none none⟩,
    ⟨sampleEnv 'e' 4, .rearmDispatchAfterRemoteFailure sampleContext "a" (some "flow-1") none none⟩]

/-- The rearmed dispatch is created remotely under another key. -/
theorem dispatch_generations_rearmed :
    ((reached sampleHost none (preparedRun sampleEnvelope samplePlanSha256 ++
      failedRemoteRun)).dispatches.get? (key sampleContext "a")).map DispatchRecord.creationKey ≠
    ((reached sampleHost none (preparedRun sampleEnvelope samplePlanSha256)).dispatches.get?
      (key sampleContext "a")).map DispatchRecord.creationKey := by
  intro hsame
  have hfirst : ((reached sampleHost none (preparedRun sampleEnvelope samplePlanSha256)).dispatches.get?
      (key sampleContext "a")).map DispatchRecord.generation = some 1 := by
    rw [reached_preparedRun sampleEnvelope_valid]
    rfl
  have hsecond : ((reached sampleHost none (preparedRun sampleEnvelope samplePlanSha256 ++
      failedRemoteRun)).dispatches.get? (key sampleContext "a")).map DispatchRecord.generation =
        some 2 := by
    rw [reached_append, reached_preparedRun sampleEnvelope_valid]
    decide
  obtain ⟨record, hget, hgeneration⟩ := Option.map_eq_some_iff.mp hfirst
  obtain ⟨record', hget', hgeneration'⟩ := Option.map_eq_some_iff.mp hsecond
  rw [hget, hget', Option.map_some, Option.map_some, Option.some.injEq] at hsame
  obtain ⟨-, hgenerations⟩ := (dispatch_generations sampleHost none
    (preparedRun sampleEnvelope samplePlanSha256 ++ failedRemoteRun)).2.2.2 sampleSha256_injective
      (preparedRun sampleEnvelope samplePlanSha256) _ _ record' record hget' hget hsame
  omega

end Sample

end Etlantic.ControlPlane.Durable
