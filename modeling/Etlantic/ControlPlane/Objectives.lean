import Etlantic.Base.Checked
import Etlantic.Base.Dict
import Etlantic.Base.Joined
import Etlantic.Base.Runs
import Etlantic.ControlPlane.DurableModels

/-!
# Delivery objectives

`MemoryObjectiveStore` evaluates the deadlines of an objective for a delivery and files a
warning, a breach or a recovery once under its deduplication key: the objective, the state
and the submission.  A later evaluation with that key is answered with the first one on
file.  So every answer is about the delivery that was asked for exactly if no two
deliveries in such a state have one key.
-/

namespace Etlantic.ControlPlane.Objectives

open Checked

inductive ObjectiveReference where
  | scheduled
  | queued
  | started
  | sourceReady
  | fixedTime
deriving DecidableEq

inductive ObjectiveState where
  | onTrack
  | warning
  | breached
  | recovered
  | acknowledged
deriving DecidableEq

def ObjectiveState.text : ObjectiveState → String
  | .onTrack => "on_track"
  | .warning => "warning"
  | .breached => "breached"
  | .recovered => "recovered"
  | .acknowledged => "acknowledged"

structure DeliveryObjective where
  objectiveId : String
  tenantId : String
  workspaceId : String
  reference : ObjectiveReference
  warningAfterSeconds : Int
  hardAfterSeconds : Int
  graceSeconds : Int
  fixedTime : Option Instant

structure ObjectiveEvaluation where
  evaluationId : String
  objectiveId : String
  state : ObjectiveState
  referenceAt : Instant
  evaluatedAt : Instant
  dedupeKey : String
  submissionId : Option String
  reason : String

/-- `datetime.min` and `datetime.max`, in microseconds since 1970. -/
def minInstant : Instant := -62135596800000000

def maxInstant : Instant := 253402300799999999

/-- `DeliveryObjective.deadline`; a sum outside the calendar raises. -/
def DeliveryObjective.deadline (o : DeliveryObjective) (referenceAt : Instant) (hard : Bool) :
    Except PyError Instant :=
  let seconds := if hard then o.hardAfterSeconds else o.warningAfterSeconds
  let base := if o.reference = .fixedTime then o.fixedTime.getD referenceAt else referenceAt
  let due := base + (seconds + o.graceSeconds) * 1000000
  if minInstant ≤ due ∧ due ≤ maxInstant then .ok due
  else .error (.overflowError "date value out of range")

/-- The arguments of `evaluate`, with the clock and the id that a new evaluation gets. -/
structure Request where
  objectiveId : String
  referenceAt : Instant
  evaluatedAt : Instant
  submissionId : Option String
  completed : Bool
  evaluationId : String

/-- The state of a delivery, and the reason that is given for it. -/
def assess (o : DeliveryObjective) (r : Request) : Except PyError (ObjectiveState × String) := do
  let warningAt ← o.deadline r.referenceAt false
  let hardAt ← o.deadline r.referenceAt true
  return if r.completed then (.recovered, "completed within recovery")
    else if hardAt ≤ r.evaluatedAt then (.breached, "hard deadline missed")
    else if warningAt ≤ r.evaluatedAt then (.warning, "warning deadline reached")
    else (.onTrack, "within deadlines")

/-- `submission_id or "none"`. -/
def submissionText (submissionId : Option String) : String :=
  match submissionId with
  | some text => if text = "" then "none" else text
  | none => "none"

def dedupeKey (objectiveId : String) (state : ObjectiveState) (submissionId : Option String) :
    String :=
  objectiveId ++ ":" ++ state.text ++ ":" ++ submissionText submissionId

abbrev Key := Scope × String

structure MemoryObjectiveStore where
  objectives : Dict Key DeliveryObjective
  evaluations : Dict Key ObjectiveEvaluation
  byObjective : Dict Key (List String)
  dedupe : List Key

def MemoryObjectiveStore.init : MemoryObjectiveStore := ⟨.empty, .empty, .empty, []⟩

section Operations

variable (σ : MemoryObjectiveStore) (ctx : ControlPlaneContext)

def upsertObjective (o : DeliveryObjective) :
    Except PyError (DeliveryObjective × MemoryObjectiveStore) :=
  if o.tenantId ≠ ctx.tenant.tenantId ∨ o.workspaceId ≠ ctx.workspace.workspaceId then
    .error (forbidden "objective scope mismatch")
  else .ok (o, { σ with objectives := σ.objectives.set (ctx.scopeKey, o.objectiveId) o })

def getObjective (objectiveId : String) : Except PyError DeliveryObjective :=
  match σ.objectives.get? (ctx.scopeKey, objectiveId) with
  | none => .error (notFound "objective not found")
  | some o => .ok o

/-- The first evaluation of the objective that is filed under the key. -/
def firstFiled (scope : Scope) (objectiveId key : String) : Option ObjectiveEvaluation :=
  ((σ.byObjective.get? (scope, objectiveId)).getD []).findSome? fun id =>
    (σ.evaluations.get? (scope, id)).filter fun prior => prior.dedupeKey = key

/-- The store with a new evaluation. -/
def file (scope : Scope) (e : ObjectiveEvaluation) : MemoryObjectiveStore :=
  { σ with
    evaluations := σ.evaluations.set (scope, e.evaluationId) e
    byObjective := σ.byObjective.set (scope, e.objectiveId)
      ((σ.byObjective.get? (scope, e.objectiveId)).getD [] ++ [e.evaluationId])
    dedupe := if e.state ∈ [.breached, .warning, .recovered] then
      (scope, e.dedupeKey) :: σ.dedupe else σ.dedupe }

def evaluate (r : Request) : Except PyError (ObjectiveEvaluation × MemoryObjectiveStore) := do
  let objective ← getObjective σ ctx r.objectiveId
  let (state, reason) ← assess objective r
  let key := dedupeKey r.objectiveId state r.submissionId
  let prior := if (ctx.scopeKey, key) ∈ σ.dedupe ∧ state ∈ [.breached, .warning, .recovered] then
    firstFiled σ ctx.scopeKey r.objectiveId key else none
  match prior with
  | some prior => return (prior, σ)
  | none =>
      let evaluation := ⟨r.evaluationId, r.objectiveId, state, r.referenceAt, r.evaluatedAt, key,
        r.submissionId, reason⟩
      return (evaluation, file σ ctx.scopeKey evaluation)

def acknowledge (evaluationId : String) :
    Except PyError (ObjectiveEvaluation × MemoryObjectiveStore) :=
  match σ.evaluations.get? (ctx.scopeKey, evaluationId) with
  | none => .error (notFound "evaluation not found")
  | some evaluation =>
      let updated := { evaluation with state := .acknowledged }
      .ok (updated,
        { σ with evaluations := σ.evaluations.set (ctx.scopeKey, evaluationId) updated })

end Operations

/-! ## Runs -/

inductive Call where
  | upsert (ctx : ControlPlaneContext) (objective : DeliveryObjective)
  | evaluate (ctx : ControlPlaneContext) (request : Request)
  | acknowledge (ctx : ControlPlaneContext) (evaluationId : String)

/-- The store after a call; one that raises leaves it alone. -/
def left {α : Type} (σ : MemoryObjectiveStore) (result : Except PyError (α × MemoryObjectiveStore)) :
    MemoryObjectiveStore :=
  match result with
  | .ok (_, σ') => σ'
  | .error _ => σ

def next (σ : MemoryObjectiveStore) : Call → MemoryObjectiveStore
  | .upsert ctx objective => left σ (upsertObjective σ ctx objective)
  | .evaluate ctx request => left σ (evaluate σ ctx request)
  | .acknowledge ctx evaluationId => left σ (acknowledge σ ctx evaluationId)

/-- The delivery that an evaluation is asked about, in the state that the deadlines give. -/
structure Delivery where
  scope : Scope
  objectiveId : String
  submissionId : Option String
  referenceAt : Instant
  state : ObjectiveState

/-- What the deadlines say of a request. -/
def deliveryOf (σ : MemoryObjectiveStore) (ctx : ControlPlaneContext) (r : Request) :
    Except PyError Delivery := do
  let objective ← getObjective σ ctx r.objectiveId
  let (state, _) ← assess objective r
  return ⟨ctx.scopeKey, r.objectiveId, r.submissionId, r.referenceAt, state⟩

/-- The delivery of a call that evaluates one. -/
def asked (σ : MemoryObjectiveStore) : Call → Option Delivery
  | .evaluate ctx request => (deliveryOf σ ctx request).toOption
  | _ => none

/-- The delivery of a call that evaluates one, with the answer. -/
def answered (σ : MemoryObjectiveStore) : Call → Option (Delivery × ObjectiveEvaluation)
  | .evaluate ctx request =>
      match deliveryOf σ ctx request, evaluate σ ctx request with
      | .ok delivery, .ok (evaluation, _) => some (delivery, evaluation)
      | _, _ => none
  | _ => none

/-- The evaluation is one of the delivery, in its state or acknowledged. -/
structure Answers (d : Delivery) (e : ObjectiveEvaluation) : Prop where
  objective : e.objectiveId = d.objectiveId
  submission : e.submissionId = d.submissionId
  reference : e.referenceAt = d.referenceAt
  state : e.state = d.state ∨ e.state = .acknowledged

/-- No evaluation is on file under the id that a new one gets. -/
def Fresh (σ : MemoryObjectiveStore) : Call → Prop
  | .evaluate ctx request => σ.evaluations.get? (ctx.scopeKey, request.evaluationId) = none
  | _ => True

/-- A run from the empty store whose generated ids are new. -/
structure History where
  calls : List Call
  fresh : Runs.Guarded next Fresh .init calls

def History.deliveries (h : History) : List Delivery := Runs.observe next asked .init h.calls

def History.answers (h : History) : List (Delivery × ObjectiveEvaluation) :=
  Runs.observe next answered .init h.calls

/-- The key under which a delivery is filed. -/
def Delivery.key (d : Delivery) : Scope × String × String :=
  (d.scope, d.objectiveId, dedupeKey d.objectiveId d.state d.submissionId)

/-- Deliveries that are not on track and have one key are one delivery. -/
def Separate (deliveries : List Delivery) : Prop :=
  ∀ d ∈ deliveries, ∀ d' ∈ deliveries, d.state ≠ .onTrack → d.key = d'.key →
    d.referenceAt = d'.referenceAt ∧ d.submissionId = d'.submissionId

/-! ## Deduplication keys -/

theorem sepFree_text (state : ObjectiveState) : ':' ∉ state.text.toList := by
  cases state <;> decide

theorem text_inj {state state' : ObjectiveState} (h : state.text = state'.text) :
    state = state' := by
  cases state <;> cases state' <;> first | rfl | exact absurd h (by decide)

/-- What stands before the first separator. -/
theorem before_sep {x y a b : List Char} (hx : ':' ∉ x) (hy : ':' ∉ y)
    (h : x ++ ':' :: a = y ++ ':' :: b) : x = y ∧ a = b := by
  induction x generalizing y with
  | nil =>
      cases y with
      | nil => exact ⟨rfl, (List.cons.inj h).2⟩
      | cons c y => exact absurd ((List.cons.inj h).1 ▸ List.mem_cons_self) hy
  | cons c x ih =>
      cases y with
      | nil => exact absurd ((List.cons.inj h).1 ▸ List.mem_cons_self) hx
      | cons c' y =>
          obtain ⟨rfl, htail⟩ := List.cons.inj h
          obtain ⟨rfl, hab⟩ := ih (fun hm => hx (List.mem_cons_of_mem _ hm))
            (fun hm => hy (List.mem_cons_of_mem _ hm)) htail
          exact ⟨rfl, hab⟩

/-- The key of an objective says the state and the submission. -/
theorem dedupeKey_inj {objectiveId : String} {state state' : ObjectiveState}
    {submissionId submissionId' : Option String}
    (h : dedupeKey objectiveId state submissionId = dedupeKey objectiveId state' submissionId') :
    state = state' ∧ submissionText submissionId = submissionText submissionId' := by
  have hlist := congrArg String.toList h
  unfold dedupeKey at hlist
  simp only [String.toList_append, List.append_assoc] at hlist
  have htail := List.append_cancel_left (List.append_cancel_left hlist)
  obtain ⟨hstate, hsub⟩ := before_sep (sepFree_text state) (sepFree_text state') htail
  exact ⟨text_inj (String.toList_inj.mp hstate), String.toList_inj.mp hsub⟩

/-! ## What is on file -/

variable {σ : MemoryObjectiveStore} {ctx : ControlPlaneContext} {r : Request} {d : Delivery}
  {scope : Scope} {e : ObjectiveEvaluation}

/-- An evaluation on file has its own key, and the key is noted unless it was on track. -/
def Recorded (dedupe : List Key) (k : Key) (e : ObjectiveEvaluation) : Prop :=
  ∃ state, e.objectiveId = k.2 ∧ e.dedupeKey = dedupeKey k.2 state e.submissionId ∧
    (e.state = state ∨ e.state = .acknowledged) ∧
    (state ≠ .onTrack → (k.1, e.dedupeKey) ∈ dedupe)

/-- Every id that is listed for an objective is that of a recorded evaluation. -/
def Filed (σ : MemoryObjectiveStore) : Prop :=
  σ.byObjective.All fun k ids => ∀ id ∈ ids, ∃ e, σ.evaluations.get? (k.1, id) = some e ∧
    Recorded σ.dedupe k e

theorem Recorded.mono {dedupe dedupe' : List Key} {k : Key} (h : Recorded dedupe k e)
    (hsub : ∀ x ∈ dedupe, x ∈ dedupe') : Recorded dedupe' k e := by
  obtain ⟨state, hobjective, hkey, hstate, hnoted⟩ := h
  exact ⟨state, hobjective, hkey, hstate, fun hne => hsub _ (hnoted hne)⟩

theorem mem_transitions {state : ObjectiveState} (h : state ≠ .acknowledged) :
    state ∈ [ObjectiveState.breached, .warning, .recovered] ↔ state ≠ .onTrack := by
  cases state <;> simp_all

theorem filed_acknowledge {id : String} (h : Filed σ)
    (hget : σ.evaluations.get? (scope, id) = some e) :
    Filed { σ with evaluations :=
      σ.evaluations.set (scope, id) { e with state := .acknowledged } } := by
  intro k ids hids other hother
  obtain ⟨e', he', hrecorded⟩ := h k ids hids other hother
  by_cases hsame : (scope, id) = (k.1, other)
  · have hnew : (σ.evaluations.set (scope, id) { e with state := .acknowledged }).get?
        (k.1, other) = some { e with state := .acknowledged } := hsame ▸ Dict.get?_set_self _ _ _
    refine ⟨_, hnew, ?_⟩
    rw [hsame, he'] at hget
    obtain rfl := Option.some.inj hget
    obtain ⟨state, hobjective, hkey, -, hnoted⟩ := hrecorded
    exact ⟨state, hobjective, hkey, .inr rfl, hnoted⟩
  · exact ⟨e', (Dict.get?_set_ne _ _ hsame).trans he', hrecorded⟩

theorem filed_file (h : Filed σ) (hfresh : σ.evaluations.get? (scope, e.evaluationId) = none)
    (hkey : e.dedupeKey = dedupeKey e.objectiveId e.state e.submissionId)
    (hstate : e.state ≠ .acknowledged) : Filed (file σ scope e) := by
  have hmono : ∀ x ∈ σ.dedupe, x ∈ (file σ scope e).dedupe := by
    intro x hx
    show x ∈ if _ then _ else _
    split
    · exact List.mem_cons_of_mem _ hx
    · exact hx
  have hold : ∀ k ids, σ.byObjective.get? k = some ids → ∀ id ∈ ids,
      ∃ e', (file σ scope e).evaluations.get? (k.1, id) = some e' ∧
        Recorded (file σ scope e).dedupe k e' := by
    intro k ids hids id hid
    obtain ⟨e', he', hrecorded⟩ := h k ids hids id hid
    exact ⟨e', Dict.get?_set_fresh hfresh he', hrecorded.mono hmono⟩
  intro k ids hids id hid
  rcases Dict.get?_set_eq_some.mp hids with ⟨rfl, rfl⟩ | ⟨-, hids⟩
  · rcases List.mem_append.mp hid with hid | hid
    · cases hget : σ.byObjective.get? (scope, e.objectiveId) with
      | none =>
          rw [hget] at hid
          cases hid
      | some filed =>
          rw [hget] at hid
          exact hold _ filed hget id hid
    · rw [List.mem_singleton.mp hid]
      refine ⟨e, Dict.get?_set_self _ _ _, e.state, rfl, hkey, .inl rfl, ?_⟩
      intro hne
      show _ ∈ if _ then _ else _
      rw [if_pos ((mem_transitions hstate).mpr hne)]
      exact List.mem_cons_self
  · exact hold k ids hids id hid

/-! ## Whose evaluation stands first -/

/-- The reference and the submission of the evaluation that stands first under a key. -/
def owner (σ : MemoryObjectiveStore) (k : Scope × String × String) :
    Option (Instant × Option String) :=
  (firstFiled σ k.1 k.2.1 k.2.2).map fun e => (e.referenceAt, e.submissionId)

theorem owner_acknowledge {id : String} (hget : σ.evaluations.get? (scope, id) = some e)
    (k : Scope × String × String) :
    owner { σ with evaluations :=
      σ.evaluations.set (scope, id) { e with state := .acknowledged } } k = owner σ k := by
  unfold owner firstFiled
  rw [List.map_findSome?, List.map_findSome?]
  refine congrFun (congrArg _ (funext fun other => ?_)) _
  by_cases hsame : (scope, id) = (k.1, other)
  · have hnew : (σ.evaluations.set (scope, id) { e with state := .acknowledged }).get?
        (k.1, other) = some { e with state := .acknowledged } := hsame ▸ Dict.get?_set_self _ _ _
    rw [hsame] at hget
    simp only [Function.comp, hnew, hget, Option.filter_some]
    split <;> rfl
  · have hold : (σ.evaluations.set (scope, id) { e with state := .acknowledged }).get?
        (k.1, other) = σ.evaluations.get? (k.1, other) := Dict.get?_set_ne _ _ hsame
    simp only [Function.comp, hold]

theorem findSome?_congr {α β : Type} {f g : α → Option β} : ∀ {l : List α},
    (∀ x ∈ l, f x = g x) → l.findSome? f = l.findSome? g
  | [], _ => rfl
  | x :: rest, h => by
      rw [List.findSome?_cons, List.findSome?_cons, h x List.mem_cons_self,
        findSome?_congr fun y hy => h y (List.mem_cons_of_mem _ hy)]

/-- A new evaluation stands first under its key unless one stood there. -/
theorem owner_file (h : Filed σ) (hfresh : σ.evaluations.get? (scope, e.evaluationId) = none)
    (k : Scope × String × String) :
    owner (file σ scope e) k = (owner σ k).or
      (if k = (scope, e.objectiveId, e.dedupeKey) then some (e.referenceAt, e.submissionId)
        else none) := by
  obtain ⟨scope', objectiveId, key⟩ := k
  have hold : ∀ id ∈ (σ.byObjective.get? (scope', objectiveId)).getD [],
      (file σ scope e).evaluations.get? (scope', id) = σ.evaluations.get? (scope', id) := by
    intro id hid
    refine Dict.get?_set_ne _ _ ?_
    intro hsame
    cases hget : σ.byObjective.get? (scope', objectiveId) with
    | none =>
        rw [hget] at hid
        cases hid
    | some ids =>
        rw [hget] at hid
        obtain ⟨e', he', -⟩ := h _ ids hget id hid
        rw [hsame, he'] at hfresh
        cases hfresh
  have hfirst : ((σ.byObjective.get? (scope', objectiveId)).getD []).findSome? (fun id =>
      ((file σ scope e).evaluations.get? (scope', id)).filter fun prior =>
        prior.dedupeKey = key) = firstFiled σ scope' objectiveId key := by
    unfold firstFiled
    refine findSome?_congr fun id hid => ?_
    rw [hold id hid]
  by_cases hplace : (scope, e.objectiveId) = (scope', objectiveId)
  · obtain ⟨rfl, rfl⟩ := Prod.mk.inj hplace
    have hids : (file σ scope e).byObjective.get? (scope, e.objectiveId) =
        some ((σ.byObjective.get? (scope, e.objectiveId)).getD [] ++ [e.evaluationId]) :=
      Dict.get?_set_self _ _ _
    have hself : (file σ scope e).evaluations.get? (scope, e.evaluationId) = some e :=
      Dict.get?_set_self _ _ _
    have hnew : firstFiled (file σ scope e) scope e.objectiveId key =
        (firstFiled σ scope e.objectiveId key).or (if e.dedupeKey = key then some e else none) := by
      rw [← hfirst]
      conv_lhs => unfold firstFiled
      rw [hids, Option.getD_some, List.findSome?_append]
      congr 1
      rw [List.findSome?_singleton, hself, Option.filter_some]
      simp only [decide_eq_true_eq]
    unfold owner
    rw [hnew]
    cases firstFiled σ scope e.objectiveId key with
    | some first => rfl
    | none =>
        by_cases hkey : e.dedupeKey = key
        · rw [if_pos hkey, if_pos (by rw [hkey])]
          rfl
        · rw [if_neg hkey, if_neg fun hk => hkey (Prod.mk.inj (Prod.mk.inj hk).2).2.symm]
          rfl
  · have hids : (file σ scope e).byObjective.get? (scope', objectiveId) =
        σ.byObjective.get? (scope', objectiveId) := Dict.get?_set_ne _ _ hplace
    have hsame : firstFiled (file σ scope e) scope' objectiveId key =
        firstFiled σ scope' objectiveId key := by
      rw [← hfirst]
      conv_lhs => unfold firstFiled
      rw [hids]
    unfold owner
    rw [hsame, if_neg, Option.or_none]
    intro hk
    obtain ⟨rfl, hrest⟩ := Prod.mk.inj hk
    obtain ⟨rfl, -⟩ := Prod.mk.inj hrest
    exact hplace rfl

/-- What stands first under the key of a state is an evaluation of that state. -/
theorem recorded_of_first (h : Filed σ) {objectiveId : String} {state : ObjectiveState}
    {submissionId : Option String}
    (hfirst : firstFiled σ scope objectiveId (dedupeKey objectiveId state submissionId) = some e) :
    e.objectiveId = objectiveId ∧ (e.state = state ∨ e.state = .acknowledged) ∧
      (state ≠ .onTrack → (scope, dedupeKey objectiveId state submissionId) ∈ σ.dedupe) := by
  unfold firstFiled at hfirst
  cases hids : σ.byObjective.get? (scope, objectiveId) with
  | none =>
      rw [hids] at hfirst
      cases hfirst
  | some ids =>
      rw [hids] at hfirst
      obtain ⟨id, hid, hfound⟩ := List.exists_of_findSome?_eq_some hfirst
      obtain ⟨hget, hkey⟩ := Option.filter_eq_some_iff.mp hfound
      obtain ⟨e', he', state', hobjective, hown, hstate, hnoted⟩ := h _ ids hids id hid
      rw [he'] at hget
      obtain rfl := Option.some.inj hget
      have hsame : e'.dedupeKey = dedupeKey objectiveId state submissionId :=
        of_decide_eq_true hkey
      rw [hsame] at hown hnoted
      obtain ⟨rfl, -⟩ := dedupeKey_inj hown
      exact ⟨hobjective, hstate, hnoted⟩

/-! ## One evaluation -/

theorem assess_state {objective : DeliveryObjective} {state : ObjectiveState} {reason : String}
    (h : assess objective r = .ok (state, reason)) : state ≠ .acknowledged := by
  obtain ⟨warningAt, -, h⟩ := bind_eq_ok.mp h
  obtain ⟨hardAt, -, h⟩ := bind_eq_ok.mp h
  have hpair := Except.ok.inj h
  split at hpair
  · obtain ⟨rfl, -⟩ := Prod.mk.inj hpair
    decide
  · split at hpair
    · obtain ⟨rfl, -⟩ := Prod.mk.inj hpair
      decide
    · split at hpair
      · obtain ⟨rfl, -⟩ := Prod.mk.inj hpair
        decide
      · obtain ⟨rfl, -⟩ := Prod.mk.inj hpair
        decide

/-- What an evaluation does: it raises as its deadlines do; or it gives back the evaluation
that stands first under the key; or it files a new one. -/
theorem evaluate_cases (h : Filed σ) :
    (∃ error, deliveryOf σ ctx r = .error error ∧ evaluate σ ctx r = .error error) ∨
    (∃ d, deliveryOf σ ctx r = .ok d ∧ d.state ≠ .onTrack ∧
      ∃ prior, firstFiled σ d.scope d.objectiveId d.key.2.2 = some prior ∧
        evaluate σ ctx r = .ok (prior, σ)) ∨
    (∃ d e, deliveryOf σ ctx r = .ok d ∧
      (d.state ≠ .onTrack → firstFiled σ d.scope d.objectiveId d.key.2.2 = none) ∧
      d.state ≠ .acknowledged ∧ d.scope = ctx.scopeKey ∧
      (e.evaluationId, e.objectiveId, e.state, e.referenceAt, e.submissionId, e.dedupeKey) =
        (r.evaluationId, d.objectiveId, d.state, d.referenceAt, d.submissionId, d.key.2.2) ∧
      evaluate σ ctx r = .ok (e, file σ d.scope e)) := by
  unfold evaluate deliveryOf
  cases hobjective : getObjective σ ctx r.objectiveId with
  | error error => exact .inl ⟨error, rfl, rfl⟩
  | ok objective =>
      simp only [ok_bind]
      cases hassess : assess objective r with
      | error error => exact .inl ⟨error, rfl, rfl⟩
      | ok assessed =>
          obtain ⟨state, reason⟩ := assessed
          simp only [ok_bind]
          have hstate := assess_state hassess
          refine .inr ?_
          by_cases hprior : (ctx.scopeKey, dedupeKey r.objectiveId state r.submissionId) ∈
              σ.dedupe ∧ state ∈ [ObjectiveState.breached, .warning, .recovered]
          · rw [if_pos hprior]
            cases hfirst : firstFiled σ ctx.scopeKey r.objectiveId
                (dedupeKey r.objectiveId state r.submissionId) with
            | some prior =>
                exact .inl ⟨_, rfl, (mem_transitions hstate).mp hprior.2, prior, hfirst, rfl⟩
            | none => exact .inr ⟨_, _, rfl, fun _ => hfirst, hstate, rfl, rfl, rfl⟩
          · rw [if_neg hprior]
            refine .inr ⟨_, _, rfl, fun hne => ?_, hstate, rfl, rfl, rfl⟩
            cases hfirst : firstFiled σ ctx.scopeKey r.objectiveId
                (dedupeKey r.objectiveId state r.submissionId) with
            | none => exact hfirst
            | some prior =>
                refine absurd ⟨?_, (mem_transitions hstate).mpr hne⟩ hprior
                obtain ⟨-, hkey, hnoted⟩ := recorded_of_first h hfirst
                exact hnoted hne

/-! ## One step -/

/-- The reference and the submission of a delivery. -/
def Delivery.origin (d : Delivery) : Instant × Option String := (d.referenceAt, d.submissionId)

/-- A step that evaluates no delivery leaves the owners alone. -/
structure Quiet (σ : MemoryObjectiveStore) (c : Call) : Prop where
  asked : asked σ c = none
  answered : answered σ c = none
  filed : Filed (next σ c)
  owner : ∀ k, owner (next σ c) k = owner σ k

/-- A step that evaluates a delivery makes it the owner of its key unless there is one, and
answers it exactly if it is the owner. -/
structure Evaluates (σ : MemoryObjectiveStore) (c : Call) (d : Delivery) (e : ObjectiveEvaluation) :
    Prop where
  asked : asked σ c = some d
  answered : answered σ c = some (d, e)
  filed : Filed (next σ c)
  owner : ∀ k, owner (next σ c) k =
    (owner σ k).or (if k = d.key then some d.origin else none)
  answers : Answers d e ↔ (d.state ≠ .onTrack → ∀ o, Objectives.owner σ d.key = some o → o = d.origin)

theorem quiet_of_error {c : Call} (h : Filed σ) (hasked : asked σ c = none)
    (hanswered : answered σ c = none) (hnext : next σ c = σ) : Quiet σ c :=
  ⟨hasked, hanswered, hnext.symm ▸ h, fun k => by rw [hnext]⟩

theorem quiet_upsert (h : Filed σ) (o : DeliveryObjective) : Quiet σ (.upsert ctx o) := by
  refine ⟨rfl, rfl, ?_, fun k => ?_⟩
  · show Filed (left σ (upsertObjective σ ctx o))
    unfold upsertObjective
    split
    · exact h
    · exact h
  · show owner (left σ (upsertObjective σ ctx o)) k = _
    unfold upsertObjective
    split
    · rfl
    · rfl

theorem quiet_acknowledge (h : Filed σ) (id : String) : Quiet σ (.acknowledge ctx id) := by
  cases hget : σ.evaluations.get? (ctx.scopeKey, id) with
  | none =>
      refine quiet_of_error h rfl rfl ?_
      show left σ (acknowledge σ ctx id) = σ
      unfold acknowledge
      rw [hget]
      rfl
  | some e =>
      have hnext : next σ (.acknowledge ctx id) =
          { σ with evaluations :=
              σ.evaluations.set (ctx.scopeKey, id) { e with state := .acknowledged } } := by
        show left σ (acknowledge σ ctx id) = _
        unfold acknowledge
        rw [hget]
        rfl
      exact ⟨rfl, rfl, hnext.symm ▸ filed_acknowledge h hget,
        fun k => by rw [hnext, owner_acknowledge hget]⟩

theorem evaluates_prior {prior : ObjectiveEvaluation} (h : Filed σ)
    (hdelivery : deliveryOf σ ctx r = .ok d) (hstate : d.state ≠ .onTrack)
    (hfirst : firstFiled σ d.scope d.objectiveId d.key.2.2 = some prior)
    (heval : evaluate σ ctx r = .ok (prior, σ)) : Evaluates σ (.evaluate ctx r) d prior := by
  have hnext : next σ (.evaluate ctx r) = σ := by
    show left σ (evaluate σ ctx r) = σ
    rw [heval]
    rfl
  have howner : owner σ d.key = some (prior.referenceAt, prior.submissionId) := by
    unfold owner
    rw [show firstFiled σ d.key.1 d.key.2.1 d.key.2.2 = some prior from hfirst]
    rfl
  obtain ⟨hobjective, hkept, -⟩ := recorded_of_first h hfirst
  refine ⟨?_, ?_, hnext.symm ▸ h, fun k => ?_, ?_⟩
  · show (deliveryOf σ ctx r).toOption = some d
    rw [hdelivery]
    rfl
  · unfold answered
    simp only [hdelivery, heval]
  · rw [hnext]
    by_cases hk : k = d.key
    · rw [hk, howner]
      rfl
    · rw [if_neg hk, Option.or_none]
  · constructor
    · rintro ⟨-, hsubmission, hreference, -⟩ - o ho
      rw [howner] at ho
      obtain rfl := Option.some.inj ho
      exact Prod.ext hreference hsubmission
    · intro hown
      obtain ⟨hreference, hsubmission⟩ := Prod.mk.inj (hown hstate _ howner)
      exact ⟨hobjective, hsubmission, hreference, hkept⟩

theorem evaluates_new (h : Filed σ) (hfresh : Fresh σ (.evaluate ctx r))
    (hdelivery : deliveryOf σ ctx r = .ok d)
    (hfirst : d.state ≠ .onTrack → firstFiled σ d.scope d.objectiveId d.key.2.2 = none)
    (hstate : d.state ≠ .acknowledged) (hscope : d.scope = ctx.scopeKey)
    (hfields : (e.evaluationId, e.objectiveId, e.state, e.referenceAt, e.submissionId,
      e.dedupeKey) = (r.evaluationId, d.objectiveId, d.state, d.referenceAt, d.submissionId,
        d.key.2.2))
    (heval : evaluate σ ctx r = .ok (e, file σ d.scope e)) :
    Evaluates σ (.evaluate ctx r) d e := by
  simp only [Prod.mk.injEq] at hfields
  obtain ⟨hid, hobjective, hstates, hreference, hsubmission, hkey⟩ := hfields
  have hnext : next σ (.evaluate ctx r) = file σ d.scope e := by
    show left σ (evaluate σ ctx r) = _
    rw [heval]
    rfl
  have hnew : σ.evaluations.get? (d.scope, e.evaluationId) = none := by
    rw [hscope, hid]
    exact hfresh
  refine ⟨?_, ?_, ?_, fun k => ?_, ?_⟩
  · show (deliveryOf σ ctx r).toOption = some d
    rw [hdelivery]
    rfl
  · unfold answered
    simp only [hdelivery, heval]
  · rw [hnext]
    refine filed_file h hnew ?_ (hstates ▸ hstate)
    rw [hkey, hobjective, hstates, hsubmission]
    rfl
  · rw [hnext, owner_file h hnew, hobjective, hkey, hreference, hsubmission]
    rfl
  · refine iff_of_true ⟨hobjective, hsubmission, hreference, .inl hstates⟩ ?_
    intro hne o ho
    unfold owner at ho
    rw [show firstFiled σ d.key.1 d.key.2.1 d.key.2.2 = none from hfirst hne] at ho
    cases ho

/-- Every step is quiet or evaluates a delivery. -/
theorem step_cases (h : Filed σ) (c : Call) (hfresh : Fresh σ c) :
    Quiet σ c ∨ ∃ d e, Evaluates σ c d e := by
  cases c with
  | upsert ctx o => exact .inl (quiet_upsert h o)
  | acknowledge ctx id => exact .inl (quiet_acknowledge h id)
  | evaluate ctx r =>
      rcases @evaluate_cases σ ctx r h with
        ⟨error, hdelivery, heval⟩ | ⟨d, hdelivery, hstate, prior, hfirst, heval⟩ |
        ⟨d, e, hdelivery, hfirst, hstate, hscope, hfields, heval⟩
      · refine .inl (quiet_of_error h ?_ ?_ ?_)
        · show (deliveryOf σ ctx r).toOption = none
          rw [hdelivery]
          rfl
        · unfold answered
          simp only [hdelivery]
        · show left σ (evaluate σ ctx r) = σ
          rw [heval]
          rfl
      · exact .inr ⟨d, prior, evaluates_prior h hdelivery hstate hfirst heval⟩
      · exact .inr ⟨d, e, evaluates_new h hfresh hdelivery hfirst hstate hscope hfields heval⟩

/-! ## Runs -/

/-- Every delivery that is not on track is the owner of its key, if there is one. -/
def Owned (σ : MemoryObjectiveStore) (deliveries : List Delivery) : Prop :=
  ∀ d ∈ deliveries, d.state ≠ .onTrack → ∀ o, owner σ d.key = some o → o = d.origin

theorem state_of_key {d d' : Delivery} (h : d.key = d'.key) : d.state = d'.state := by
  obtain ⟨-, hrest⟩ := Prod.mk.inj h
  obtain ⟨hobjective, htext⟩ := Prod.mk.inj hrest
  rw [hobjective] at htext
  exact (dedupeKey_inj htext).1

theorem separate_cons {rest : List Delivery} : Separate (d :: rest) ↔
    (∀ d' ∈ rest, d.state ≠ .onTrack → d.key = d'.key → d.origin = d'.origin) ∧
      Separate rest := by
  constructor
  · intro h
    refine ⟨fun d' hd' hne hkey => ?_, fun d₁ h₁ d₂ h₂ => ?_⟩
    · obtain ⟨hreference, hsubmission⟩ :=
        h d List.mem_cons_self d' (List.mem_cons_of_mem _ hd') hne hkey
      exact Prod.ext hreference hsubmission
    · exact h d₁ (List.mem_cons_of_mem _ h₁) d₂ (List.mem_cons_of_mem _ h₂)
  · rintro ⟨hfirst, hrest⟩ d₁ h₁ d₂ h₂ hne hkey
    rcases List.mem_cons.mp h₁ with rfl | hin₁
    · rcases List.mem_cons.mp h₂ with rfl | hin₂
      · exact ⟨rfl, rfl⟩
      · exact Prod.mk.inj (hfirst d₂ hin₂ hne hkey)
    · rcases List.mem_cons.mp h₂ with rfl | hin₂
      · have horigin := hfirst d₁ hin₁ (state_of_key hkey ▸ hne) hkey.symm
        exact Prod.mk.inj horigin.symm
      · exact hrest d₁ hin₁ d₂ hin₂ hne hkey

/-- Owning the keys after an evaluation is owning them before, and agreeing with it. -/
theorem owned_next {c : Call} {rest : List Delivery} (hstep : Evaluates σ c d e)
    (hown : d.state ≠ .onTrack → ∀ o, owner σ d.key = some o → o = d.origin) :
    Owned (next σ c) rest ↔ Owned σ rest ∧
      ∀ d' ∈ rest, d.state ≠ .onTrack → d.key = d'.key → d.origin = d'.origin := by
  constructor
  · intro h
    refine ⟨fun d' hd' hne o ho => ?_, fun d' hd' hne hkey => ?_⟩
    · refine h d' hd' hne o ?_
      rw [hstep.owner, ho]
      rfl
    · refine h d' hd' (state_of_key hkey ▸ hne) d.origin ?_
      rw [hstep.owner, if_pos hkey.symm, ← hkey]
      cases hold : owner σ d.key with
      | none => rfl
      | some o =>
          rw [hown hne o hold]
          rfl
  · rintro ⟨hold, hsame⟩ d' hd' hne o ho
    rw [hstep.owner] at ho
    cases howner : owner σ d'.key with
    | some o' =>
        rw [howner] at ho
        obtain rfl := Option.some.inj ho
        exact hold d' hd' hne _ howner
    | none =>
        rw [howner, Option.none_or] at ho
        by_cases hkey : d'.key = d.key
        · rw [if_pos hkey] at ho
          obtain rfl := Option.some.inj ho
          exact hsame d' hd' (state_of_key hkey ▸ hne) hkey.symm
        · rw [if_neg hkey] at ho
          cases ho

theorem answers_iff : ∀ {calls : List Call} {σ : MemoryObjectiveStore}, Filed σ →
    Runs.Guarded next Fresh σ calls →
      ((∀ p ∈ Runs.observe next answered σ calls, Answers p.1 p.2) ↔
        Owned σ (Runs.observe next asked σ calls) ∧ Separate (Runs.observe next asked σ calls))
  | [], σ, _, _ => by
      refine iff_of_true (fun p hp => ?_) ⟨fun d hd => ?_, fun d hd => ?_⟩
      · cases hp
      · cases hd
      · cases hd
  | c :: calls, σ, h, hfresh => by
      unfold Runs.observe
      rcases step_cases h c hfresh.1 with hquiet | ⟨d, e, hstep⟩
      · rw [hquiet.asked, hquiet.answered, Option.toList_none, Option.toList_none,
          List.nil_append, List.nil_append, answers_iff hquiet.filed hfresh.2]
        refine and_congr_left fun _ => ?_
        unfold Owned
        simp only [hquiet.owner]
      · rw [hstep.asked, hstep.answered, Option.toList_some, Option.toList_some,
          List.singleton_append, List.singleton_append, List.forall_mem_cons,
          answers_iff hstep.filed hfresh.2, hstep.answers]
        generalize Runs.observe next asked (next σ c) calls = rest
        constructor
        · rintro ⟨hown, howned, hseparate⟩
          obtain ⟨hold, hsame⟩ := (owned_next hstep hown).mp howned
          exact ⟨List.forall_mem_cons.mpr ⟨hown, hold⟩, separate_cons.mpr ⟨hsame, hseparate⟩⟩
        · rintro ⟨howned, hseparate⟩
          obtain ⟨hown, hold⟩ := List.forall_mem_cons.mp howned
          obtain ⟨hsame, hrest⟩ := separate_cons.mp hseparate
          exact ⟨hown, (owned_next hstep hown).mpr ⟨hold, hsame⟩, hrest⟩

def sampleContext : ControlPlaneContext where
  principal := ⟨"user", none, .human⟩
  tenant := ⟨"t"⟩
  workspace := ⟨"t", "w"⟩
  environment := ⟨"dev"⟩
  securityDomain := ⟨"d"⟩
  resourceOwnerId := none
  workspaceTenant := workspace_ofTenant "t" "w"
  ownerNonEmpty := none_ownerNonEmpty

/-- Due ten seconds after the reference. -/
def sampleObjective : DeliveryObjective := ⟨"o", "t", "w", .scheduled, 5, 10, 0, none⟩

/-- The deliveries of two days, each looked at a minute after its reference. -/
def twoDays : History where
  calls := [.upsert sampleContext sampleObjective,
    .evaluate sampleContext ⟨"o", 0, 60000000, none, false, "e1"⟩,
    .evaluate sampleContext ⟨"o", 86400000000, 86460000000, none, false, "e2"⟩]
  fresh := by
    exact ⟨trivial, rfl, rfl, trivial⟩

end Etlantic.ControlPlane.Objectives
