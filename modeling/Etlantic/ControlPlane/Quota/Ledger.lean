import Etlantic.ControlPlane.Quota.Provider
import Etlantic.Base.Runs
import Mathlib.Algebra.BigOperators.Group.List.Basic
import Mathlib.Algebra.Order.Group.Int
import Mathlib.Algebra.Order.BigOperators.Group.List

/-!
# The quota ledger

What the callers of the provider can keep account of from the replies they get:
a ledger of the reservations that were admitted, with the claims on each that
nobody has compensated yet.  A reservation is open until it is released as a
whole or its last claim is compensated.
-/

namespace Etlantic.ControlPlane.Quota

/-! ## The ledger -/

structure Reservation where
  scope : Scope
  resource : QuotaResource
  units : Int
  /-- The idempotency key of the admission and the digits drawn for it. -/
  name : Option (String × UuidHex)
  /-- The claims that are not compensated. -/
  owners : Finset String
  freed : Bool

namespace Reservation

/-- The `reservation_key` that the admission was told. -/
def reservationKey (r : Reservation) : Option String :=
  r.name.map fun name => name.1 ++ ":" ++ name.2.text

def releaseKey (r : Reservation) : Option QuotaKey :=
  r.reservationKey.map (Quota.releaseKey r.scope)

/-- One more claim. -/
def join (claim : String) (r : Reservation) : Reservation :=
  { r with owners := insert claim r.owners }

/-- A compensation of one claim, or a release of the whole. -/
def give (claimId : Option String) (r : Reservation) : Reservation :=
  match claimId with
  | none => { r with owners := ∅, freed := true }
  | some claim =>
      if claim ∈ r.owners then
        { r with owners := r.owners.erase claim, freed := decide (r.owners.erase claim = ∅) }
      else r

/-- The units the reservation still holds of a resource in a workspace. -/
def held (scope : Scope) (resource : QuotaResource) (r : Reservation) : Int :=
  if r.freed = false ∧ r.scope = scope ∧ r.resource = resource then r.units else 0

end Reservation

abbrev Ledger := List Reservation

/-- The units of the open reservations. -/
def Ledger.held (ledger : Ledger) (scope : Scope) (resource : QuotaResource) : Int :=
  (ledger.map (Reservation.held scope resource)).sum

/-- A change of the reservation with a release key. -/
def Ledger.update (ledger : Ledger) (key : QuotaKey) (f : Reservation → Reservation) : Ledger :=
  ledger.map fun r => if r.releaseKey = some key then f r else r

/-- An admission that was allowed. -/
def Ledger.admitted (ledger : Ledger) (env : Env) (ctx : ControlPlaneContext)
    (resource : QuotaResource) (units : Int) (idempotencyKey claimId : Option String)
    (decision : QuotaDecision) : Ledger :=
  let joined := decision.metadata.reservationKey.map (releaseKey ctx.scopeKey)
  if joined ≠ none ∧ joined ∈ ledger.map Reservation.releaseKey then
    joined.elim ledger fun key => ledger.update key (Reservation.join (claimId.getD ""))
  else
    ledger ++ [⟨ctx.scopeKey, resource, units, idempotencyKey.map (·, env.uuid),
      {claimId.getD ""}, false⟩]

/-- The ledger after a call, by the reply. A closed reservation stays as it is. -/
def Ledger.record (ledger : Ledger) (p : MemoryQuotaProvider) (e : Event) : Ledger :=
  match e.call with
  | .admit_ ctx resource units idempotencyKey claimId =>
      match (admit_ e.env ctx resource units idempotencyKey claimId p).result with
      | .ok decision =>
          if decision.effect = .allow then
            ledger.admitted e.env ctx resource units idempotencyKey claimId decision
          else ledger
      | .error _ => ledger
  | .release ctx resource units (some key) claimId =>
      match (release e.env ctx resource units (some key) claimId p).result with
      | .ok _ => ledger.update ⟨ctx.scopeKey, key⟩ fun r => if r.freed then r else r.give claimId
      | .error _ => ledger
  | _ => ledger

structure Session where
  provider : MemoryQuotaProvider
  ledger : Ledger

def Session.init (defaultLimits : Dict QuotaResource Int) (weights : Dict Scope Int) : Session :=
  ⟨.init defaultLimits weights, []⟩

def act (σ : Session) (e : Event) : Session := ⟨next σ.provider e, σ.ledger.record σ.provider e⟩

/-- A release names a reservation with its own key, resource and units, and an
admission draws digits that no reservation has yet. -/
def Proper (σ : Session) (e : Event) : Prop :=
  match e.call with
  | .admit_ .. => ∀ r ∈ σ.ledger, ∀ name ∈ r.name, name.2 ≠ e.env.uuid
  | .release ctx resource units idempotencyKey _ =>
      ∃ r ∈ σ.ledger, r.scope = ctx.scopeKey ∧ r.resource = resource ∧ r.units = units ∧
        ∃ key ∈ idempotencyKey, r.releaseKey = some ⟨ctx.scopeKey, key⟩
  | _ => True

instance (σ : Session) : ∀ e : Event, Decidable (Proper σ e)
  | ⟨env, .admit_ ..⟩ =>
      inferInstanceAs (Decidable (∀ r ∈ σ.ledger, ∀ name ∈ r.name, name.2 ≠ env.uuid))
  | ⟨_, .release ctx resource units idempotencyKey _⟩ =>
      inferInstanceAs (Decidable (∃ r ∈ σ.ledger, r.scope = ctx.scopeKey ∧ r.resource = resource ∧
        r.units = units ∧ ∃ key ∈ idempotencyKey, r.releaseKey = some ⟨ctx.scopeKey, key⟩))
  | ⟨_, .setSuspended ..⟩ => inferInstanceAs (Decidable True)
  | ⟨_, .setContained ..⟩ => inferInstanceAs (Decidable True)
  | ⟨_, .getState ..⟩ => inferInstanceAs (Decidable True)
  | ⟨_, .getBudget ..⟩ => inferInstanceAs (Decidable True)
  | ⟨_, .setSharedPressure ..⟩ => inferInstanceAs (Decidable True)
  | ⟨_, .setUnavailable ..⟩ => inferInstanceAs (Decidable True)

/-! ## Changes of the ledger -/

section Ledger

variable {ledger : Ledger} {scope : Scope} {resource : QuotaResource}

theorem Ledger.held_append (ledger ledger' : Ledger) :
    Ledger.held (ledger ++ ledger') scope resource =
      ledger.held scope resource + ledger'.held scope resource := by
  unfold Ledger.held
  rw [List.map_append, List.sum_append]

theorem Ledger.held_cons (r : Reservation) (ledger : Ledger) :
    Ledger.held (r :: ledger) scope resource = r.held scope resource + ledger.held scope resource := by
  unfold Ledger.held
  rw [List.map_cons, List.sum_cons]

theorem Ledger.held_nonneg (h : ∀ r ∈ ledger, 0 < r.units) : 0 ≤ ledger.held scope resource := by
  apply List.sum_nonneg
  intro units hunits
  obtain ⟨r, hr, rfl⟩ := List.mem_map.mp hunits
  unfold Reservation.held
  split
  · exact (h r hr).le
  · exact le_rfl

/-- The release keys of the ledger. -/
def Ledger.keys (ledger : Ledger) : List QuotaKey := ledger.filterMap Reservation.releaseKey

theorem Ledger.mem_keys {key : QuotaKey} :
    key ∈ ledger.keys ↔ ∃ r ∈ ledger, r.releaseKey = some key :=
  List.mem_filterMap

theorem Ledger.mem_update {key : QuotaKey} {f : Reservation → Reservation} {x : Reservation} :
    x ∈ ledger.update key f ↔
      (x ∈ ledger ∧ x.releaseKey ≠ some key) ∨ ∃ r ∈ ledger, r.releaseKey = some key ∧ f r = x := by
  unfold Ledger.update
  rw [List.mem_map]
  constructor
  · rintro ⟨r, hr, rfl⟩
    by_cases hkey : r.releaseKey = some key
    · exact .inr ⟨r, hr, hkey, (if_pos hkey).symm⟩
    · rw [if_neg hkey]
      exact .inl ⟨hr, hkey⟩
  · rintro (⟨hx, hkey⟩ | ⟨r, hr, hkey, rfl⟩)
    · exact ⟨x, hx, if_neg hkey⟩
    · exact ⟨r, hr, if_pos hkey⟩

theorem Ledger.keys_update {key : QuotaKey} {f : Reservation → Reservation}
    (hf : ∀ r, (f r).releaseKey = r.releaseKey) : (ledger.update key f).keys = ledger.keys := by
  unfold Ledger.keys Ledger.update
  rw [List.filterMap_map]
  congr 1
  funext r
  show (if r.releaseKey = some key then f r else r).releaseKey = _
  split
  · exact hf r
  · rfl

/-- A release key belongs to one place of the ledger. -/
theorem Ledger.exists_split (hkeys : ledger.keys.Nodup) {r : Reservation} (hr : r ∈ ledger)
    {key : QuotaKey} (hkey : r.releaseKey = some key) :
    ∃ before after, ledger = before ++ r :: after ∧
      ∀ x ∈ before ++ after, x.releaseKey ≠ some key := by
  obtain ⟨before, after, rfl⟩ := List.append_of_mem hr
  refine ⟨before, after, rfl, ?_⟩
  have hsplit : Ledger.keys (before ++ r :: after) =
      Ledger.keys before ++ key :: Ledger.keys after := by
    unfold Ledger.keys
    rw [List.filterMap_append, List.filterMap_cons_some hkey]
  rw [hsplit, List.nodup_middle, List.nodup_cons] at hkeys
  intro x hx hxkey
  apply hkeys.1
  rw [List.mem_append] at hx ⊢
  exact hx.imp (fun h => Ledger.mem_keys.mpr ⟨x, h, hxkey⟩)
    fun h => Ledger.mem_keys.mpr ⟨x, h, hxkey⟩

theorem Ledger.unique (hkeys : ledger.keys.Nodup) {r r' : Reservation} (hr : r ∈ ledger)
    (hr' : r' ∈ ledger) {key : QuotaKey} (hkey : r.releaseKey = some key)
    (hkey' : r'.releaseKey = some key) : r = r' := by
  obtain ⟨before, after, rfl, hother⟩ := Ledger.exists_split hkeys hr hkey
  by_contra hne
  refine hother r' ?_ hkey'
  rw [List.mem_append, List.mem_cons] at hr'
  rw [List.mem_append]
  rcases hr' with h | h | h
  · exact .inl h
  · exact absurd h.symm hne
  · exact .inr h

theorem Ledger.update_split {before after : Ledger} {r : Reservation} {key : QuotaKey}
    (hkey : r.releaseKey = some key) (hother : ∀ x ∈ before ++ after, x.releaseKey ≠ some key)
    (f : Reservation → Reservation) :
    Ledger.update (before ++ r :: after) key f = before ++ f r :: after := by
  have hsame : ∀ l : Ledger, (∀ x ∈ l, x.releaseKey ≠ some key) → l.update key f = l := by
    intro l hl
    have hfixed : ∀ x ∈ l, (if x.releaseKey = some key then f x else x) = x :=
      fun x hx => if_neg (hl x hx)
    exact (List.map_congr_left hfixed).trans (List.map_id' l)
  show List.map _ _ = _
  rw [List.map_append, List.map_cons, if_pos hkey]
  congr 1
  · exact hsame before fun x hx => hother x (List.mem_append_left _ hx)
  · congr 1
    exact hsame after fun x hx => hother x (List.mem_append_right _ hx)

/-- A change of one reservation changes the sum by what that reservation holds. -/
theorem Ledger.held_update (hkeys : ledger.keys.Nodup) {r : Reservation} (hr : r ∈ ledger)
    {key : QuotaKey} (hkey : r.releaseKey = some key) (f : Reservation → Reservation) :
    (ledger.update key f).held scope resource =
      ledger.held scope resource - r.held scope resource + (f r).held scope resource := by
  obtain ⟨before, after, rfl, hother⟩ := Ledger.exists_split hkeys hr hkey
  rw [Ledger.update_split hkey hother]
  simp only [Ledger.held_append, Ledger.held_cons]
  omega

theorem Ledger.held_le (h : ∀ r ∈ ledger, 0 < r.units) {r : Reservation} (hr : r ∈ ledger) :
    r.held scope resource ≤ ledger.held scope resource := by
  obtain ⟨before, after, rfl⟩ := List.append_of_mem hr
  rw [Ledger.held_append, Ledger.held_cons]
  have hbefore : 0 ≤ Ledger.held before scope resource :=
    Ledger.held_nonneg fun x hx => h x (List.mem_append_left _ hx)
  have hafter : 0 ≤ Ledger.held after scope resource :=
    Ledger.held_nonneg fun x hx => h x (List.mem_append_right _ (List.mem_cons_of_mem _ hx))
  omega

end Ledger

/-- The digits at the end of a reservation key can be read back from its release key. -/
theorem uuid_of_releaseKey {scope scope' : Scope} {key key' : String} {u u' : UuidHex}
    (h : releaseKey scope (key ++ ":" ++ u.text) = releaseKey scope' (key' ++ ":" ++ u'.text)) :
    u = u' := by
  have htext := congrArg (fun k : QuotaKey => k.key.toList) h
  simp only [releaseKey, String.toList_append] at htext
  have hdigits := List.append_cancel_right htext
  have hlength : u.text.toList.length = u'.text.toList.length := by
    rw [String.length_toList, String.length_toList, u.length, u'.length]
  have := List.append_inj_right' hdigits hlength
  cases u
  cases u'
  congr
  exact String.toList_inj.mp this

end Etlantic.ControlPlane.Quota
