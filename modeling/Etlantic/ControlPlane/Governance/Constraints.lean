import Etlantic.Base.Allowlist
import Etlantic.Base.Dict
import Etlantic.Base.FirstOccurrence
import Etlantic.ControlPlane.Governance.PolicyGates

/-!
# Governance constraints

What a policy decision binds: regions and destinations that are allowed, masking profiles,
a retention.  Constraints are merged two at a time, and a policy service forces a denial for
whatever crosses its merged ones.

The two lists of a merge are allowlists (`Allowlist.merge`), so the merge is as strict as
both of its arguments just if their lists are compatible.
-/

namespace Etlantic.ControlPlane.Governance

open Allowlist (Permits Compatible)

structure GovernanceConstraints where
  classification : Option String
  residencyRegions : List String
  maskingProfiles : List String
  retentionDays : Option Int
  egressAllowlist : List String
  fieldImpacts : Dict String String

/-- A value that is given and not among those of a list that says something. -/
def outside (allowed : List String) (given : Option String) : Bool :=
  match given with
  | some x => !allowed.isEmpty && !allowed.contains x
  | none => false

/-- `crosses_boundary`. -/
def GovernanceConstraints.crossesBoundary (c : GovernanceConstraints)
    (targetRegion egressDestination : Option String) : Bool :=
  outside c.residencyRegions targetRegion || outside c.egressAllowlist egressDestination

/-- The shorter one of the retentions that are given. -/
def mergeRetention (base other : Option Int) : Option Int :=
  match other with
  | some days =>
      match base with
      | some retention => some (min retention days)
      | none => some days
  | none => base

/-- `merge_constraints` of two constraints. -/
def mergeConstraints (base other : GovernanceConstraints) : GovernanceConstraints where
  classification :=
    match other.classification with
    | some text => if text = "" then base.classification else some text
    | none => base.classification
  residencyRegions := Allowlist.merge base.residencyRegions other.residencyRegions
  maskingProfiles :=
    FirstOccurrence.firsts id [] (base.maskingProfiles ++ other.maskingProfiles)
  retentionDays := mergeRetention base.retentionDays other.retentionDays
  egressAllowlist := Allowlist.merge base.egressAllowlist other.egressAllowlist
  fieldImpacts := base.fieldImpacts.setAll other.fieldImpacts.entries

/-- The effect that `decide` answers: that of its rule, unless the attributes of the request
cross a boundary. An empty attribute counts as none. -/
def decidedEffect (constraints : GovernanceConstraints) (rule : PolicyEffect)
    (targetRegion egressDestination : Option String) : PolicyEffect :=
  if constraints.crossesBoundary (targetRegion.filter (· ≠ "")) (egressDestination.filter (· ≠ ""))
  then .deny else rule

section Boundaries

variable {c : GovernanceConstraints}

theorem outside_eq_false {allowed : List String} {given : Option String} :
    outside allowed given = false ↔ ∀ x, given = some x → Permits allowed x := by
  cases given with
  | none => simp [outside]
  | some x =>
      simp only [outside, Permits, Bool.and_eq_false_iff, Bool.not_eq_false', List.isEmpty_iff,
        List.contains_iff_mem, Option.some.injEq, forall_eq']

/-- Nothing crosses just if the region and the destination are permitted. -/
theorem crossesBoundary_eq_false {region destination : Option String} :
    c.crossesBoundary region destination = false ↔
      (∀ x, region = some x → Permits c.residencyRegions x) ∧
        ∀ x, destination = some x → Permits c.egressAllowlist x := by
  unfold GovernanceConstraints.crossesBoundary
  rw [Bool.or_eq_false_iff, outside_eq_false, outside_eq_false]

theorem permits_region {x : String} :
    c.crossesBoundary (some x) none = false ↔ Permits c.residencyRegions x := by
  rw [crossesBoundary_eq_false]
  simp

theorem permits_destination {x : String} :
    c.crossesBoundary none (some x) = false ↔ Permits c.egressAllowlist x := by
  rw [crossesBoundary_eq_false]
  simp

end Boundaries

theorem mergeRetention_le {base other : Option Int} {given : Int}
    (h : base = some given ∨ other = some given) :
    ∃ merged, mergeRetention base other = some merged ∧ merged ≤ given := by
  unfold mergeRetention
  rcases h with rfl | rfl
  · cases other with
    | none => exact ⟨given, rfl, le_refl given⟩
    | some days => exact ⟨min given days, rfl, min_le_left given days⟩
  · cases base with
    | none => exact ⟨given, rfl, le_refl given⟩
    | some retention => exact ⟨min retention given, rfl, min_le_right retention given⟩

section Merges

variable (a b c : GovernanceConstraints)

/-- The lists of two constraints are compatible. -/
def GovernanceConstraints.CompatibleWith : Prop :=
  Compatible a.residencyRegions b.residencyRegions ∧
    Compatible a.egressAllowlist b.egressAllowlist

/-- Two constraints permit the same regions and the same destinations. -/
def SamePermits : Prop :=
  (∀ region, a.crossesBoundary (some region) none = b.crossesBoundary (some region) none) ∧
    ∀ destination,
      a.crossesBoundary none (some destination) = b.crossesBoundary none (some destination)

/-- The merge of two constraints is at least as strict as each of them, and does not depend
on their order or, with a third one, on the grouping. -/
structure NeverLoosens : Prop where
  crosses : ∀ region destination,
    a.crossesBoundary region destination = true ∨ b.crossesBoundary region destination = true →
      (mergeConstraints a b).crossesBoundary region destination = true
  retention : ∀ given, a.retentionDays = some given ∨ b.retentionDays = some given →
    ∃ merged, (mergeConstraints a b).retentionDays = some merged ∧ merged ≤ given
  masking : ∀ profile, profile ∈ a.maskingProfiles ∨ profile ∈ b.maskingProfiles →
    profile ∈ (mergeConstraints a b).maskingProfiles
  order : SamePermits (mergeConstraints a b) (mergeConstraints b a)
  grouping : SamePermits (mergeConstraints (mergeConstraints a b) c)
    (mergeConstraints a (mergeConstraints b c))

variable {a b c}

/-- What crosses the merged constraints crosses whatever crosses one of them just if they
are compatible. -/
theorem crosses_merge_iff :
    (∀ region destination,
      a.crossesBoundary region destination = true ∨ b.crossesBoundary region destination = true →
        (mergeConstraints a b).crossesBoundary region destination = true) ↔
      a.CompatibleWith b := by
  constructor
  · intro h
    have hnone : ∀ region destination,
        (mergeConstraints a b).crossesBoundary region destination = false →
          a.crossesBoundary region destination = false ∧
            b.crossesBoundary region destination = false := by
      intro region destination hmerged
      have hnot := fun hor => Bool.false_ne_true (hmerged.symm.trans (h region destination hor))
      exact ⟨Bool.eq_false_of_not_eq_true fun hab => hnot (.inl hab),
        Bool.eq_false_of_not_eq_true fun hab => hnot (.inr hab)⟩
    refine ⟨Allowlist.merge_excludes_iff.mp ?_, Allowlist.merge_excludes_iff.mp ?_⟩
    · intro x hx
      obtain ⟨ha, hb⟩ := hnone (some x) none (permits_region.mpr hx)
      exact ⟨permits_region.mp ha, permits_region.mp hb⟩
    · intro x hx
      obtain ⟨ha, hb⟩ := hnone none (some x) (permits_destination.mpr hx)
      exact ⟨permits_destination.mp ha, permits_destination.mp hb⟩
  · rintro ⟨hregions, hegress⟩ region destination hor
    by_contra hmerged
    obtain ⟨hregion, hdestination⟩ :=
      crossesBoundary_eq_false.mp (Bool.eq_false_of_not_eq_true hmerged)
    have ha : a.crossesBoundary region destination = false := crossesBoundary_eq_false.mpr
      ⟨fun x hx => ((Allowlist.permits_merge hregions).mp (hregion x hx)).1,
        fun x hx => ((Allowlist.permits_merge hegress).mp (hdestination x hx)).1⟩
    have hb : b.crossesBoundary region destination = false := crossesBoundary_eq_false.mpr
      ⟨fun x hx => ((Allowlist.permits_merge hregions).mp (hregion x hx)).2,
        fun x hx => ((Allowlist.permits_merge hegress).mp (hdestination x hx)).2⟩
    rcases hor with h | h
    · exact Bool.false_ne_true (ha.symm.trans h)
    · exact Bool.false_ne_true (hb.symm.trans h)

theorem mem_maskingProfiles_merge {profile : String} :
    profile ∈ (mergeConstraints a b).maskingProfiles ↔
      profile ∈ a.maskingProfiles ∨ profile ∈ b.maskingProfiles := by
  unfold mergeConstraints
  rw [FirstOccurrence.mem_firsts_id, List.mem_append, and_iff_left List.not_mem_nil]

theorem samePermits_iff :
    SamePermits a b ↔
      (∀ x, Permits a.residencyRegions x ↔ Permits b.residencyRegions x) ∧
        ∀ x, Permits a.egressAllowlist x ↔ Permits b.egressAllowlist x := by
  have hsame : ∀ p q : Bool, p = q ↔ (p = false ↔ q = false) := by decide
  unfold SamePermits
  apply and_congr
  · apply forall_congr'
    intro x
    rw [hsame, permits_region, permits_region]
  · apply forall_congr'
    intro x
    rw [hsame, permits_destination, permits_destination]

theorem samePermits_comm : SamePermits (mergeConstraints a b) (mergeConstraints b a) :=
  samePermits_iff.mpr ⟨Allowlist.permits_merge_comm _ _, Allowlist.permits_merge_comm _ _⟩

/-- A request that one of two compatible constraints denies is denied by their merge. -/
theorem decidedEffect_merge (h : a.CompatibleWith b) {rule : PolicyEffect}
    {region destination : Option String}
    (hdenied : decidedEffect a rule region destination = .deny ∨
      decidedEffect b rule region destination = .deny) :
    decidedEffect (mergeConstraints a b) rule region destination = .deny := by
  have hcrosses := crosses_merge_iff.mpr h (region.filter (· ≠ "")) (destination.filter (· ≠ ""))
  unfold decidedEffect at hdenied ⊢
  by_cases hrule : rule = .deny
  · rw [hrule, ite_self]
  · apply if_pos
    apply hcrosses
    rcases hdenied with hdenied | hdenied
    · left
      by_contra hnot
      exact hrule ((if_neg hnot).symm.trans hdenied)
    · right
      by_contra hnot
      exact hrule ((if_neg hnot).symm.trans hdenied)

instance infiniteTexts : Infinite String :=
  Infinite.of_injective String.ofList fun _ _ h => String.ofList_injective h

/-- A merge never loosens just if lists that are merged and both say something share an element. -/
theorem neverLoosens_iff :
    NeverLoosens a b c ↔ a.CompatibleWith b ∧
      (a.residencyRegions = [] ∨ Compatible b.residencyRegions c.residencyRegions) ∧
        (a.egressAllowlist = [] ∨ Compatible b.egressAllowlist c.egressAllowlist) := by
  constructor
  · intro h
    have hab := crosses_merge_iff.mp h.crosses
    have hgrouping := samePermits_iff.mp h.grouping
    exact ⟨hab, (Allowlist.merge_assoc_iff hab.1).mp hgrouping.1,
      (Allowlist.merge_assoc_iff hab.2).mp hgrouping.2⟩
  · rintro ⟨hab, hregions, hegress⟩
    exact {
      crosses := crosses_merge_iff.mpr hab
      retention := fun given hgiven => mergeRetention_le hgiven
      masking := fun profile hprofile => mem_maskingProfiles_merge.mpr hprofile
      order := samePermits_comm
      grouping := samePermits_iff.mpr ⟨(Allowlist.merge_assoc_iff hab.1).mpr hregions,
        (Allowlist.merge_assoc_iff hab.2).mpr hegress⟩ }

end Merges

/-- Constraints that allow only the region given. -/
def onlyRegion (region : String) : GovernanceConstraints :=
  ⟨none, [region], [], none, [], .empty⟩

/-- Merged constraints of two different regions allow every region. -/
theorem not_neverLoosens : ¬ ∀ a b c, NeverLoosens a b c := by
  intro h
  have hcrosses := (h (onlyRegion "eu") (onlyRegion "us") (onlyRegion "eu")).crosses
    (some "us") none (.inl (by decide))
  have hmerged : (mergeConstraints (onlyRegion "eu") (onlyRegion "us")).crossesBoundary
      (some "us") none = false := by decide
  exact Bool.false_ne_true (hmerged.symm.trans hcrosses)

end Etlantic.ControlPlane.Governance
