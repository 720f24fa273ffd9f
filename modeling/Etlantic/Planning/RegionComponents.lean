import Etlantic.Base.Checked
import Etlantic.Planning.Assignments
import Etlantic.Planning.Regions
import Mathlib.Data.List.Pairwise
import Mathlib.Logic.Relation

/-!
# Regions are the components of the soft edges

A soft edge stays on one target and is not a hard boundary.  The regions that
`_regions` forms are exactly the weakly connected components of the soft edges;
what a region records as dependencies are the regions that its nodes read from.
Components know nothing of directions, so two regions may read from each other.
-/

namespace Etlantic.Planning

variable {ν : Type} {c : RegionContext} {graph : DeclaredGraph ν}

/-! ## The graph and its assignment -/

/-- Every node has a target of the inventory, and every edge has two nodes. -/
structure Assigned (c : RegionContext) (graph : DeclaredGraph ν) : Prop where
  distinct : graph.nodeNames.Nodup
  ends : ∀ e ∈ graph.edges, e.producerNode ∈ graph.nodeNames ∧ e.consumerNode ∈ graph.nodeNames
  total : ∀ name ∈ graph.nodeNames, ∃ d ∈ c.decisions, d.nodeName = name
  known : ∀ d ∈ c.decisions, ∃ t ∈ c.inventory, t.targetId = d.targetId

/-- Some edge leads from `a` to `b`. -/
def DeclaredGraph.Feeds (graph : DeclaredGraph ν) (a b : String) : Prop :=
  ∃ e ∈ graph.edges, e.producerNode = a ∧ e.consumerNode = b

def DeclaredGraph.Acyclic (graph : DeclaredGraph ν) : Prop :=
  ∀ name, ¬ Relation.TransGen graph.Feeds name name

/-- The assignment puts `a` and `b` on one target. -/
def SameTarget (c : RegionContext) (a b : String) : Prop :=
  ∃ target, lookup c.byNode a = .ok target ∧ lookup c.byNode b = .ok target

/-- The nodes at the ends of an edge need a boundary between them. -/
def HardEdge [MetadataValue ν] (c : RegionContext) (graph : DeclaredGraph ν) (e : Edge) : Prop :=
  ∃ p ∈ graph.nodes, ∃ q ∈ graph.nodes, p.name = e.producerNode ∧ q.name = e.consumerNode ∧
    isHardBoundary c.profileDomain p q = true

/-- A soft edge leads from `a` to `b`. -/
def Linked [MetadataValue ν] (c : RegionContext) (graph : DeclaredGraph ν) (a b : String) : Prop :=
  ∃ e ∈ graph.edges, e.producerNode = a ∧ e.consumerNode = b ∧ SameTarget c a b ∧
    ¬ HardEdge c graph e

theorem lookup_byNode (h : Assigned c graph) {name : String} (hname : name ∈ graph.nodeNames) :
    ∃ target, lookup c.byNode name = .ok target := by
  obtain ⟨d, hd, rfl⟩ := h.total name hname
  exact exists_lookup (List.mem_map.mpr ⟨d, hd, rfl⟩)

theorem lookup_targetById (h : Assigned c graph) {name target : String}
    (hlookup : lookup c.byNode name = .ok target) :
    ∃ t ∈ c.inventory, t.targetId = target ∧ lookup c.targetById target = .ok t := by
  obtain ⟨d, hd, hpair⟩ := List.mem_map.mp (mem_of_lookup hlookup)
  obtain ⟨-, rfl⟩ := Prod.mk.inj hpair
  obtain ⟨t, ht, hid⟩ := h.known d hd
  have hmem : (d.targetId, t) ∈ c.targetById := List.mem_map.mpr ⟨t, ht, Prod.ext hid rfl⟩
  obtain ⟨found, hfound⟩ := exists_lookup hmem
  obtain ⟨t', ht', hpair⟩ := List.mem_map.mp (mem_of_lookup hfound)
  obtain ⟨hkey, rfl⟩ := Prod.mk.inj hpair
  exact ⟨t', ht', hkey, hfound⟩

theorem lookup_nodeMap (h : Assigned c graph) {node : DeclaredNode ν} (hnode : node ∈ graph.nodes) :
    lookup graph.nodeMap node.name = .ok node :=
  lookup_of_nodup h.distinct hnode

theorem exists_node {name : String} (hname : name ∈ graph.nodeNames) :
    ∃ node ∈ graph.nodes, node.name = name := by
  obtain ⟨node, hnode, rfl⟩ := List.mem_map.mp hname
  exact ⟨node, hnode, rfl⟩

variable [MetadataValue ν]

/-! ## Joining -/

/-- A soft edge of `rest` leads from `a` to `b`. -/
def LinkedIn (c : RegionContext) (graph : DeclaredGraph ν) (rest : List Edge) (a b : String) :
    Prop :=
  ∃ e ∈ rest, e.producerNode = a ∧ e.consumerNode = b ∧ SameTarget c a b ∧ ¬ HardEdge c graph e

theorem hardEdge_iff (h : Assigned c graph) {e : Edge} {p q : DeclaredNode ν}
    (hp : lookup graph.nodeMap e.producerNode = .ok p)
    (hq : lookup graph.nodeMap e.consumerNode = .ok q) :
    HardEdge c graph e ↔ isHardBoundary c.profileDomain p q = true := by
  obtain ⟨p', hp', hpair⟩ := List.mem_map.mp (mem_of_lookup hp)
  obtain ⟨hpname, rfl⟩ := Prod.mk.inj hpair
  obtain ⟨q', hq', hpair⟩ := List.mem_map.mp (mem_of_lookup hq)
  obtain ⟨hqname, rfl⟩ := Prod.mk.inj hpair
  constructor
  · rintro ⟨a, ha, b, hb, haname, hbname, hard⟩
    obtain rfl := List.inj_on_of_nodup_map h.distinct ha hp' (haname.trans hpname.symm)
    obtain rfl := List.inj_on_of_nodup_map h.distinct hb hq' (hbname.trans hqname.symm)
    exact hard
  · intro hard
    exact ⟨p', hp', q', hq', hpname, hqname, hard⟩

/-- One edge: it is skipped, or its ends are joined and it is soft. -/
theorem joinEdges_cons (h : Assigned c graph) {e : Edge} (he : e ∈ graph.edges) (rest : List Edge)
    (parent : String → String) :
    (joinEdges c graph (e :: rest) parent = joinEdges c graph rest parent ∧
      ¬ (SameTarget c e.producerNode e.consumerNode ∧ ¬ HardEdge c graph e)) ∨
    (joinEdges c graph (e :: rest) parent = joinEdges c graph rest
        (UnionFind.union graph.edges.length parent e.producerNode e.consumerNode) ∧
      SameTarget c e.producerNode e.consumerNode ∧ ¬ HardEdge c graph e) := by
  obtain ⟨hpname, hqname⟩ := h.ends e he
  obtain ⟨p, hp, hpn⟩ := exists_node hpname
  obtain ⟨q, hq, hqn⟩ := exists_node hqname
  have hlp := lookup_nodeMap h hp
  have hlq := lookup_nodeMap h hq
  rw [hpn] at hlp
  rw [hqn] at hlq
  obtain ⟨s, hs⟩ := lookup_byNode h hpname
  obtain ⟨t, ht⟩ := lookup_byNode h hqname
  have hstep : joinEdges c graph (e :: rest) parent =
      if s ≠ t then joinEdges c graph rest parent
      else if isHardBoundary c.profileDomain p q then joinEdges c graph rest parent
      else joinEdges c graph rest
        (UnionFind.union graph.edges.length parent e.producerNode e.consumerNode) := by
    rw [joinEdges, hlp, hlq, hs, ht]
    rfl
  rw [hstep]
  by_cases hst : s = t
  · rw [if_neg (not_not.mpr hst)]
    subst hst
    by_cases hard : isHardBoundary c.profileDomain p q = true
    · rw [if_pos hard]
      exact Or.inl ⟨rfl, fun hsoft => hsoft.2 ((hardEdge_iff h hlp hlq).mpr hard)⟩
    · rw [if_neg hard]
      exact Or.inr ⟨rfl, ⟨s, hs, ht⟩, fun hhard => hard ((hardEdge_iff h hlp hlq).mp hhard)⟩
  · rw [if_pos hst]
    refine Or.inl ⟨rfl, ?_⟩
    rintro ⟨⟨target, hs', ht'⟩, -⟩
    rw [hs] at hs'
    rw [ht] at ht'
    exact hst ((Except.ok.inj hs').trans (Except.ok.inj ht').symm)

/-- After the loop the forest holds the classes of the soft edges. -/
theorem joinEdges_represents (h : Assigned c graph) : ∀ {rest : List Edge} {n : Nat}
    {r : String → String → Prop} {parent : String → String},
    (∀ e ∈ rest, e ∈ graph.edges) → UnionFind.Represents n r parent →
    n + rest.length ≤ graph.edges.length →
    ∃ joined m, joinEdges c graph rest parent = .ok joined ∧ m ≤ graph.edges.length ∧
      UnionFind.Represents m (fun a b => r a b ∨ LinkedIn c graph rest a b) joined := by
  intro rest
  induction rest with
  | nil =>
      intro n r parent _ hrep hle
      refine ⟨parent, n, rfl, by simpa using hle, ?_⟩
      refine hrep.congr fun a b => ?_
      constructor
      · exact Or.inl
      · rintro (hr | ⟨e, he, -⟩)
        · exact hr
        · cases he
  | cons e rest ih =>
      intro n r parent hsub hrep hle
      rw [List.length_cons] at hle
      have hrest : ∀ e' ∈ rest, e' ∈ graph.edges := fun e' he' => hsub e' (List.mem_cons_of_mem _ he')
      rcases joinEdges_cons h (hsub e List.mem_cons_self) rest parent with
        ⟨hskip, hnot⟩ | ⟨hjoin, hsoft⟩
      · obtain ⟨joined, m, hok, hm, hrep⟩ := ih hrest hrep (by omega)
        refine ⟨joined, m, hskip.trans hok, hm, hrep.congr fun a b => ?_⟩
        constructor
        · rintro (hr | ⟨e', he', hlink⟩)
          · exact Or.inl hr
          · exact Or.inr ⟨e', List.mem_cons_of_mem _ he', hlink⟩
        · rintro (hr | ⟨e', he', hlink⟩)
          · exact Or.inl hr
          · rcases List.mem_cons.mp he' with rfl | he'
            · obtain ⟨rfl, rfl, hsoft⟩ := hlink
              exact absurd hsoft hnot
            · exact Or.inr ⟨e', he', hlink⟩
      · have hrep' := @UnionFind.Represents.union _ _ _ graph.edges.length _ _ e.producerNode
          e.consumerNode hrep (by omega)
        obtain ⟨joined, m, hok, hm, hrep⟩ := ih hrest hrep' (by omega)
        refine ⟨joined, m, hjoin.trans hok, hm, hrep.congr fun a b => ?_⟩
        constructor
        · rintro ((hr | ⟨rfl, rfl⟩) | ⟨e', he', hlink⟩)
          · exact Or.inl hr
          · exact Or.inr ⟨e, List.mem_cons_self, rfl, rfl, hsoft⟩
          · exact Or.inr ⟨e', List.mem_cons_of_mem _ he', hlink⟩
        · rintro (hr | ⟨e', he', hlink⟩)
          · exact Or.inl (Or.inl hr)
          · rcases List.mem_cons.mp he' with rfl | he'
            · exact Or.inl (Or.inr ⟨hlink.1.symm, hlink.2.1.symm⟩)
            · exact Or.inr ⟨e', he', hlink⟩

/-! ## Grouping -/

/-- The groups of a list of names by the roots of a forest. -/
theorem groupByRoot_groups {fuel n : Nat} {root : String → String} (hn : n ≤ fuel) :
    ∀ {rest done : List String} {parent : String → String} {groups : Dict String (List String)},
    (∀ x, UnionFind.Climbs parent n x (root x)) → groups.Groups root done →
    (groupByRoot fuel rest parent groups).Groups root (done ++ rest) := by
  intro rest
  induction rest with
  | nil =>
      intro done parent groups _ hgroups
      rw [List.append_nil]
      exact hgroups
  | cons name rest ih =>
      intro done parent groups hclimbs hgroups
      have hroot := UnionFind.find_root (hclimbs name) hn
      have hafter : ∀ x, UnionFind.Climbs (UnionFind.find fuel parent name).1 n x (root x) :=
        fun x => UnionFind.find_climbs (hclimbs x)
      have hnext := ih hafter (hgroups.append name)
      rw [List.append_assoc, List.singleton_append] at hnext
      show (groupByRoot fuel rest (UnionFind.find fuel parent name).1
        (groups.append (UnionFind.find fuel parent name).2 name)).Groups root (done ++ name :: rest)
      rw [hroot]
      exact hnext

/-- The groups partition the names into the classes of `same`. -/
structure Classes (same : String → String → Prop) (names : List String)
    (groups : List (List String)) : Prop where
  perm : groups.flatten.Perm names
  inhabited : ∀ members ∈ groups, members ≠ []
  whole : ∀ members ∈ groups, ∀ a ∈ members, ∀ b ∈ names, b ∈ members ↔ same a b

theorem perm_flatten_map {α : Type} {f : List α → List α} (hf : ∀ xs, (f xs).Perm xs) :
    ∀ xss : List (List α), (xss.map f).flatten.Perm xss.flatten
  | [] => List.Perm.refl []
  | xs :: xss => by
      rw [List.map_cons, List.flatten_cons, List.flatten_cons]
      exact (hf xs).append (perm_flatten_map hf xss)

theorem orderedGroups_classes {root : String → String} {names : List String}
    {groups : Dict String (List String)} (h : groups.Groups root names)
    {same : String → String → Prop} (hsame : ∀ a b, root a = root b ↔ same a b) :
    Classes same names (orderedGroups names groups) := by
  have hsorted : ∀ members : List String,
      (members.insertionSort fun a b => names.idxOf a ≤ names.idxOf b).Perm members :=
    fun members => List.perm_insertionSort _ members
  have hgroups := List.perm_insertionSort
    (fun a b => firstIndex names a ≤ firstIndex names b) groups.values
  -- sorting moves the groups and the names inside them, and nothing else
  have hfrom : ∀ members ∈ orderedGroups names groups, ∃ found ∈ groups.values,
      members.Perm found := by
    intro members hmembers
    obtain ⟨found, hfound, rfl⟩ := List.mem_map.mp hmembers
    exact ⟨found, hgroups.mem_iff.mp hfound, hsorted found⟩
  refine ⟨?_, fun members hmembers => ?_, fun members hmembers a ha b hb => ?_⟩
  · exact ((perm_flatten_map hsorted _).trans hgroups.flatten).trans h.perm
  · obtain ⟨found, hfound, hperm⟩ := hfrom members hmembers
    obtain ⟨k, hentry⟩ := Dict.mem_values.mp hfound
    intro hnil
    rw [hnil] at hperm
    exact h.inhabited k found (Dict.mem_entries_iff.mp hentry) hperm.nil_eq.symm
  · obtain ⟨found, hfound, hperm⟩ := hfrom members hmembers
    rw [hperm.mem_iff, h.mem_iff hfound (hperm.mem_iff.mp ha) hb, ← hsame a b]
    exact eq_comm

/-- The groups are the components of the soft edges. -/
theorem groups_components (h : Assigned c graph) :
    ∃ joined, joinEdges c graph graph.edges id = .ok joined ∧
      Classes (Relation.EqvGen (Linked c graph)) graph.nodeNames
        (orderedGroups graph.nodeNames
          (groupByRoot graph.edges.length graph.nodeNames joined .empty)) := by
  obtain ⟨joined, m, hok, hm, hrep⟩ := joinEdges_represents h (fun e he => he)
    UnionFind.represents_id (Nat.le_of_eq (Nat.zero_add _))
  have hrep : UnionFind.Represents m (Linked c graph) joined := by
    refine hrep.congr fun a b => ?_
    constructor
    · rintro (hfalse | hlink)
      · exact hfalse.elim
      · exact hlink
    · exact Or.inr
  obtain ⟨root, hclimbs, hclasses⟩ := hrep
  exact ⟨joined, hok, orderedGroups_classes
    (groupByRoot_groups hm hclimbs Dict.groups_empty) hclasses⟩

/-! ## Components keep their target and contain no hard edge -/

theorem isHardBoundary_eq_false {profileDomain : String} {p q : DeclaredNode ν} :
    isHardBoundary profileDomain p q = false ↔
      MetadataValue.same (securityDomain profileDomain p) (securityDomain profileDomain q) = true ∧
        declaresBoundary p = false ∧ declaresBoundary q = false := by
  unfold isHardBoundary
  cases MetadataValue.same (securityDomain profileDomain p) (securityDomain profileDomain q) <;>
    simp

theorem lookup_eq_of_component {a b : String} (hab : Relation.EqvGen (Linked c graph) a b) :
    lookup c.byNode a = lookup c.byNode b := by
  induction hab with
  | rel a b hlink =>
      obtain ⟨_, _, _, _, ⟨target, hlookup, hlookup'⟩, _⟩ := hlink
      rw [hlookup, hlookup']
  | refl a => rfl
  | symm a b _ ih => exact ih.symm
  | trans a b d _ _ ih ih' => exact ih.trans ih'

/-- No boundary is needed between `a` and `b`. -/
def Compatible (c : RegionContext) (graph : DeclaredGraph ν) (a b : String) : Prop :=
  ∃ p ∈ graph.nodes, ∃ q ∈ graph.nodes, p.name = a ∧ q.name = b ∧
    isHardBoundary c.profileDomain p q = false

theorem Compatible.symm {a b : String} (h : Compatible c graph a b) : Compatible c graph b a := by
  obtain ⟨p, hp, q, hq, hpa, hqb, hfree⟩ := h
  obtain ⟨hsame, hpfree, hqfree⟩ := isHardBoundary_eq_false.mp hfree
  exact ⟨q, hq, p, hp, hqb, hpa,
    isHardBoundary_eq_false.mpr ⟨MetadataValue.same_symm hsame, hqfree, hpfree⟩⟩

theorem Compatible.trans (h : Assigned c graph) {a b d : String} (hab : Compatible c graph a b)
    (hbd : Compatible c graph b d) : Compatible c graph a d := by
  obtain ⟨p, hp, q, hq, hpa, hqb, hfree⟩ := hab
  obtain ⟨q', hq', s, hs, hqb', hsd, hfree'⟩ := hbd
  obtain rfl := List.inj_on_of_nodup_map h.distinct hq hq' (hqb.trans hqb'.symm)
  obtain ⟨hsame, hpfree, -⟩ := isHardBoundary_eq_false.mp hfree
  obtain ⟨hsame', -, hsfree⟩ := isHardBoundary_eq_false.mp hfree'
  exact ⟨p, hp, s, hs, hpa, hsd,
    isHardBoundary_eq_false.mpr ⟨MetadataValue.same_trans hsame hsame', hpfree, hsfree⟩⟩

theorem compatible_of_linked (h : Assigned c graph) {a b : String} (hab : Linked c graph a b) :
    Compatible c graph a b := by
  obtain ⟨e, he, rfl, rfl, -, hsoft⟩ := hab
  obtain ⟨hpname, hqname⟩ := h.ends e he
  obtain ⟨p, hp, hpn⟩ := exists_node hpname
  obtain ⟨q, hq, hqn⟩ := exists_node hqname
  refine ⟨p, hp, q, hq, hpn, hqn, ?_⟩
  by_contra hard
  exact hsoft ⟨p, hp, q, hq, hpn, hqn, by simpa using hard⟩

/-- The two ends of a hard edge are in different components, or are one node. -/
theorem not_hardEdge_of_component (h : Assigned c graph) {e : Edge}
    (hends : e.producerNode ≠ e.consumerNode)
    (hab : Relation.EqvGen (Linked c graph) e.producerNode e.consumerNode) :
    ¬ HardEdge c graph e := by
  rintro ⟨p, hp, q, hq, hpn, hqn, hard⟩
  rcases UnionFind.eqvGen_imp (r := Linked c graph) (s := Compatible c graph)
    (compatible_of_linked h) Compatible.symm (Compatible.trans h) hab with
    heq | ⟨p', hp', q', hq', hpn', hqn', hfree⟩
  · exact hends heq
  · obtain rfl := List.inj_on_of_nodup_map h.distinct hp hp' (hpn.trans hpn'.symm)
    obtain rfl := List.inj_on_of_nodup_map h.distinct hq hq' (hqn.trans hqn'.symm)
    rw [hard] at hfree
    cases hfree

/-! ## What the loops of `_regions` return -/

theorem form_eq {members : List String} {r : AdaptiveRegion} (h : c.form members = .ok r) :
    r.logicalNodes = members ∧ lookup c.byNode (members.headD "") = .ok r.targetId := by
  obtain ⟨targetId, htarget, h⟩ := Checked.bind_eq_ok.mp h
  obtain ⟨target, -, h⟩ := Checked.bind_eq_ok.mp h
  obtain rfl := Except.ok.inj h
  exact ⟨rfl, htarget⟩

theorem admitRegions_eq {refuses : List (String × String) → Option PlanningError} {limit : Nat} :
    ∀ {groups : List (List String)} {live after : Nat} {out : List AdaptiveRegion},
    admitRegions c refuses limit groups live = .ok (out, after) →
      List.Forall₂ (fun members r => c.form members = .ok r) groups out := by
  intro groups
  induction groups with
  | nil =>
      intro live after out h
      obtain ⟨rfl, -⟩ := Prod.mk.inj (Except.ok.inj h)
      exact .nil
  | cons members rest ih =>
      intro live after out h
      obtain ⟨r, hform, h⟩ := Checked.bind_eq_ok.mp h
      obtain ⟨_, -, h⟩ := Checked.bind_eq_ok.mp h
      obtain ⟨⟨out', after'⟩, hrest, h⟩ := Checked.bind_eq_ok.mp h
      obtain ⟨rfl, -⟩ := Prod.mk.inj (Except.ok.inj h)
      exact .cons hform (ih hrest)

/-- A completed region is the formed one with its dependencies. -/
def Completes (deps : Dict String (List String)) (r done : AdaptiveRegion) : Prop :=
  ∃ found, deps.get? r.identity = some found ∧
    done = { r with dependencies := found.insertionSort (· ≤ ·) }

theorem complete_eq {deps : Dict String (List String)} {r done : AdaptiveRegion}
    (h : r.complete deps = .ok done) : Completes deps r done := by
  unfold AdaptiveRegion.complete at h
  cases hget : deps.get? r.identity with
  | none =>
      rw [hget] at h
      cases h
  | some found =>
      rw [hget] at h
      exact ⟨found, hget, (Except.ok.inj h).symm⟩

theorem completeRegions_eq {deps : Dict String (List String)}
    {refuses : List (String × String) → Option PlanningError} {limit : Nat} :
    ∀ {formed : List AdaptiveRegion} {live after : Nat} {out : List AdaptiveRegion},
    completeRegions deps refuses limit formed live = .ok (out, after) →
      List.Forall₂ (Completes deps) formed out := by
  intro formed
  induction formed with
  | nil =>
      intro live after out h
      obtain ⟨rfl, -⟩ := Prod.mk.inj (Except.ok.inj h)
      exact .nil
  | cons r rest ih =>
      intro live after out h
      obtain ⟨done, hdone, h⟩ := Checked.bind_eq_ok.mp h
      obtain ⟨_, -, h⟩ := Checked.bind_eq_ok.mp h
      obtain ⟨⟨out', after'⟩, hrest, h⟩ := Checked.bind_eq_ok.mp h
      obtain ⟨rfl, -⟩ := Prod.mk.inj (Except.ok.inj h)
      exact .cons (complete_eq hdone) (ih hrest)

/-- Some edge of `rest` brings the region `d` to the region `k`. -/
def Brings (identities : List (String × String)) (rest : List Edge) (d k : String) : Prop :=
  ∃ e ∈ rest, lookup identities e.producerNode = .ok d ∧ lookup identities e.consumerNode = .ok k

theorem collectDependencies_eq {identities : List (String × String)} :
    ∀ {rest : List Edge} {deps done : Dict String (List String)},
    collectDependencies identities rest deps = .ok done → ∀ k found', done.get? k = some found' →
      ∃ found, deps.get? k = some found ∧ (found.Nodup → found'.Nodup) ∧
        ∀ d, d ∈ found' ↔ d ∈ found ∨ d ≠ k ∧ Brings identities rest d k := by
  intro rest
  induction rest with
  | nil =>
      intro deps done h k found' hget
      obtain rfl := Except.ok.inj h
      refine ⟨found', hget, fun hnodup => hnodup, fun d => ?_⟩
      constructor
      · exact Or.inl
      · rintro (hmem | ⟨-, e, he, -⟩)
        · exact hmem
        · cases he
  | cons e rest ih =>
      intro deps done h k found' hget
      obtain ⟨left, hleft, h⟩ := Checked.bind_eq_ok.mp h
      obtain ⟨right, hright, h⟩ := Checked.bind_eq_ok.mp h
      have hbrings : ∀ d, Brings identities (e :: rest) d k ↔
          (left = d ∧ right = k) ∨ Brings identities rest d k := by
        intro d
        constructor
        · rintro ⟨e', he', hl, hr⟩
          rcases List.mem_cons.mp he' with rfl | he'
          · rw [hleft] at hl
            rw [hright] at hr
            exact Or.inl ⟨Except.ok.inj hl, Except.ok.inj hr⟩
          · exact Or.inr ⟨e', he', hl, hr⟩
        · rintro (⟨rfl, rfl⟩ | ⟨e', he', hl, hr⟩)
          · exact ⟨e, List.mem_cons_self, hleft, hright⟩
          · exact ⟨e', List.mem_cons_of_mem _ he', hl, hr⟩
      by_cases hlr : left = right
      · -- an edge inside a region brings nothing
        rw [if_pos hlr] at h
        obtain ⟨found, hfound, hnodup, hmem⟩ := ih h k found' hget
        refine ⟨found, hfound, hnodup, fun d => ?_⟩
        rw [hmem d, hbrings d]
        constructor
        · rintro (hd | ⟨hne, hb⟩)
          · exact Or.inl hd
          · exact Or.inr ⟨hne, Or.inr hb⟩
        · rintro (hd | ⟨hne, ⟨rfl, rfl⟩ | hb⟩)
          · exact Or.inl hd
          · exact absurd hlr hne
          · exact Or.inr ⟨hne, hb⟩
      · rw [if_neg hlr] at h
        cases hr : deps.get? right with
        | none =>
            rw [hr] at h
            cases h
        | some old =>
            rw [hr] at h
            obtain ⟨found, hfound, hnodup, hmem⟩ := ih h k found' hget
            rcases Dict.get?_set_eq_some.mp hfound with ⟨rfl, rfl⟩ | ⟨hne, hold⟩
            · refine ⟨old, hr, fun h => hnodup (h.insert), fun d => ?_⟩
              rw [hmem d, hbrings d, List.mem_insert_iff]
              constructor
              · rintro ((rfl | hd) | ⟨hne, hb⟩)
                · exact Or.inr ⟨hlr, Or.inl ⟨rfl, rfl⟩⟩
                · exact Or.inl hd
                · exact Or.inr ⟨hne, Or.inr hb⟩
              · rintro (hd | ⟨hne, ⟨rfl, -⟩ | hb⟩)
                · exact Or.inl (Or.inr hd)
                · exact Or.inl (Or.inl rfl)
                · exact Or.inr ⟨hne, hb⟩
            · refine ⟨found, hold, hnodup, fun d => ?_⟩
              rw [hmem d, hbrings d]
              constructor
              · rintro (hd | ⟨hne', hb⟩)
                · exact Or.inl hd
                · exact Or.inr ⟨hne', Or.inr hb⟩
              · rintro (hd | ⟨hne', ⟨-, rfl⟩ | hb⟩)
                · exact Or.inl hd
                · exact absurd rfl hne
                · exact Or.inr ⟨hne', hb⟩

/-- Before the loop every region depends on nothing. -/
theorem noDependencies : ∀ {formed : List AdaptiveRegion} {deps : Dict String (List String)},
    (∀ k found, deps.get? k = some found → found = []) → ∀ k found,
      (formed.foldl (fun deps region => deps.set region.identity []) deps).get? k = some found →
      found = [] := by
  intro formed
  induction formed with
  | nil => exact fun h => h
  | cons r rest ih =>
      intro deps h
      refine ih fun k found hget => ?_
      rcases Dict.get?_set_eq_some.mp hget with ⟨-, rfl⟩ | ⟨-, hold⟩
      · rfl
      · exact h k found hold

/-! ## The regions -/

/-- What `_regions` guarantees about the regions it returns. -/
structure Formed (c : RegionContext) (graph : DeclaredGraph ν) (out : List AdaptiveRegion) :
    Prop where
  /-- every node is in exactly one region -/
  partition : (out.flatMap (·.logicalNodes)).Perm graph.nodeNames
  inhabited : ∀ r ∈ out, r.logicalNodes ≠ []
  target : ∀ r ∈ out, ∀ name ∈ r.logicalNodes, lookup c.byNode name = .ok r.targetId
  /-- a region is a whole component of the soft edges -/
  component : ∀ r ∈ out, ∀ a ∈ r.logicalNodes, ∀ b ∈ graph.nodeNames,
    b ∈ r.logicalNodes ↔ Relation.EqvGen (Linked c graph) a b
  joined : ∀ e ∈ graph.edges, SameTarget c e.producerNode e.consumerNode → ¬ HardEdge c graph e →
    ∃ r ∈ out, e.producerNode ∈ r.logicalNodes ∧ e.consumerNode ∈ r.logicalNodes
  soft : ∀ r ∈ out, ∀ e ∈ graph.edges, e.producerNode ∈ r.logicalNodes →
    e.consumerNode ∈ r.logicalNodes → ¬ HardEdge c graph e
  /-- the dependencies are the other regions that its nodes read from -/
  dependencies : ∀ r ∈ out, ∀ d, d ∈ r.dependencies ↔ d ≠ r.identity ∧
    ∃ e ∈ graph.edges, (∃ left ∈ out, e.producerNode ∈ left.logicalNodes ∧ left.identity = d) ∧
      ∃ right ∈ out, e.consumerNode ∈ right.logicalNodes ∧ right.identity = r.identity
  ordered : ∀ r ∈ out, r.dependencies.Pairwise (· < ·)

section Regions

variable {refuses : List (String × String) → Option PlanningError} {limit live after : Nat}
  {out : List AdaptiveRegion}

/-- The steps of a call that returns. -/
theorem regions_eq (h : Assigned c graph) (hok : regions c graph refuses limit live = .ok (out, after)) :
    ∃ groups formed deps, Classes (Relation.EqvGen (Linked c graph)) graph.nodeNames groups ∧
      List.Forall₂ (fun members r => c.form members = .ok r) groups formed ∧
      collectDependencies (identityByNode formed) graph.edges
        (formed.foldl (fun deps region => deps.set region.identity []) .empty) = .ok deps ∧
      List.Forall₂ (Completes deps) formed out := by
  obtain ⟨joined, hjoined, hclasses⟩ := groups_components h
  obtain ⟨joined', hjoined', hok⟩ := Checked.bind_eq_ok.mp hok
  rw [hjoined] at hjoined'
  obtain rfl := Except.ok.inj hjoined'
  obtain ⟨⟨formed, live'⟩, hadmits, hok⟩ := Checked.bind_eq_ok.mp hok
  obtain ⟨deps, hdeps, hok⟩ := Checked.bind_eq_ok.mp hok
  exact ⟨_, formed, deps, hclasses, admitRegions_eq hadmits, hdeps, completeRegions_eq hok⟩

theorem nodes_of_form {groups : List (List String)} {formed : List AdaptiveRegion}
    (h : List.Forall₂ (fun members r => c.form members = .ok r) groups formed) :
    formed.map (·.logicalNodes) = groups := by
  induction h with
  | nil => rfl
  | cons hform _ ih => rw [List.map_cons, (form_eq hform).1, ih]

theorem form_of_mem {groups : List (List String)} {formed : List AdaptiveRegion}
    (h : List.Forall₂ (fun members r => c.form members = .ok r) groups formed)
    {r : AdaptiveRegion} (hr : r ∈ formed) : c.form r.logicalNodes = .ok r := by
  obtain ⟨members, -, hform⟩ := Checked.exists_of_forall₂_right h hr
  rw [(form_eq hform).1, hform]

theorem Completes.nodes {deps : Dict String (List String)} {r done : AdaptiveRegion}
    (h : Completes deps r done) : done.logicalNodes = r.logicalNodes := by
  obtain ⟨found, -, rfl⟩ := h
  rfl

theorem nodes_of_completes {deps : Dict String (List String)} {formed : List AdaptiveRegion}
    (h : List.Forall₂ (Completes deps) formed out) :
    out.map (·.logicalNodes) = formed.map (·.logicalNodes) := by
  induction h with
  | nil => rfl
  | cons hcomplete _ ih => rw [List.map_cons, List.map_cons, ih, hcomplete.nodes]

theorem Completes.identity {deps : Dict String (List String)} {r done : AdaptiveRegion}
    (h : Completes deps r done) : done.identity = r.identity := by
  obtain ⟨found, -, rfl⟩ := h
  rfl

theorem eq_of_shared_node {formed : List AdaptiveRegion}
    (hnodup : (formed.flatMap (·.logicalNodes)).Nodup) {r r' : AdaptiveRegion} (hr : r ∈ formed)
    (hr' : r' ∈ formed) {name : String} (hname : name ∈ r.logicalNodes)
    (hname' : name ∈ r'.logicalNodes) : r = r' := by
  by_contra hne
  have hdisjoint := (List.nodup_flatMap.mp hnodup).2
  have : Std.Symm (Function.onFun List.Disjoint fun r : AdaptiveRegion => r.logicalNodes) :=
    ⟨fun _ _ hd _ hx hy => hd hy hx⟩
  exact hdisjoint.forall hr hr' hne hname hname'

/-- A node leads to the identity of the region it is in. -/
theorem lookup_identity_iff {formed : List AdaptiveRegion}
    (hnodup : (formed.flatMap (·.logicalNodes)).Nodup) {name id : String} :
    lookup (identityByNode formed) name = .ok id ↔
      ∃ r ∈ formed, name ∈ r.logicalNodes ∧ r.identity = id := by
  have hpair : ∀ {value}, (name, value) ∈ identityByNode formed ↔
      ∃ r ∈ formed, name ∈ r.logicalNodes ∧ r.identity = value := by
    intro value
    unfold identityByNode
    rw [List.mem_flatMap]
    constructor
    · rintro ⟨r, hr, hmem⟩
      obtain ⟨node, hnode, heq⟩ := List.mem_map.mp hmem
      obtain ⟨rfl, rfl⟩ := Prod.mk.inj heq
      exact ⟨r, hr, hnode, rfl⟩
    · rintro ⟨r, hr, hnode, rfl⟩
      exact ⟨r, hr, List.mem_map.mpr ⟨name, hnode, rfl⟩⟩
  constructor
  · intro h
    exact hpair.mp (mem_of_lookup h)
  · rintro ⟨r, hr, hname, rfl⟩
    refine lookup_eq_of_mem (hpair.mpr ⟨r, hr, hname, rfl⟩) fun other hother => ?_
    obtain ⟨r', hr', hname', rfl⟩ := hpair.mp hother
    rw [eq_of_shared_node hnodup hr hr' hname hname']

theorem region_named_iff {deps : Dict String (List String)} {formed : List AdaptiveRegion}
    (h : List.Forall₂ (Completes deps) formed out) {name id : String} :
    (∃ r ∈ formed, name ∈ r.logicalNodes ∧ r.identity = id) ↔
      ∃ r ∈ out, name ∈ r.logicalNodes ∧ r.identity = id := by
  constructor
  · rintro ⟨r, hr, hname, hid⟩
    obtain ⟨done, hdone, hcomplete⟩ := Checked.exists_of_forall₂ h hr
    exact ⟨done, hdone, hcomplete.nodes ▸ hname, hcomplete.identity.trans hid⟩
  · rintro ⟨done, hdone, hname, hid⟩
    obtain ⟨r, hr, hcomplete⟩ := Checked.exists_of_forall₂_right h hdone
    exact ⟨r, hr, hcomplete.nodes ▸ hname, hcomplete.identity.symm.trans hid⟩

theorem strictly_sorted {found : List String} (h : found.Nodup) :
    (found.insertionSort (· ≤ ·)).Pairwise (· < ·) := by
  have hsorted := List.pairwise_insertionSort (· ≤ ·) found
  have hdistinct : (found.insertionSort (· ≤ ·)).Nodup :=
    (List.perm_insertionSort _ found).nodup_iff.mpr h
  exact (hsorted.and hdistinct).imp fun hle => lt_of_le_of_ne hle.1 hle.2

theorem formed_of_regions (h : Assigned c graph) (hacyclic : graph.Acyclic)
    (hok : regions c graph refuses limit live = .ok (out, after)) : Formed c graph out := by
  obtain ⟨groups, formed, deps, hclasses, hforms, hdeps, hcompletes⟩ := regions_eq h hok
  have hnodes := nodes_of_form hforms
  have hnodesOut : out.map (·.logicalNodes) = groups := (nodes_of_completes hcompletes).trans hnodes
  have hpartition : (out.flatMap (·.logicalNodes)).Perm graph.nodeNames := by
    rw [List.flatMap_def, hnodesOut]
    exact hclasses.perm
  have hnodup : (formed.flatMap (·.logicalNodes)).Nodup := by
    rw [List.flatMap_def, hnodes]
    exact (hclasses.perm.nodup_iff).mpr h.distinct
  have hmembers : ∀ r ∈ out, r.logicalNodes ∈ groups :=
    fun r hr => hnodesOut ▸ List.mem_map_of_mem hr
  have hnames : ∀ r ∈ out, ∀ name ∈ r.logicalNodes, name ∈ graph.nodeNames := fun r hr name hname =>
    hclasses.perm.mem_iff.mp (List.mem_flatten.mpr ⟨_, hmembers r hr, hname⟩)
  have hcomponent : ∀ r ∈ out, ∀ a ∈ r.logicalNodes, ∀ b ∈ graph.nodeNames,
      b ∈ r.logicalNodes ↔ Relation.EqvGen (Linked c graph) a b :=
    fun r hr => hclasses.whole _ (hmembers r hr)
  refine ⟨hpartition, fun r hr => hclasses.inhabited _ (hmembers r hr), ?_, hcomponent, ?_, ?_, ?_,
    ?_⟩
  · -- every node has the target of the first one
    intro r hr name hname
    obtain ⟨r₀, hr₀, hcomplete⟩ := Checked.exists_of_forall₂_right hcompletes hr
    obtain ⟨-, htarget⟩ := form_eq (form_of_mem hforms hr₀)
    obtain ⟨found, -, rfl⟩ := hcomplete
    have hhead : r₀.logicalNodes.headD "" ∈ r₀.logicalNodes := by
      cases hnil : r₀.logicalNodes with
      | nil =>
          rw [hnil] at hname
          cases hname
      | cons first rest => exact List.mem_cons_self
    have hlinked := (hcomponent _ hr _ hhead name (hnames _ hr name hname)).mp hname
    exact (lookup_eq_of_component hlinked).symm.trans htarget
  · intro e he hsame hsoft
    obtain ⟨hp, hq⟩ := h.ends e he
    obtain ⟨r, hr, hpr⟩ := List.mem_flatMap.mp (hpartition.mem_iff.mpr hp)
    have hlink : Relation.EqvGen (Linked c graph) e.producerNode e.consumerNode :=
      .rel _ _ ⟨e, he, rfl, rfl, hsame, hsoft⟩
    exact ⟨r, hr, hpr, (hcomponent r hr _ hpr _ hq).mpr hlink⟩
  · intro r hr e he hp hq
    have hne : e.producerNode ≠ e.consumerNode := fun heq =>
      hacyclic e.producerNode (.single ⟨e, he, rfl, heq.symm⟩)
    exact not_hardEdge_of_component h hne
      ((hcomponent r hr _ hp _ (hnames r hr _ hq)).mp hq)
  · intro r hr d
    obtain ⟨r₀, hr₀, found, hget, rfl⟩ := Checked.exists_of_forall₂_right hcompletes hr
    obtain ⟨old, hold, -, hmem⟩ := collectDependencies_eq hdeps _ _ hget
    obtain rfl := noDependencies (fun k found hnone => by simp at hnone) _ _ hold
    show d ∈ found.insertionSort (· ≤ ·) ↔ d ≠ r₀.identity ∧ _
    rw [List.mem_insertionSort, hmem d, or_iff_right List.not_mem_nil]
    refine and_congr_right fun _ => exists_congr fun e => and_congr_right fun _ => and_congr ?_ ?_
    · exact (lookup_identity_iff hnodup).trans (region_named_iff hcompletes)
    · exact (lookup_identity_iff hnodup).trans (region_named_iff hcompletes)
  · intro r hr
    obtain ⟨r₀, hr₀, found, hget, rfl⟩ := Checked.exists_of_forall₂_right hcompletes hr
    obtain ⟨old, hold, hnodup, -⟩ := collectDependencies_eq hdeps _ _ hget
    obtain rfl := noDependencies (fun k found hnone => by simp at hnone) _ _ hold
    exact strictly_sorted (hnodup List.nodup_nil)

end Regions

end Etlantic.Planning
