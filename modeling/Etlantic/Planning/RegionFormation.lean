import Etlantic.Planning.RegionComponents

/-!
# Region formation returns, and its regions may read from each other

With acceptable names and enough bytes `_regions` returns the components of the
soft edges.  On an acyclic graph these can still depend on each other in a
circle, because a region is closed under soft edges but not under paths.
-/

namespace Etlantic.Planning

variable {ν : Type} {c : RegionContext} {graph : DeclaredGraph ν}
  {refuses : List (String × String) → Option PlanningError}

/-- The texts that end up in region records pass the checks of the records. -/
structure Acceptable (c : RegionContext) (graph : DeclaredGraph ν)
    (refuses : List (String × String) → Option PlanningError) : Prop where
  names : ∀ name ∈ graph.nodeNames, isBlank name = false
  targets : ∀ t ∈ c.inventory, checkRegionText "target_id" t.targetId = .ok () ∧
    checkRegionText "security_domain" t.securityDomain = .ok ()
  metadata : ∀ t ∈ c.inventory, ∀ members, refuses (c.regionMetadata t members) = none

/-! ## Admission -/

theorem ownRegion_eq {limit live : Nat} {r : AdaptiveRegion} (haccept : r.postInit refuses = .ok ())
    (hroom : live + (canonicalSize r.toJson + 64) + canonicalSize r.toJson ≤ limit) :
    ownRegion refuses limit live r = .ok (live + (canonicalSize r.toJson + 64)) := by
  have hrecord : reserve limit live (canonicalSize r.toJson + 64) "region" =
      .ok (live + (canonicalSize r.toJson + 64)) := if_neg (by omega)
  have hbuffer : reserve limit (live + (canonicalSize r.toJson + 64)) (canonicalSize r.toJson)
      "validation-buffer" =
        .ok (live + (canonicalSize r.toJson + 64) + canonicalSize r.toJson) := if_neg (by omega)
  unfold ownRegion
  dsimp only
  rw [hrecord, Checked.ok_bind, hbuffer, Checked.ok_bind, haccept, Checked.ok_bind]
  rfl

theorem admitRegions_returns {groups : List (List String)} {formed : List AdaptiveRegion}
    (h : List.Forall₂ (fun members r => c.form members = .ok r ∧ r.postInit refuses = .ok ())
      groups formed) :
    ∃ need, ∀ limit live, live + need ≤ limit → ∃ after,
      admitRegions c refuses limit groups live = .ok (formed, after) ∧ after ≤ live + need := by
  induction h with
  | nil => exact ⟨0, fun limit live _ => ⟨live, rfl, Nat.le_refl _⟩⟩
  | @cons members r groups formed hform _ ih =>
      obtain ⟨need, ih⟩ := ih
      refine ⟨2 * canonicalSize r.toJson + 64 + need, fun limit live hroom => ?_⟩
      have hown : ownRegion refuses limit live r = .ok (live + (canonicalSize r.toJson + 64)) :=
        ownRegion_eq hform.2 (by omega)
      obtain ⟨after, hrest, hafter⟩ := ih limit (live + (canonicalSize r.toJson + 64)) (by omega)
      refine ⟨after, ?_, by omega⟩
      rw [admitRegions, hform.1, Checked.ok_bind, hown, Checked.ok_bind, hrest]
      rfl

theorem completeRegions_returns {deps : Dict String (List String)}
    {formed out : List AdaptiveRegion}
    (h : List.Forall₂ (fun r done => r.complete deps = .ok done ∧ done.postInit refuses = .ok ())
      formed out) :
    ∃ need, ∀ limit live, live + need ≤ limit → ∃ after,
      completeRegions deps refuses limit formed live = .ok (out, after) := by
  induction h with
  | nil => exact ⟨0, fun limit live _ => ⟨live, rfl⟩⟩
  | @cons r done formed out hdone _ ih =>
      obtain ⟨need, ih⟩ := ih
      refine ⟨2 * canonicalSize done.toJson + 64 + need, fun limit live hroom => ?_⟩
      have hown : ownRegion refuses limit live done =
          .ok (live + (canonicalSize done.toJson + 64)) := ownRegion_eq hdone.2 (by omega)
      obtain ⟨after, hrest⟩ := ih limit
        (live + (canonicalSize done.toJson + 64) - (canonicalSize r.toJson + 64)) (by omega)
      refine ⟨after, ?_⟩
      rw [completeRegions, hdone.1, Checked.ok_bind, hown, Checked.ok_bind, hrest]
      rfl

/-! ## The checks pass -/

theorem isBlank_regionId (t : DomainTarget) (members : List String) :
    isBlank (c.regionId t members) = false := by
  unfold RegionContext.regionId isBlank
  rw [String.toList_append]
  rfl

theorem checkRegionText_regionId (t : DomainTarget) (members : List String) :
    checkRegionText "identity" (c.regionId t members) = .ok () := by
  unfold checkRegionText
  rw [if_neg (by rw [isBlank_regionId]; exact Bool.false_ne_true), if_neg]
  unfold RegionContext.regionId
  have hshort : ∀ cs : List Char, (String.ofList (cs.take 24)).toList.length ≤ 24 := fun cs => by
    rw [String.toList_ofList]
    exact List.length_take_le 24 cs
  have hlabel : "region:".toList.length = 7 := rfl
  have hdigest := hshort (c.sha256 ((c.boundaryFacts t members).dumps Json.escapeUnicode)).toList
  rw [String.toList_append, List.length_append, hlabel]
  omega

theorem form_returns (h : Assigned c graph) {members : List String} (hne : members ≠ [])
    (hnames : ∀ name ∈ members, name ∈ graph.nodeNames) :
    ∃ r, c.form members = .ok r ∧ ∃ t ∈ c.inventory, r.targetId = t.targetId ∧
      r.securityDomain = t.securityDomain ∧ r.identity = c.regionId t members ∧
      r.metadata = c.regionMetadata t members ∧ r.dependencies = [] := by
  have hhead : members.headD "" ∈ graph.nodeNames := by
    cases members with
    | nil => exact absurd rfl hne
    | cons first rest => exact hnames first List.mem_cons_self
  obtain ⟨targetId, htarget⟩ := lookup_byNode h hhead
  obtain ⟨t, ht, hid, hlookup⟩ := lookup_targetById h htarget
  unfold RegionContext.form
  rw [htarget, Checked.ok_bind, hlookup, Checked.ok_bind]
  exact ⟨_, rfl, t, ht, hid.symm, rfl, rfl, rfl, rfl⟩

/-- The record of a formed region is accepted, whatever regions it depends on. -/
theorem postInit_returns (h : Assigned c graph) (haccept : Acceptable c graph refuses)
    {r : AdaptiveRegion} (hform : c.form r.logicalNodes = .ok r) (hne : r.logicalNodes ≠ [])
    (hnames : ∀ name ∈ r.logicalNodes, name ∈ graph.nodeNames) (hnodup : r.logicalNodes.Nodup)
    {dependencies : List String} (hblank : ∀ d ∈ dependencies, isBlank d = false)
    (hdistinct : dependencies.Nodup) :
    AdaptiveRegion.postInit refuses { r with dependencies := dependencies } = .ok () := by
  obtain ⟨r', hform', t, ht, hid, hdomain, hidentity, hmetadata, -⟩ := form_returns h hne hnames
  obtain rfl := Except.ok.inj (hform.symm.trans hform')
  have hany : r.logicalNodes.any isBlank = false := by
    rw [List.any_eq_false]
    intro name hname
    rw [haccept.names name (hnames name hname)]
    exact Bool.false_ne_true
  have hdeps : dependencies.any isBlank = false := by
    rw [List.any_eq_false]
    intro d hd
    rw [hblank d hd]
    exact Bool.false_ne_true
  unfold AdaptiveRegion.postInit
  dsimp only
  rw [hid, hdomain, hidentity, hmetadata, checkRegionText_regionId, (haccept.targets t ht).1,
    (haccept.targets t ht).2, haccept.metadata t ht, hany, hdeps]
  simp only [Checked.ok_bind]
  simp [hne, hnodup, hdistinct]
  rfl

/-! ## Everything is found -/

theorem collectDependencies_returns {identities : List (String × String)} :
    ∀ {rest : List Edge} {deps : Dict String (List String)},
    (∀ e ∈ rest, ∃ left right, lookup identities e.producerNode = .ok left ∧
      lookup identities e.consumerNode = .ok right ∧ deps.contains right = true) →
    ∃ done, collectDependencies identities rest deps = .ok done ∧
      ∀ k, deps.contains k = true → done.contains k = true := by
  intro rest
  induction rest with
  | nil => exact fun {deps} _ => ⟨deps, rfl, fun k h => h⟩
  | cons e rest ih =>
      intro deps h
      obtain ⟨left, right, hleft, hright, hcontains⟩ := h e List.mem_cons_self
      by_cases hlr : left = right
      · obtain ⟨done, hdone, hkeeps⟩ := ih fun e' he' => h e' (List.mem_cons_of_mem _ he')
        refine ⟨done, ?_, hkeeps⟩
        rw [collectDependencies, hleft, Checked.ok_bind, hright, Checked.ok_bind, if_pos hlr]
        exact hdone
      · obtain ⟨found, hfound⟩ := Dict.contains_eq_true.mp hcontains
        have hgrows : ∀ k, deps.contains k = true →
            (deps.set right (found.insert left)).contains k = true := by
          intro k hk
          rw [Dict.contains_set, hk, Bool.or_true]
        obtain ⟨done, hdone, hkeeps⟩ := ih
          fun e' he' => by
            obtain ⟨left', right', hleft', hright', hcontains'⟩ := h e' (List.mem_cons_of_mem _ he')
            exact ⟨left', right', hleft', hright', hgrows _ hcontains'⟩
        refine ⟨done, ?_, fun k hk => hkeeps k (hgrows k hk)⟩
        rw [collectDependencies, hleft, Checked.ok_bind, hright, Checked.ok_bind, if_neg hlr, hfound]
        exact hdone

theorem contains_identity : ∀ {formed : List AdaptiveRegion} {deps : Dict String (List String)}
    {k : String}, deps.contains k = true ∨ (∃ r ∈ formed, r.identity = k) →
    (formed.foldl (fun deps region => deps.set region.identity []) deps).contains k = true := by
  intro formed
  induction formed with
  | nil =>
      rintro deps k (hk | ⟨r, hr, -⟩)
      · exact hk
      · cases hr
  | cons first rest ih =>
      intro deps k h
      refine ih ?_
      rw [Dict.contains_set]
      rcases h with hk | ⟨r, hr, rfl⟩
      · exact Or.inl (by rw [hk, Bool.or_true])
      · rcases List.mem_cons.mp hr with rfl | hr
        · exact Or.inl (by simp)
        · exact Or.inr ⟨r, hr, rfl⟩

variable [MetadataValue ν]

/-- With acceptable texts and enough bytes, `_regions` returns. -/
theorem regions_returns (h : Assigned c graph) (haccept : Acceptable c graph refuses) :
    ∃ need, ∀ limit live, live + need ≤ limit →
      ∃ out after, regions c graph refuses limit live = .ok (out, after) := by
  obtain ⟨joined, hjoined, hclasses⟩ := groups_components h
  generalize hgroups : orderedGroups graph.nodeNames
    (groupByRoot graph.edges.length graph.nodeNames joined .empty) = groups at hclasses
  have hnames : ∀ members ∈ groups, ∀ name ∈ members, name ∈ graph.nodeNames :=
    fun members hmembers name hname =>
      hclasses.perm.mem_iff.mp (List.mem_flatten.mpr ⟨members, hmembers, hname⟩)
  have hnodup : groups.flatten.Nodup := hclasses.perm.nodup_iff.mpr h.distinct
  -- every group has its region, whose record is accepted
  obtain ⟨formed, -, hadmits⟩ := Checked.exists_mapM (f := c.form)
    (R := fun members r => c.form members = .ok r ∧ r.postInit refuses = .ok ())
    fun members hmembers => by
      have hne := hclasses.inhabited members hmembers
      obtain ⟨r, hr, _, _, _, _, _, _, hdeps⟩ := form_returns h hne (hnames members hmembers)
      obtain rfl := (form_eq hr).1
      have hpost := postInit_returns h haccept hr hne (hnames _ hmembers)
        ((List.nodup_flatten.mp hnodup).1 _ hmembers)
        (fun d hd => by rw [hdeps] at hd; cases hd) (hdeps ▸ List.nodup_nil)
      exact ⟨r, hr, hr, hpost⟩
  have hformed : List.Forall₂ (fun members r => c.form members = .ok r) groups formed :=
    hadmits.imp fun _ _ h => h.1
  have hnodes := nodes_of_form hformed
  have hmember : ∀ r ∈ formed, r.logicalNodes ∈ groups :=
    fun r hr => hnodes ▸ List.mem_map_of_mem hr
  have hidentity : ∀ r ∈ formed, isBlank r.identity = false := by
    intro r hr
    have hin := hmember r hr
    obtain ⟨r', hform, t, -, -, -, hid, -⟩ :=
      form_returns h (hclasses.inhabited _ hin) (hnames _ hin)
    obtain rfl := Except.ok.inj ((form_of_mem hformed hr).symm.trans hform)
    exact hid ▸ isBlank_regionId t _
  have hdistinct : (formed.flatMap (·.logicalNodes)).Nodup := by
    rw [List.flatMap_def, hnodes]
    exact hnodup
  have hplaced : ∀ name ∈ graph.nodeNames, ∃ r ∈ formed,
      lookup (identityByNode formed) name = .ok r.identity := by
    intro name hname
    have hflat : name ∈ formed.flatMap (·.logicalNodes) := by
      rw [List.flatMap_def, hnodes]
      exact hclasses.perm.mem_iff.mpr hname
    obtain ⟨r, hr, hmem⟩ := List.mem_flatMap.mp hflat
    exact ⟨r, hr, (lookup_identity_iff hdistinct).mpr ⟨r, hr, hmem, rfl⟩⟩
  obtain ⟨deps, hdeps, hkeeps⟩ := @collectDependencies_returns (identityByNode formed)
    graph.edges (formed.foldl (fun deps region => deps.set region.identity []) .empty)
    fun e he => by
      obtain ⟨hp, hq⟩ := h.ends e he
      obtain ⟨left, -, hleft⟩ := hplaced _ hp
      obtain ⟨right, hr, hright⟩ := hplaced _ hq
      exact ⟨_, _, hleft, hright, contains_identity (Or.inr ⟨right, hr, rfl⟩)⟩
  have hcompletes : ∀ r ∈ formed, ∃ done : AdaptiveRegion, r.complete deps = .ok done ∧
      (r.complete deps = .ok done ∧ done.postInit refuses = .ok ()) := by
    intro r hr
    obtain ⟨found, hfound⟩ := Dict.contains_eq_true.mp
      (hkeeps _ (contains_identity (Or.inr ⟨r, hr, rfl⟩)))
    have hcomplete : r.complete deps =
        .ok { r with dependencies := found.insertionSort (· ≤ ·) } := by
      unfold AdaptiveRegion.complete
      rw [hfound]
    obtain ⟨old, hold, hnodup', hmem⟩ := collectDependencies_eq hdeps _ _ hfound
    obtain rfl := noDependencies (fun k found hnone => by simp at hnone) _ _ hold
    have hin := hmember r hr
    refine ⟨_, hcomplete, hcomplete, postInit_returns h haccept (form_of_mem hformed hr)
      (hclasses.inhabited _ hin) (hnames _ hin) ((List.nodup_flatten.mp hnodup).1 _ hin)
      (fun d hd => ?_)
      ((List.perm_insertionSort _ found).nodup_iff.mpr (hnodup' List.nodup_nil))⟩
    -- a dependency is the identity of a formed region
    rcases (hmem d).mp ((List.mem_insertionSort _).mp hd) with hnil | ⟨-, e, -, hleft, -⟩
    · cases hnil
    · obtain ⟨left, hl, -, rfl⟩ := (lookup_identity_iff hdistinct).mp hleft
      exact hidentity left hl
  obtain ⟨out, -, hout⟩ := Checked.exists_mapM hcompletes
  obtain ⟨need, hneed⟩ := admitRegions_returns hadmits
  obtain ⟨need', hneed'⟩ := completeRegions_returns hout
  refine ⟨need + need', fun limit live hroom => ?_⟩
  obtain ⟨after, hadmitted, hafter⟩ := hneed limit live (by omega)
  obtain ⟨after', hcompleted⟩ := hneed' limit after (by omega)
  refine ⟨out, after', ?_⟩
  unfold regions
  rw [hjoined, Checked.ok_bind]
  dsimp only
  rw [hgroups, hadmitted, Checked.ok_bind]
  dsimp only
  rw [hdeps, Checked.ok_bind]
  exact hcompleted

/-- `_regions` forms the components of the soft edges and records what each reads from. -/
theorem regions_components (h : Assigned c graph) (hacyclic : graph.Acyclic)
    (refuses : List (String × String) → Option PlanningError) :
    (∀ limit live out after, regions c graph refuses limit live = .ok (out, after) →
      Formed c graph out) ∧
    (Acceptable c graph refuses → ∃ need, ∀ limit live, live + need ≤ limit →
      ∃ out after, regions c graph refuses limit live = .ok (out, after)) :=
  ⟨fun _ _ _ _ hok => formed_of_regions h hacyclic hok, regions_returns h⟩

omit [MetadataValue ν] in
/-- Edges that lead up in some numbering close no circle. -/
theorem acyclic_of_rank (rank : String → Nat)
    (h : ∀ e ∈ graph.edges, rank e.producerNode < rank e.consumerNode) : graph.Acyclic := by
  intro name hcircle
  have hup : Relation.TransGen (· < ·) (rank name) (rank name) := by
    refine hcircle.lift rank ?_
    rintro _ _ ⟨e, he, rfl, rfl⟩
    exact h e he
  rw [Relation.transGen_eq_self] at hup
  exact absurd hup (Nat.lt_irrefl _)

/-! Metadata values that are texts. -/

instance : MetadataValue String where
  truthy text := text ≠ ""
  same x y := x = y
  ofText text := text
  same_symm h := by simpa using (of_decide_eq_true h).symm
  same_trans h h' := by simpa using (of_decide_eq_true h).trans (of_decide_eq_true h')

/-! A report that joins the orders with their enriched form, which another target computes. -/

section Sample

def detourGraph : DeclaredGraph String :=
  ⟨[⟨⟨"orders"⟩, .empty⟩, ⟨⟨"enrich"⟩, .empty⟩, ⟨⟨"report"⟩, .empty⟩],
    [⟨"orders", "result", "enrich", "rows"⟩, ⟨"orders", "result", "report", "left"⟩,
      ⟨"enrich", "result", "report", "right"⟩]⟩

def localTarget : DomainTarget :=
  ⟨⟨"local", "49cc8ca9225e4a6ededacf092358a98bb6045290cb3f5fc2c3441a6890ff6ee2"⟩, "default"⟩

def polarsTarget : DomainTarget :=
  ⟨⟨"polars", "1b8153d4511a07be9008e0e6d844e0c9b71c47b4f6e635745f74cf3e2726980a"⟩, "default"⟩

/-- The boundary facts of the group on `local`. -/
def localFacts : Json :=
  .obj [("target", .str "49cc8ca9225e4a6ededacf092358a98bb6045290cb3f5fc2c3441a6890ff6ee2"),
    ("nodes", .arr [.str "orders", .str "report"]), ("security", .str "default"),
    ("execution", .str "planning-only"), ("policy", .str "conservative"), ("fused", .bool false),
    ("fusion_evidence", .str "none"), ("planner", .str "0.52")]

/-- The boundary facts of the group on `polars`. -/
def polarsFacts : Json :=
  .obj [("target", .str "1b8153d4511a07be9008e0e6d844e0c9b71c47b4f6e635745f74cf3e2726980a"),
    ("nodes", .arr [.str "enrich"]), ("security", .str "default"),
    ("execution", .str "planning-only"), ("policy", .str "conservative"), ("fused", .bool false),
    ("fusion_evidence", .str "none"), ("planner", .str "0.52")]

/-- SHA-256 of the boundary facts of the two groups. -/
def detourSha256 (text : String) : String :=
  if text = localFacts.dumps Json.escapeUnicode then
    "9e626a17a1a3f7a724fe623b635cc65d4cd00dffef7e5d263da7de421c5c32fc"
  else if text = polarsFacts.dumps Json.escapeUnicode then
    "e6cf9ee5621782edef3d6cbb486fe33b9eb8b3ca7adb05ff926908f786ddc675"
  else ""

def detourContext : RegionContext where
  decisions := [⟨"orders", "candidate:a", "local"⟩, ⟨"enrich", "candidate:b", "polars"⟩,
    ⟨"report", "candidate:c", "local"⟩]
  inventory := [localTarget, polarsTarget]
  profileDomain := "default"
  executable := false
  fusion := none
  sha256 := detourSha256

def acceptAll (_ : List (String × String)) : Option PlanningError := none

theorem detour_assigned : Assigned detourContext detourGraph where
  distinct := by decide
  ends := by decide
  total := by decide
  known := by decide

theorem detour_acyclic : detourGraph.Acyclic :=
  acyclic_of_rank (fun name => ["orders", "enrich", "report"].idxOf name) (by decide)

def detourRegions : List AdaptiveRegion :=
  [{ identity := "region:9e626a17a1a3f7a724fe623b"
     targetId := "local"
     logicalNodes := ["orders", "report"]
     dependencies := ["region:e6cf9ee5621782edef3d6cbb"]
     fused := false
     securityDomain := "default"
     metadata := detourContext.regionMetadata localTarget ["orders", "report"] },
   { identity := "region:e6cf9ee5621782edef3d6cbb"
     targetId := "polars"
     logicalNodes := ["enrich"]
     dependencies := ["region:9e626a17a1a3f7a724fe623b"]
     fused := false
     securityDomain := "default"
     metadata := detourContext.regionMetadata polarsTarget ["enrich"] }]

theorem localFacts_ne_polarsFacts :
    polarsFacts.dumps Json.escapeUnicode ≠ localFacts.dumps Json.escapeUnicode := by
  intro h
  have hrender : Json.render Json.escapeUnicode polarsFacts ≠
      Json.render Json.escapeUnicode localFacts := by decide
  exact hrender (String.ofList_injective h)

theorem detour_localId : detourContext.regionId localTarget ["orders", "report"] =
    "region:9e626a17a1a3f7a724fe623b" := by
  have hfacts : detourContext.boundaryFacts localTarget ["orders", "report"] = localFacts := rfl
  have hsha : detourContext.sha256 = detourSha256 := by simp only [detourContext]
  unfold RegionContext.regionId
  rw [hfacts, hsha, detourSha256, if_pos rfl]
  decide

theorem detour_polarsId : detourContext.regionId polarsTarget ["enrich"] =
    "region:e6cf9ee5621782edef3d6cbb" := by
  have hfacts : detourContext.boundaryFacts polarsTarget ["enrich"] = polarsFacts := rfl
  have hsha : detourContext.sha256 = detourSha256 := by simp only [detourContext]
  unfold RegionContext.regionId
  rw [hfacts, hsha, detourSha256, if_neg localFacts_ne_polarsFacts, if_pos rfl]
  decide

/-- The regions before their dependencies are recorded. -/
def detourFormed : List AdaptiveRegion := detourRegions.map fun r => { r with dependencies := [] }

theorem detour_forms : List.Forall₂ (fun members r => detourContext.form members = .ok r ∧
    r.postInit acceptAll = .ok ()) [["orders", "report"], ["enrich"]] detourFormed := by
  refine .cons ⟨?_, by decide⟩ (.cons ⟨?_, by decide⟩ .nil)
  · rw [← detour_localId]
    rfl
  · rw [← detour_polarsId]
    rfl

theorem detour_regions : ∃ limit after,
    regions detourContext detourGraph acceptAll limit 0 = .ok (detourRegions, after) := by
  obtain ⟨joined, hjoined, -⟩ := groups_components detour_assigned
  have hgroups : (joinEdges detourContext detourGraph detourGraph.edges id).map
      (fun parent => orderedGroups detourGraph.nodeNames
        (groupByRoot detourGraph.edges.length detourGraph.nodeNames parent .empty)) =
      .ok [["orders", "report"], ["enrich"]] := by decide
  rw [hjoined] at hgroups
  have hgroups : orderedGroups detourGraph.nodeNames
      (groupByRoot detourGraph.edges.length detourGraph.nodeNames joined .empty) =
      [["orders", "report"], ["enrich"]] := Except.ok.inj hgroups
  have hdeps : (collectDependencies (identityByNode detourFormed) detourGraph.edges
      (detourFormed.foldl (fun deps region => deps.set region.identity []) .empty)).bind
        (fun deps => detourFormed.mapM fun r => r.complete deps) = .ok detourRegions := by
    decide
  obtain ⟨deps, hcollect, hcomplete⟩ := Checked.bind_eq_ok.mp hdeps
  have haccepted : ∀ done ∈ detourRegions, done.postInit acceptAll = .ok () := by decide
  have hdone : List.Forall₂ (fun r done => r.complete deps = .ok done ∧
      done.postInit acceptAll = .ok ()) detourFormed detourRegions :=
    Checked.forall₂_and (Checked.forall₂_of_mapM hcomplete) haccepted
  obtain ⟨need, hneed⟩ := admitRegions_returns detour_forms
  obtain ⟨need', hneed'⟩ := completeRegions_returns hdone
  obtain ⟨after, hadmitted, hafter⟩ := hneed (need + need') 0 (by omega)
  obtain ⟨after', hcompleted⟩ := hneed' (need + need') after (by omega)
  refine ⟨need + need', after', ?_⟩
  unfold regions
  rw [hjoined, Checked.ok_bind]
  dsimp only
  rw [hgroups, hadmitted, Checked.ok_bind]
  dsimp only
  rw [hcollect, Checked.ok_bind]
  exact hcompleted

theorem regions_components_detour : ∃ limit out after,
    regions detourContext detourGraph acceptAll limit 0 = .ok (out, after) ∧
      Formed detourContext detourGraph out := by
  obtain ⟨limit, after, hregions⟩ := detour_regions
  exact ⟨limit, detourRegions, after, hregions,
    (regions_components detour_assigned detour_acyclic acceptAll).1 _ _ _ _ hregions⟩

/-- The region `a` is among the dependencies of the region `b`. -/
def ReadsFrom (out : List AdaptiveRegion) (a b : String) : Prop :=
  ∃ r ∈ out, r.identity = b ∧ a ∈ r.dependencies

/-- The regions of an acyclic graph that depend on each other. -/
theorem regions_read_from_each_other :
    Assigned detourContext detourGraph ∧ detourGraph.Acyclic ∧
      ∃ limit out after, regions detourContext detourGraph acceptAll limit 0 = .ok (out, after) ∧
        Relation.TransGen (ReadsFrom out) "region:9e626a17a1a3f7a724fe623b"
          "region:9e626a17a1a3f7a724fe623b" := by
  obtain ⟨limit, after, hregions⟩ := detour_regions
  refine ⟨detour_assigned, detour_acyclic, limit, detourRegions, after, hregions, ?_⟩
  have hthere : ReadsFrom detourRegions "region:9e626a17a1a3f7a724fe623b"
      "region:e6cf9ee5621782edef3d6cbb" := by
    unfold ReadsFrom
    decide
  have hback : ReadsFrom detourRegions "region:e6cf9ee5621782edef3d6cbb"
      "region:9e626a17a1a3f7a724fe623b" := by
    unfold ReadsFrom
    decide
  exact .tail (.single hthere) hback

end Sample

end Etlantic.Planning
