import Mathlib.Data.Fintype.Card
import Mathlib.Data.List.Count
import Mathlib.Data.List.Lex
import Mathlib.Data.List.MinMax
import Mathlib.Data.List.Perm.Subperm
import Mathlib.Data.List.Sort
import Mathlib.Data.Set.Finite.List
import Mathlib.Logic.Function.Basic
import Mathlib.Logic.Relation
import Mathlib.Order.Lattice

/-!
# The least topological order

Kahn's algorithm counts for every node the edges whose source is not yet placed, and
places the least node whose count is zero.  On a graph without circles the order is
the lexicographically least one in which no edge leads back.
-/

namespace Etlantic.TopologicalOrder

universe u

variable {α : Type u} [LinearOrder α]

/-! ## The algorithm -/

/-- Count the edges down that lead to `consumers`, and push those that reach zero. -/
def relax : List α → (α → Int) → List α → (α → Int) × List α
  | [], indegree, ready => (indegree, ready)
  | consumer :: rest, indegree, ready =>
      let indegree := Function.update indegree consumer (indegree consumer - 1)
      relax rest indegree (if indegree consumer = 0 then ready ++ [consumer] else ready)

/-- Place the least node that is ready, at most `fuel` times. -/
def kahn (outgoing : α → List α) : Nat → (α → Int) → List α → List α → List α
  | 0, _, _, ordered => ordered
  | fuel + 1, indegree, ready, ordered =>
      match ready.min? with
      | none => ordered
      | some name =>
          let next := relax ((outgoing name).insertionSort (· ≤ ·)) indegree (ready.erase name)
          kahn outgoing fuel next.1 next.2 (ordered ++ [name])

/-- `outgoing` of a list of edges. -/
def outgoing (edges : List (α × α)) (name : α) : List α :=
  (edges.filter fun e => e.1 = name).map Prod.snd

/-- The edges into `name` whose source is not placed. -/
def open_ (edges : List (α × α)) (ordered : List α) (name : α) : Nat :=
  edges.countP fun e => e.2 = name && e.1 ∉ ordered

/-- Kahn's order of the nodes. -/
def order (nodes : List α) (edges : List (α × α)) : List α :=
  let indegree := fun name => (open_ edges [] name : Int)
  kahn (outgoing edges) nodes.length indegree (nodes.filter fun name => indegree name = 0) []

/-! ## Orders without edges back -/

/-- All that leads to `name` is in `before`. -/
def Ready (edges : List (α × α)) (before : List α) (name : α) : Prop :=
  ∀ e ∈ edges, e.2 = name → e.1 ∈ before

/-- Each place holds the least node that was ready for it. -/
def Greedy (nodes : List α) (edges : List (α × α)) (l : List α) : Prop :=
  ∀ before name after, l = before ++ name :: after → Ready edges before name ∧
    ∀ other ∈ nodes, other ∉ before → Ready edges before other → name ≤ other

/-- An order of the nodes in which everything is placed behind what leads to it. -/
structure IsOrder (nodes : List α) (edges : List (α × α)) (l : List α) : Prop where
  perm : l.Perm nodes
  ready : ∀ before name after, l = before ++ name :: after → Ready edges before name

/-- The lexicographically least such order. -/
structure IsLeastOrder (nodes : List α) (edges : List (α × α)) (l : List α) : Prop where
  isOrder : IsOrder nodes edges l
  least : ∀ l', IsOrder nodes edges l' → l ≤ l'

def Feeds (edges : List (α × α)) (a b : α) : Prop := (a, b) ∈ edges

def Acyclic (edges : List (α × α)) : Prop := ∀ a, ¬ Relation.TransGen (Feeds edges) a a

variable {nodes : List α} {edges : List (α × α)} {ordered ready : List α} {name : α}
  {indegree : α → Int}

theorem open_eq_zero : open_ edges ordered name = 0 ↔ Ready edges ordered name := by
  unfold open_ Ready
  rw [List.countP_eq_zero]
  constructor
  · intro h e he hname
    by_contra hnot
    exact h e he (by simp [hname, hnot])
  · intro h e he hopen
    rw [Bool.and_eq_true, decide_eq_true_eq, decide_eq_true_eq] at hopen
    exact hopen.2 (h e he hopen.1)

/-- Placing a node closes the edges that go out from it. -/
theorem open_append (hnew : name ∉ ordered) (other : α) :
    open_ edges (ordered ++ [name]) other + (outgoing edges name).count other =
      open_ edges ordered other := by
  unfold open_ outgoing
  induction edges with
  | nil => rfl
  | cons e edges ih =>
      rw [List.countP_cons, List.countP_cons]
      by_cases hsource : e.1 = name
      · rw [List.filter_cons_of_pos (by simpa using hsource), List.map_cons, List.count_cons]
        have hplaced : e.1 ∈ ordered ++ [name] := by
          rw [hsource]
          exact List.mem_append_right _ (List.mem_singleton_self _)
        have hopen : e.1 ∉ ordered := by
          rw [hsource]
          exact hnew
        by_cases hother : e.2 = other
        · simp only [hother, hplaced, hopen, not_true_eq_false, not_false_eq_true, decide_true,
            decide_false, Bool.and_true, Bool.and_false, Bool.false_eq_true, if_true, if_false,
            beq_self_eq_true]
          omega
        · simp only [hother, decide_false, Bool.false_and, Bool.false_eq_true, if_false,
            beq_eq_false_iff_ne.mpr hother]
          omega
      · rw [List.filter_cons_of_neg (by simpa using hsource)]
        have hsame : e.1 ∈ ordered ++ [name] ↔ e.1 ∈ ordered := by
          rw [List.mem_append, List.mem_singleton]
          exact or_iff_left hsource
        simp only [hsame]
        omega

theorem relax_cons (consumer : α) (rest : List α) (indegree : α → Int) (ready : List α) :
    relax (consumer :: rest) indegree ready =
      relax rest (Function.update indegree consumer (indegree consumer - 1))
        (if indegree consumer - 1 = 0 then ready ++ [consumer] else ready) := by
  conv_lhs => unfold relax
  dsimp only
  rw [Function.update_self]

/-- What `relax` leaves: every count is lower by the edges, and ready is what reached zero. -/
theorem relax_spec : ∀ {consumers : List α} {indegree : α → Int} {ready : List α},
    (∀ c ∈ consumers, (consumers.count c : Int) ≤ indegree c) → ready.Nodup →
    (∀ c ∈ consumers, c ∉ ready) →
    (∀ b, (relax consumers indegree ready).1 b = indegree b - consumers.count b) ∧
      (relax consumers indegree ready).2.Nodup ∧
      ∀ b, b ∈ (relax consumers indegree ready).2 ↔
        b ∈ ready ∨ b ∈ consumers ∧ indegree b = consumers.count b
  | [], indegree, ready, _, hnodup, _ => by
      refine ⟨fun b => ?_, hnodup, fun b => ?_⟩
      · show indegree b = indegree b - ((List.count b [] : Nat) : Int)
        simp
      · show b ∈ ready ↔ _
        simp
  | c :: rest, indegree, ready, hcounts, hnodup, hfresh => by
      have hself : Function.update indegree c (indegree c - 1) c = indegree c - 1 :=
        Function.update_self _ _ _
      have hother : ∀ b, b ≠ c → Function.update indegree c (indegree c - 1) b = indegree b :=
        fun b hb => Function.update_of_ne hb _ _
      have hc := hcounts c List.mem_cons_self
      rw [List.count_cons_self] at hc
      have hcounts' : ∀ d ∈ rest, (rest.count d : Int) ≤
          Function.update indegree c (indegree c - 1) d := by
        intro d hd
        by_cases hdc : d = c
        · subst hdc
          rw [hself]
          omega
        · have hd' := hcounts d (List.mem_cons_of_mem _ hd)
          rw [List.count_cons_of_ne (Ne.symm hdc)] at hd'
          rw [hother d hdc]
          exact hd'
      have hnew : c ∉ ready := hfresh c List.mem_cons_self
      have hvalue : ∀ b, Function.update indegree c (indegree c - 1) b - rest.count b =
          indegree b - (c :: rest).count b := by
        intro b
        by_cases hb : b = c
        · subst hb
          rw [hself, List.count_cons_self]
          omega
        · rw [hother b hb, List.count_cons_of_ne (Ne.symm hb)]
      have hmember : ∀ b, b ≠ c → (b ∈ rest ∧ Function.update indegree c (indegree c - 1) b =
          rest.count b ↔ b ∈ c :: rest ∧ indegree b = (c :: rest).count b) := by
        intro b hb
        rw [hother b hb, List.count_cons_of_ne (Ne.symm hb), List.mem_cons, or_iff_right hb]
      rw [relax_cons]
      by_cases hzero : indegree c - 1 = 0
      · rw [if_pos hzero]
        have hlast : c ∉ rest := by
          rw [← List.count_eq_zero]
          omega
        have hnodup' : (ready ++ [c]).Nodup := by
          refine List.nodup_append.mpr ⟨hnodup, List.nodup_singleton c, ?_⟩
          rintro a ha b hb rfl
          exact hnew (List.mem_singleton.mp hb ▸ ha)
        have hfresh' : ∀ d ∈ rest, d ∉ ready ++ [c] := by
          intro d hd hin
          rcases List.mem_append.mp hin with hin | hin
          · exact hfresh d (List.mem_cons_of_mem _ hd) hin
          · exact hlast (List.mem_singleton.mp hin ▸ hd)
        obtain ⟨hval, hnd, hmem⟩ := relax_spec hcounts' hnodup' hfresh'
        refine ⟨fun b => (hval b).trans (hvalue b), hnd, fun b => ?_⟩
        rw [hmem, List.mem_append, List.mem_singleton]
        by_cases hb : b = c
        · subst hb
          rw [List.count_cons_self, List.count_eq_zero.mpr hlast]
          refine iff_of_true (.inl (.inr rfl)) (.inr ⟨List.mem_cons_self, ?_⟩)
          omega
        · rw [hmember b hb, or_iff_left hb]
      · rw [if_neg hzero]
        obtain ⟨hval, hnd, hmem⟩ := relax_spec hcounts' hnodup
          fun d hd => hfresh d (List.mem_cons_of_mem _ hd)
        refine ⟨fun b => (hval b).trans (hvalue b), hnd, fun b => ?_⟩
        rw [hmem]
        by_cases hb : b = c
        · subst hb
          rw [hself, List.count_cons_self]
          refine or_congr_right ⟨?_, ?_⟩
          · rintro ⟨-, heq⟩
            exact ⟨List.mem_cons_self, by omega⟩
          · rintro ⟨-, heq⟩
            refine ⟨?_, by omega⟩
            rw [← List.count_pos_iff]
            omega
        · rw [hmember b hb]

/-! ## The run -/

/-- What the algorithm knows before each step. -/
structure Placed (nodes : List α) (edges : List (α × α)) (indegree : α → Int)
    (ready ordered : List α) : Prop where
  nodup : ordered.Nodup
  subset : ∀ name ∈ ordered, name ∈ nodes
  counts : ∀ name, indegree name = open_ edges ordered name
  readyNodup : ready.Nodup
  mem_ready : ∀ name, name ∈ ready ↔ name ∈ nodes ∧ name ∉ ordered ∧ Ready edges ordered name
  greedy : Greedy nodes edges ordered

theorem placed_init (hnodes : nodes.Nodup) :
    Placed nodes edges (fun name => (open_ edges [] name : Int))
      (nodes.filter fun name => ((open_ edges [] name : Nat) : Int) = 0) [] where
  nodup := List.nodup_nil
  subset := by
    intro name h
    cases h
  counts _ := rfl
  readyNodup := hnodes.filter _
  mem_ready name := by
    rw [List.mem_filter, decide_eq_true_eq, Int.natCast_eq_zero, open_eq_zero]
    exact and_congr_right fun _ => (and_iff_right List.not_mem_nil).symm
  greedy := by
    intro before name after h
    cases (List.append_eq_nil_iff.mp h.symm).2

/-- Everything that leads to a placed node is placed. -/
theorem Placed.behind (h : Placed nodes edges indegree ready ordered) {a b : α}
    (hedge : (a, b) ∈ edges) (hb : b ∈ ordered) : a ∈ ordered := by
  obtain ⟨before, after, hsplit⟩ := List.append_of_mem hb
  have hbefore := (h.greedy before b after hsplit).1 (a, b) hedge rfl
  rw [hsplit]
  exact List.mem_append_left _ hbefore

omit [LinearOrder α] in
theorem Ready.mono {before before' : List α} (h : Ready edges before name)
    (hsub : ∀ a ∈ before, a ∈ before') : Ready edges before' name :=
  fun e he hname => hsub _ (h e he hname)

theorem mem_outgoing {a b : α} : b ∈ outgoing edges a ↔ (a, b) ∈ edges := by
  unfold outgoing
  rw [List.mem_map]
  constructor
  · rintro ⟨e, he, rfl⟩
    obtain ⟨hedge, hsource⟩ := List.mem_filter.mp he
    rw [← of_decide_eq_true hsource]
    exact hedge
  · intro hedge
    exact ⟨(a, b), List.mem_filter.mpr ⟨hedge, decide_eq_true rfl⟩, rfl⟩

theorem Placed.step (hedges : ∀ e ∈ edges, e.2 ∈ nodes)
    (h : Placed nodes edges indegree ready ordered) (hname : ready.min? = some name) :
    Placed nodes edges
      (relax ((outgoing edges name).insertionSort (· ≤ ·)) indegree (ready.erase name)).1
      (relax ((outgoing edges name).insertionSort (· ≤ ·)) indegree (ready.erase name)).2
      (ordered ++ [name]) := by
  obtain ⟨hin, hleast⟩ := List.min?_eq_some_iff.mp hname
  obtain ⟨hnode, hnew, hready⟩ := (h.mem_ready name).mp hin
  have hperm := List.perm_insertionSort (· ≤ ·) (outgoing edges name)
  have hcount : ∀ b, ((outgoing edges name).insertionSort (· ≤ ·)).count b =
      (outgoing edges name).count b := fun b => hperm.count_eq b
  have hopen : ∀ b, indegree b = open_ edges (ordered ++ [name]) b +
      (outgoing edges name).count b := by
    intro b
    rw [h.counts, ← open_append hnew b]
    exact Int.natCast_add _ _
  have hcounts : ∀ c ∈ (outgoing edges name).insertionSort (· ≤ ·),
      (((outgoing edges name).insertionSort (· ≤ ·)).count c : Int) ≤ indegree c := by
    intro c _
    rw [hcount, hopen]
    omega
  have hfresh : ∀ c ∈ (outgoing edges name).insertionSort (· ≤ ·), c ∉ ready.erase name := by
    intro c hc hin'
    have hc := mem_outgoing.mp (hperm.mem_iff.mp hc)
    obtain ⟨-, -, hready'⟩ := (h.mem_ready c).mp (List.mem_of_mem_erase hin')
    exact hnew (hready' _ hc rfl)
  obtain ⟨hval, hnd, hmem⟩ := relax_spec hcounts (h.readyNodup.erase name) hfresh
  refine ⟨?_, ?_, ?_, hnd, ?_, ?_⟩
  · refine List.nodup_append.mpr ⟨h.nodup, List.nodup_singleton name, ?_⟩
    rintro a ha b hb rfl
    exact hnew (List.mem_singleton.mp hb ▸ ha)
  · intro b hb
    rcases List.mem_append.mp hb with hb | hb
    · exact h.subset b hb
    · exact List.mem_singleton.mp hb ▸ hnode
  · intro b
    rw [hval, hcount, hopen]
    omega
  · intro b
    rw [hmem, h.readyNodup.mem_erase_iff, hperm.mem_iff, hcount, List.mem_append, not_or,
      List.mem_singleton]
    constructor
    · rintro (⟨hne, hb⟩ | ⟨hb, hlast⟩)
      · obtain ⟨hbnode, hbnew, hbready⟩ := (h.mem_ready b).mp hb
        exact ⟨hbnode, ⟨hbnew, hne⟩, hbready.mono fun a ha => List.mem_append_left _ ha⟩
      · have hedge := mem_outgoing.mp hb
        refine ⟨hedges _ hedge, ⟨fun hold => hnew (h.behind hedge hold), ?_⟩, ?_⟩
        · rintro rfl
          exact hnew (hready _ hedge rfl)
        · rw [← open_eq_zero]
          have := hopen b
          omega
    · rintro ⟨hbnode, ⟨hbnew, hne⟩, hbready⟩
      by_cases hbefore : Ready edges ordered b
      · exact .inl ⟨hne, (h.mem_ready b).mpr ⟨hbnode, hbnew, hbefore⟩⟩
      · right
        unfold Ready at hbefore
        push Not at hbefore
        obtain ⟨e, he, rfl, hsource⟩ := hbefore
        have hlast := (List.mem_append.mp (hbready e he rfl)).resolve_left hsource
        refine ⟨mem_outgoing.mpr ?_, ?_⟩
        · rw [← List.mem_singleton.mp hlast]
          exact he
        · have hzero := open_eq_zero.mpr hbready
          have := hopen e.2
          omega
  · intro before b after hsplit
    rcases List.eq_nil_or_concat' after with rfl | ⟨front, last, rfl⟩
    · obtain ⟨rfl, hlast⟩ := List.append_inj' hsplit rfl
      obtain rfl := List.singleton_inj.mp hlast
      refine ⟨hready, fun other hother hnot hbefore => ?_⟩
      exact hleast other ((h.mem_ready other).mpr ⟨hother, hnot, hbefore⟩)
    · rw [← List.cons_append, ← List.append_assoc] at hsplit
      obtain ⟨hsplit, -⟩ := List.append_inj' hsplit rfl
      exact h.greedy before b front hsplit

/-- With enough steps, the algorithm ends when no node is ready. -/
theorem kahn_placed (hedges : ∀ e ∈ edges, e.2 ∈ nodes) : ∀ (fuel : Nat) (indegree : α → Int)
    (ready ordered : List α), Placed nodes edges indegree ready ordered →
      nodes.length ≤ ordered.length + fuel →
      ∃ indegree', Placed nodes edges indegree' []
        (kahn (outgoing edges) fuel indegree ready ordered)
  | 0, indegree, ready, ordered, h, hfuel => by
      have hall : ∀ name ∈ nodes, name ∈ ordered := by
        have hsub : ordered.Subperm nodes := h.nodup.subperm h.subset
        have hperm := hsub.perm_of_length_le (by omega)
        exact fun name hname => hperm.mem_iff.mpr hname
      have hnone : ready = [] := by
        rw [List.eq_nil_iff_forall_not_mem]
        intro name hname
        obtain ⟨hnode, hnew, -⟩ := (h.mem_ready name).mp hname
        exact hnew (hall name hnode)
      exact ⟨indegree, hnone ▸ h⟩
  | fuel + 1, indegree, ready, ordered, h, hfuel => by
      unfold kahn
      cases hmin : ready.min? with
      | none =>
          rw [List.min?_eq_none_iff] at hmin
          exact ⟨indegree, hmin ▸ h⟩
      | some name =>
          refine kahn_placed hedges fuel _ _ _ (h.step hedges hmin) ?_
          rw [List.length_append, List.length_singleton]
          omega

/-- Of the nodes that are left, one has everything placed that leads to it. -/
theorem exists_ready (hacyclic : Acyclic edges) (hedges : ∀ e ∈ edges, e.1 ∈ nodes)
    (hleft : ∃ name ∈ nodes, name ∉ ordered) :
    ∃ name ∈ nodes, name ∉ ordered ∧ Ready edges ordered name := by
  let below := fun a b : { a // a ∈ nodes } => Relation.TransGen (Feeds edges) a.1 b.1
  have hfinite : Finite { a // a ∈ nodes } := (List.finite_toSet nodes).to_subtype
  have htrans : IsTrans { a // a ∈ nodes } below := ⟨fun _ _ _ => Relation.TransGen.trans⟩
  have hirrefl : Std.Irrefl below := ⟨fun a => hacyclic a.1⟩
  have hwf : WellFounded below := Finite.wellFounded_of_trans_of_irrefl below
  obtain ⟨name, hname, hnew⟩ := hleft
  obtain ⟨least, hleast, hmin⟩ :=
    hwf.has_min { a | a.1 ∉ ordered } ⟨⟨name, hname⟩, hnew⟩
  refine ⟨least.1, least.2, hleast, fun e he hend => ?_⟩
  by_contra hsource
  refine hmin ⟨e.1, hedges e he⟩ hsource (.single ?_)
  show (e.1, least.1) ∈ edges
  rw [← hend]
  exact he

theorem order_spec (hnodes : nodes.Nodup) (hacyclic : Acyclic edges)
    (hedges : ∀ e ∈ edges, e.1 ∈ nodes ∧ e.2 ∈ nodes) :
    (order nodes edges).Perm nodes ∧ Greedy nodes edges (order nodes edges) := by
  obtain ⟨indegree, h⟩ := kahn_placed (fun e he => (hedges e he).2) nodes.length _ _ []
    (placed_init hnodes) (by omega)
  refine ⟨?_, h.greedy⟩
  have hall : ∀ name ∈ nodes, name ∈ order nodes edges := by
    by_contra hleft
    push Not at hleft
    obtain ⟨name, hname, hnew, hready⟩ :=
      exists_ready hacyclic (fun e he => (hedges e he).1) hleft
    cases (h.mem_ready name).mpr ⟨hname, hnew, hready⟩
  exact (List.perm_ext_iff_of_nodup h.nodup hnodes).mpr fun name => ⟨h.subset name, hall name⟩

/-- Behind what they have in common, a greedy order is at most the other. -/
theorem Greedy.le {l l' : List α} (hnodes : nodes.Nodup) (hperm : l.Perm nodes)
    (h : Greedy nodes edges l) (h' : IsOrder nodes edges l') : ∀ (rest rest' before : List α),
      l = before ++ rest → l' = before ++ rest' → rest ≤ rest'
  | [], [], _, _, _ => le_refl _
  | [], _ :: _, _, _, _ => le_of_lt .nil
  | name :: rest, [], before, hl, hl' => by
      have hlen := (hperm.trans h'.perm.symm).length_eq
      rw [hl, hl'] at hlen
      simp at hlen
  | name :: rest, other :: rest', before, hl, hl' => by
      have hother : other ∈ nodes := by
        rw [← h'.perm.mem_iff, hl']
        exact List.mem_append_right _ List.mem_cons_self
      have hnew : other ∉ before := by
        have hnodup := h'.perm.nodup_iff.mpr hnodes
        rw [hl', List.nodup_append] at hnodup
        exact fun hin => hnodup.2.2 other hin other List.mem_cons_self rfl
      have hle := (h before name rest hl).2 other hother hnew (h'.ready before other rest' hl')
      rcases lt_or_eq_of_le hle with hlt | rfl
      · exact le_of_lt (.rel hlt)
      · have hrest := Greedy.le hnodes hperm h h' rest rest' (before ++ [name])
          (by rw [hl, List.append_assoc, List.singleton_append])
          (by rw [hl', List.append_assoc, List.singleton_append])
        rcases lt_or_eq_of_le hrest with hlt | rfl
        · exact le_of_lt (.cons hlt)
        · exact le_refl _

/-- A greedy order is the least one. -/
theorem Greedy.isLeastOrder {l : List α} (hnodes : nodes.Nodup) (hperm : l.Perm nodes)
    (h : Greedy nodes edges l) : IsLeastOrder nodes edges l where
  isOrder := ⟨hperm, fun before name after hsplit => (h before name after hsplit).1⟩
  least l' h' := h.le hnodes hperm h' l l' [] rfl rfl

omit [LinearOrder α] in
theorem IsOrder.of_perm {nodes' l : List α} (h : IsOrder nodes edges l)
    (hperm : nodes.Perm nodes') : IsOrder nodes' edges l :=
  ⟨h.perm.trans hperm, h.ready⟩

theorem IsLeastOrder.of_perm {nodes' l : List α} (h : IsLeastOrder nodes edges l)
    (hperm : nodes.Perm nodes') : IsLeastOrder nodes' edges l :=
  ⟨h.isOrder.of_perm hperm, fun l' h' => h.least l' (h'.of_perm hperm.symm)⟩

/-- Only which edges there are matters. -/
theorem IsLeastOrder.of_edges {edges' : List (α × α)} {l : List α} (h : IsLeastOrder nodes edges l)
    (hedges : ∀ e, e ∈ edges ↔ e ∈ edges') : IsLeastOrder nodes edges' l := by
  have hready : Ready edges = Ready edges' := by
    unfold Ready
    simp only [hedges]
  refine ⟨⟨h.isOrder.perm, hready ▸ h.isOrder.ready⟩, fun l' h' => h.least l' ⟨h'.perm, ?_⟩⟩
  rw [hready]
  exact h'.ready

theorem IsLeastOrder.unique {l l' : List α} (h : IsLeastOrder nodes edges l)
    (h' : IsLeastOrder nodes edges l') : l = l' :=
  le_antisymm (h.least l' h'.isOrder) (h'.least l h.isOrder)

end Etlantic.TopologicalOrder
