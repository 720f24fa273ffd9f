import Mathlib.Data.List.Infix

/-!
# Hash chains

An entry of a chain keeps the digest of the entry before it and its own digest,
which covers that predecessor and the body of the entry.  A hashing that covers
the body injectively makes a chain commit to its bodies: an edit that keeps the
digests passes the check only if it leaves the evidence, that is the digests and
the bodies, a prefix of what it was.
-/

namespace Etlantic.HashChain

universe u v w

/-- How the entries `ε` are hashed into digests `η`; the digest covers the body `β`. -/
structure Hashing (ε : Type u) (β : Type v) (η : Type w) where
  prev : ε → η
  digest : ε → η
  body : ε → β
  recompute : η → ε → η
  start : η
  recompute_eq_iff : ∀ {p p' e e'}, recompute p e = recompute p' e' ↔ p = p' ∧ body e = body e'
  recompute_ne_start : ∀ {p e}, recompute p e ≠ start

section

variable {ε : Type u} {β : Type v} {η : Type w} (h : Hashing ε β η)

/-- The chain goes on from the digest `p`, and every digest is the recomputed one. -/
def Chained : η → List ε → Prop
  | _, [] => True
  | p, e :: rest => h.prev e = p ∧ h.digest e = h.recompute p e ∧ Chained (h.digest e) rest

/-- The last digest. -/
def tip : η → List ε → η
  | p, [] => p
  | _, e :: rest => tip (h.digest e) rest

/-- What the check looks at. -/
def evidence (e : ε) : η × η × β := (h.prev e, h.digest e, h.body e)

variable {h}

theorem chained_append : ∀ {p : η} {l l' : List ε},
    Chained h p (l ++ l') ↔ Chained h p l ∧ Chained h (tip h p l) l'
  | p, [], l' => by simp [Chained, tip]
  | p, e :: l, l' => by simp [Chained, tip, chained_append, and_assoc]

theorem tip_append_singleton (p : η) (e : ε) : ∀ l : List ε, tip h p (l ++ [e]) = h.digest e
  | [] => rfl
  | x :: l => tip_append_singleton (h.digest x) e l

/-- The check passes on a list whose evidence is that of a chain. -/
theorem Chained.of_evidence : ∀ {p : η} {l l' : List ε}, Chained h p l →
    l'.map (evidence h) = l.map (evidence h) → Chained h p l'
  | _, [], [], _, _ => trivial
  | _, [], _ :: _, _, heq => absurd (congrArg List.length heq) (by simp)
  | _, _ :: _, [], _, heq => absurd (congrArg List.length heq) (by simp)
  | p, e :: l, e' :: l', hc, heq => by
      obtain ⟨hprev, hdigest, hrest⟩ := hc
      rw [List.map_cons, List.map_cons] at heq
      obtain ⟨hhead, htail⟩ := List.cons.inj heq
      obtain ⟨hp, hboth⟩ := Prod.mk.inj hhead
      obtain ⟨hd, hb⟩ := Prod.mk.inj hboth
      refine ⟨hp.trans hprev, ?_, ?_⟩
      · rw [hd, hdigest]
        exact h.recompute_eq_iff.mpr ⟨rfl, hb.symm⟩
      · rw [hd]
        exact hrest.of_evidence htail

theorem Chained.of_prefix {p : η} {l l' : List ε} (hc : Chained h p l)
    (hpre : l'.map (evidence h) <+: l.map (evidence h)) : Chained h p l' := by
  have htake : l'.map (evidence h) = (l.take l'.length).map (evidence h) := by
    rw [List.map_take]
    have := List.prefix_iff_eq_take.mp hpre
    rwa [List.length_map] at this
  refine Chained.of_evidence ?_ htake
  have hsplit := hc
  rw [← List.take_append_drop l'.length l] at hsplit
  exact (chained_append.mp hsplit).1

theorem Chained.prev_eq_tip {p : η} {l after : List ε} {e : ε}
    (hc : Chained h p (l ++ e :: after)) :
    h.prev e = tip h p l ∧ h.digest e = h.recompute (tip h p l) e :=
  ⟨(chained_append.mp hc).2.1, (chained_append.mp hc).2.2.1⟩

/-- No digest comes twice: two places of one chain with the same tip are the same place. -/
theorem Chained.tip_inj {c : List ε} (hc : Chained h h.start c) : ∀ {l l' a a' : List ε},
    c = l ++ a → c = l' ++ a' → tip h h.start l = tip h h.start l' → l = l' := by
  intro l
  induction l using List.reverseRecOn with
  | nil =>
      intro l' a a' _ hl' htip
      rcases List.eq_nil_or_concat' l' with rfl | ⟨m, e, rfl⟩
      · rfl
      · rw [tip_append_singleton] at htip
        have hc := hc
        rw [hl', List.append_assoc] at hc
        rw [hc.prev_eq_tip.2] at htip
        exact absurd htip.symm h.recompute_ne_start
  | append_singleton m e ih =>
      intro l' a a' hl hl' htip
      have hce := hc
      rw [hl, List.append_assoc] at hce
      rcases List.eq_nil_or_concat' l' with rfl | ⟨m', e', rfl⟩
      · rw [tip_append_singleton, hce.prev_eq_tip.2] at htip
        exact absurd htip h.recompute_ne_start
      · have hce' := hc
        rw [hl', List.append_assoc] at hce'
        rw [tip_append_singleton, tip_append_singleton, hce.prev_eq_tip.2,
          hce'.prev_eq_tip.2] at htip
        have hm : m = m' := @ih m' (e :: a) (e' :: a')
          (by rw [hl, List.append_assoc]; rfl) (by rw [hl', List.append_assoc]; rfl)
          (h.recompute_eq_iff.mp htip).1
        subst hm
        rw [hl, List.append_assoc, List.append_assoc] at hl'
        rw [(List.cons.inj (List.append_cancel_left hl')).1]

/-- A checked list whose digests all come from a chain has the evidence of a prefix of it. -/
theorem Chained.prefix_of_digests {c : List ε} (hc : Chained h h.start c) {l : List ε}
    (hl : Chained h h.start l) (hmem : ∀ e ∈ l, h.digest e ∈ c.map h.digest) :
    l.map (evidence h) <+: c.map (evidence h) := by
  -- The list is followed from a place of the chain with the same tip.
  have hfollow : ∀ (l before after : List ε), c = before ++ after →
      Chained h (tip h h.start before) l → (∀ e ∈ l, h.digest e ∈ c.map h.digest) →
      l.map (evidence h) <+: after.map (evidence h) := by
    intro l
    induction l with
    | nil =>
        intro before after _ _ _
        exact List.nil_prefix
    | cons e l ih =>
        intro before after hsplit hl hmem
        obtain ⟨hprev, hdigest, hrest⟩ := hl
        obtain ⟨e', he', hsame⟩ := List.mem_map.mp (hmem e List.mem_cons_self)
        obtain ⟨m, a, hplace⟩ := List.append_of_mem he'
        have hce := hc
        rw [hplace] at hce
        obtain ⟨hprev', hdigest'⟩ := hce.prev_eq_tip
        obtain ⟨htip, hbody⟩ := h.recompute_eq_iff.mp
          (hdigest'.symm.trans (hsame.trans hdigest))
        -- The entry with the same digest stands at the same place.
        have hm : m = before := hc.tip_inj hplace hsplit htip
        subst hm
        have hafter : after = e' :: a := List.append_cancel_left (hsplit.symm.trans hplace)
        have hevidence : evidence h e = evidence h e' := by
          unfold evidence
          rw [hprev, hprev', hsame, hbody]
        rw [hafter, List.map_cons, List.map_cons, hevidence]
        refine List.cons_prefix_cons.mpr ⟨rfl, ih (m ++ [e']) a ?_ ?_ ?_⟩
        · rw [hplace, List.append_assoc]
          rfl
        · rw [tip_append_singleton, hsame]
          exact hrest
        · intro x hx
          exact hmem x (List.mem_cons_of_mem _ hx)
  exact hfollow l [] c rfl hl hmem

/-- A checked list with the last digest of a chain has its evidence. -/
theorem Chained.eq_of_tip : ∀ {c l : List ε}, Chained h h.start c → Chained h h.start l →
    tip h h.start l = tip h h.start c → l.map (evidence h) = c.map (evidence h) := by
  intro c
  induction c using List.reverseRecOn with
  | nil =>
      intro l _ hl htip
      rcases List.eq_nil_or_concat' l with rfl | ⟨m, e, rfl⟩
      · rfl
      · rw [tip_append_singleton, hl.prev_eq_tip.2] at htip
        exact absurd htip h.recompute_ne_start
  | append_singleton m e ih =>
      intro l hc hl htip
      rcases List.eq_nil_or_concat' l with rfl | ⟨m', e', rfl⟩
      · rw [tip_append_singleton, hc.prev_eq_tip.2] at htip
        exact absurd htip.symm h.recompute_ne_start
      · rw [tip_append_singleton, tip_append_singleton] at htip
        have hrecompute := htip
        rw [hl.prev_eq_tip.2, hc.prev_eq_tip.2] at hrecompute
        obtain ⟨hsame, hbody⟩ := h.recompute_eq_iff.mp hrecompute
        have hinit := ih (chained_append.mp hc).1 (chained_append.mp hl).1 hsame
        have hevidence : evidence h e' = evidence h e := by
          unfold evidence
          rw [hl.prev_eq_tip.1, hc.prev_eq_tip.1, hsame, htip, hbody]
        rw [List.map_append, List.map_append, hinit, List.map_singleton, List.map_singleton,
          hevidence]

end

end Etlantic.HashChain
