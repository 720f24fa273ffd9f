import Mathlib.Data.List.Induction
import Mathlib.Logic.Relation

/-!
# Runs of a deterministic machine

A machine is a function `next` from a state and an event to the next state.  A
run is a list of events; a guard says in which states an event may be taken.
`observe` collects what an observer of the single steps sees along the way.

The rules below turn a fact about one step into a fact about every run: an
invariant, an invariant that also speaks about the observations so far, and a
preorder between the first and the last state.  A part of the state that only
some events change runs by itself under those.  A step that makes several
atomic writes is described by the reflexive transitive closure of one write;
the rules in the last section bring facts about one write to that closure.
-/

namespace Etlantic.Runs

universe u v w

variable {σ : Type u} {ε : Type v} {β : Type w}

/-- The state after the events, in order. -/
def run (next : σ → ε → σ) (s : σ) (es : List ε) : σ := es.foldl next s

/-- Every event is taken in a state that allows it. -/
def Guarded (next : σ → ε → σ) (guard : σ → ε → Prop) : σ → List ε → Prop
  | _, [] => True
  | s, e :: es => guard s e ∧ Guarded next guard (next s e) es

/-- The observations of the single steps, in order. -/
def observe (next : σ → ε → σ) (see : σ → ε → Option β) : σ → List ε → List β
  | _, [] => []
  | s, e :: es => (see s e).toList ++ observe next see (next s e) es

instance decidableGuarded (next : σ → ε → σ) (guard : σ → ε → Prop)
    [∀ s e, Decidable (guard s e)] : ∀ (s : σ) (es : List ε), Decidable (Guarded next guard s es)
  | _, [] => inferInstanceAs (Decidable True)
  | s, e :: es =>
      have := decidableGuarded next guard (next s e) es
      inferInstanceAs (Decidable (guard s e ∧ Guarded next guard (next s e) es))

section Rules

variable {next : σ → ε → σ} {guard : σ → ε → Prop} {see : σ → ε → Option β}

@[simp] theorem run_nil (s : σ) : run next s [] = s := rfl

@[simp] theorem run_cons (s : σ) (e : ε) (es : List ε) :
    run next s (e :: es) = run next (next s e) es := rfl

theorem run_append (s : σ) (es es' : List ε) :
    run next s (es ++ es') = run next (run next s es) es' :=
  List.foldl_append

theorem run_append_singleton (s : σ) (es : List ε) (e : ε) :
    run next s (es ++ [e]) = next (run next s es) e :=
  run_append s es [e]

theorem guarded_append (s : σ) (es es' : List ε) :
    Guarded next guard s (es ++ es') ↔
      Guarded next guard s es ∧ Guarded next guard (run next s es) es' := by
  induction es generalizing s with
  | nil => simp [Guarded]
  | cons e es ih => simp [Guarded, ih, and_assoc]

theorem Guarded.left {s : σ} {es es' : List ε} (h : Guarded next guard s (es ++ es')) :
    Guarded next guard s es :=
  ((guarded_append s es es').mp h).1

theorem Guarded.right {s : σ} {es es' : List ε} (h : Guarded next guard s (es ++ es')) :
    Guarded next guard (run next s es) es' :=
  ((guarded_append s es es').mp h).2

theorem Guarded.and {guard' : σ → ε → Prop} : ∀ {s : σ} {es : List ε},
    Guarded next guard s es → Guarded next guard' s es →
      Guarded next (fun s e => guard s e ∧ guard' s e) s es
  | _, [], _, _ => trivial
  | _, _ :: _, h, h' => ⟨⟨h.1, h'.1⟩, h.2.and h'.2⟩

/-- Every event of the run is allowed where it is taken. -/
theorem guarded_iff {s : σ} {es : List ε} :
    Guarded next guard s es ↔
      ∀ before e after, es = before ++ e :: after → guard (run next s before) e := by
  constructor
  · rintro h before e after rfl
    exact h.right.1
  · intro h
    induction es generalizing s with
    | nil => exact trivial
    | cons e es ih =>
        refine ⟨h [] e es rfl, ih fun before e' after hes => ?_⟩
        exact h (e :: before) e' after (by rw [hes, List.cons_append])

theorem guarded_true : ∀ (s : σ) (es : List ε), Guarded next (fun _ _ => True) s es
  | _, [] => trivial
  | _, _ :: es => ⟨trivial, guarded_true _ es⟩

/-! ## From one step to every run -/

theorem invariant {I : σ → Prop} (step : ∀ s e, I s → guard s e → I (next s e)) :
    ∀ {s : σ} {es : List ε}, I s → Guarded next guard s es → I (run next s es)
  | _, [], h, _ => h
  | s, e :: _, h, hg => by
      rw [run_cons]
      exact invariant step (step s e h hg.1) hg.2

/-- An invariant of the state together with what has been observed so far. -/
theorem invariant_observed {I : σ → List β → Prop}
    (step : ∀ s e seen, I s seen → guard s e → I (next s e) (seen ++ (see s e).toList)) :
    ∀ {s : σ} {es : List ε} {seen : List β}, I s seen → Guarded next guard s es →
      I (run next s es) (seen ++ observe next see s es)
  | _, [], seen, h, _ => by simpa [observe] using h
  | s, e :: es, seen, h, hg => by
      have := invariant_observed step (step s e seen h hg.1) hg.2
      simpa [observe, List.append_assoc] using this

/-- An invariant turns the guard of every step into a fact about every step. -/
theorem Guarded.along {I : σ → Prop} {fact : σ → ε → Prop}
    (step : ∀ s e, I s → guard s e → I (next s e)) (himp : ∀ s e, I s → guard s e → fact s e) :
    ∀ {s : σ} {es : List ε}, I s → Guarded next guard s es → Guarded next fact s es
  | _, [], _, _ => trivial
  | s, e :: _, h, hg =>
      ⟨himp s e h hg.1, Guarded.along step himp (step s e h hg.1) hg.2⟩

/-- A preorder that every step respects relates the ends of a run. -/
theorem related {I : σ → Prop} {R : σ → σ → Prop} (refl : ∀ s, R s s)
    (trans : ∀ {a b c}, R a b → R b c → R a c)
    (step : ∀ s e, I s → guard s e → I (next s e))
    (rel : ∀ s e, I s → guard s e → R s (next s e)) :
    ∀ {s : σ} {es : List ε}, I s → Guarded next guard s es → R s (run next s es)
  | s, [], _, _ => refl s
  | s, e :: _, h, hg => by
      rw [run_cons]
      exact trans (rel s e h hg.1) (related refl trans step rel (step s e h hg.1) hg.2)

/-! ## A part of the state -/

section Part

variable {τ : Type*} {next' : τ → ε → τ} {see' : τ → ε → Option β} {part : σ → τ} {own : ε → Bool}

/-- What is seen of the own events is what is seen of the part alone. -/
theorem part_observe (hown : ∀ s e, own e = true → part (next s e) = next' (part s) e)
    (hother : ∀ s e, own e = false → part (next s e) = part s)
    (hsee : ∀ s e, own e = true → see s e = see' (part s) e)
    (hsilent : ∀ s e, own e = false → see s e = none) (s : σ) (es : List ε) :
    observe next see s es = observe next' see' (part s) (es.filter own) := by
  induction es generalizing s with
  | nil => rfl
  | cons e es ih =>
      cases he : own e with
      | true =>
          rw [List.filter_cons_of_pos he, observe, observe, ih, hown s e he, hsee s e he]
      | false =>
          rw [List.filter_cons_of_neg (by simp [he]), observe, ih, hother s e he,
            hsilent s e he]
          rfl

end Part

end Rules

/-! ## Steps made of several writes -/

section Writes

variable {write : σ → σ → Prop}

theorem writes_invariant {I : σ → Prop} (hwrite : ∀ a b, I a → write a b → I b) {s t : σ}
    (h : Relation.ReflTransGen write s t) (hs : I s) : I t := by
  induction h with
  | refl => exact hs
  | tail _ hlast ih => exact hwrite _ _ ih hlast

theorem writes_related {I : σ → Prop} {R : σ → σ → Prop} (refl : ∀ s, R s s)
    (trans : ∀ {a b c}, R a b → R b c → R a c) (hwrite : ∀ a b, I a → write a b → I b)
    (rel : ∀ a b, I a → write a b → R a b) {s t : σ}
    (h : Relation.ReflTransGen write s t) (hs : I s) : R s t := by
  induction h with
  | refl => exact refl s
  | tail hinit hlast ih =>
      exact trans ih (rel _ _ (writes_invariant hwrite hinit hs) hlast)

end Writes

end Etlantic.Runs
