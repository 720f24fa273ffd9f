import Etlantic.Base.Dict
import Mathlib.Order.Defs.PartialOrder

/-!
# Tables whose rows evolve

No row leaves the table, and each changes by a relation at most.  A token that fences its
row grows or stays with its party, so two parties never share one.
-/

namespace Etlantic

variable {κ ρ τ α : Type} [DecidableEq κ] {R : ρ → ρ → Prop} {before after later : Dict κ ρ}
  {k : κ} {b : ρ}

/-- Every row stays under its key and changes by `R` at most. -/
def Dict.Evolves (R : ρ → ρ → Prop) (before after : Dict κ ρ) : Prop :=
  ∀ k a, before.get? k = some a → ∃ b, after.get? k = some b ∧ R a b

namespace Dict.Evolves

theorem refl (hrefl : ∀ a, R a a) (rows : Dict κ ρ) : Evolves R rows rows :=
  fun _ a h => ⟨a, h, hrefl a⟩

theorem trans (htrans : ∀ a b c, R a b → R b c → R a c) (h : Evolves R before after)
    (h' : Evolves R after later) : Evolves R before later := by
  intro k a hget
  obtain ⟨b, hb, hfirst⟩ := h k a hget
  obtain ⟨c, hc, hsecond⟩ := h' k b hb
  exact ⟨c, hc, htrans a b c hfirst hsecond⟩

/-- Replacing a row, or adding one. -/
theorem set (hrefl : ∀ a, R a a) (h : ∀ a, before.get? k = some a → R a b) :
    Evolves R before (before.set k b) := by
  intro k' a hget
  by_cases hk : k = k'
  · subst hk
    exact ⟨b, Dict.get?_set_self _ _ _, h a hget⟩
  · exact ⟨a, (Dict.get?_set_ne _ _ hk).trans hget, hrefl a⟩

theorem replace (hrefl : ∀ a, R a a) {a : ρ} (hget : before.get? k = some a) (h : R a b) :
    Evolves R before (before.set k b) :=
  set hrefl fun _ hold => Option.some.inj (hget.symm.trans hold) ▸ h

theorem add (hrefl : ∀ a, R a a) (hnew : before.get? k = none) :
    Evolves R before (before.set k b) :=
  set hrefl fun _ hold => nomatch hnew.symm.trans hold

end Dict.Evolves

/-! ## Fencing -/

/-- The token grows or stays with its party. -/
def Fences [LT τ] (token : ρ → τ) (party : ρ → α) (a b : ρ) : Prop :=
  token a < token b ∨ token a = token b ∧ party a = party b

theorem Fences.refl [LT τ] {token : ρ → τ} {party : ρ → α} (a : ρ) : Fences token party a a :=
  .inr ⟨rfl, rfl⟩

theorem Fences.trans [Preorder τ] {token : ρ → τ} {party : ρ → α} (a b c : ρ)
    (h : Fences token party a b) (h' : Fences token party b c) : Fences token party a c := by
  rcases h with hlt | ⟨htoken, hparty⟩ <;> rcases h' with hlt' | ⟨htoken', hparty'⟩
  · exact .inl (lt_trans hlt hlt')
  · exact .inl (htoken' ▸ hlt)
  · exact .inl (htoken ▸ hlt')
  · exact .inr ⟨htoken.trans htoken', hparty.trans hparty'⟩

end Etlantic
