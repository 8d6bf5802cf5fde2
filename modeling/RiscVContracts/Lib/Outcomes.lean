import RiscVContracts.Lib.Simulation

namespace RiscVContracts.Outcomes

open Programs Simulation

variable {ε σ τ α β : Type} {R R' : σ → τ → Prop}

/-- A program came to what an abstract state foresees: it returned the value
and left a state that stands for the one foreseen, or it did not return. -/
def ComesTo (R : σ → τ → Prop) (r : EStateM.Result ε σ α) : Option (α × τ) → Prop
  | some (a, c) => ∃ t, r = .ok a t ∧ R t c
  | none => ∀ a t, r ≠ .ok a t

section Rules

variable {x : EStateM ε σ α} {f : α → EStateM ε σ β} {s t : σ} {c : τ} {a : α}

theorem ComesTo.pure (h : R s c) : ComesTo R ((Pure.pure a : EStateM ε σ α) s) (some (a, c)) :=
  ⟨s, rfl, h⟩

theorem ComesTo.step {o : Option (β × τ)} (hx : x s = .ok a t) (h : ComesTo R (f a t) o) :
    ComesTo R ((x >>= f) s) o := by
  rwa [bind_of_ok hx]

theorem ComesTo.fail (h : ∀ a t, x s ≠ .ok a t) : ComesTo R ((x >>= f) s) none := by
  intro b u hb
  obtain ⟨a, t, hx, -⟩ := bind_ok.mp hb
  exact h a t hx

theorem ComesTo.check {p : Prop} {o : Option (β × τ)} (hx : ∀ b t, x s = .ok b t ↔ p ∧ a = b ∧ s = t)
    (hn : ¬ p → o = none) (hf : p → ComesTo R (f a s) o) : ComesTo R ((x >>= f) s) o := by
  by_cases h : p
  · exact .step ((hx a s).mpr ⟨h, rfl, rfl⟩) (hf h)
  · rw [hn h]
    exact .fail fun b t hb => h ((hx b t).mp hb).1

theorem ComesTo.bind {γ : Type} {o : Option γ} {v : γ → α} {d : γ → τ} {g : γ → Option (β × τ)}
    (h : ComesTo R (x s) (o.map fun c => (v c, d c)))
    (hf : ∀ c t, o = some c → R t (d c) → ComesTo R' (f (v c) t) (g c)) :
    ComesTo R' ((x >>= f) s) (o.bind g) := by
  cases o with
  | none => exact .fail h
  | some c =>
      obtain ⟨t, hx, hr⟩ := h
      exact .step hx (hf c t rfl hr)

theorem ComesTo.close {o : Option (α × τ)} {g : α → β} (h : ComesTo R (x s) o)
    (hf : ∀ a t c, R t c → ∃ u, f a t = .ok (g a) u ∧ R' u c) :
    ComesTo R' ((x >>= f) s) (o.map fun p => (g p.1, p.2)) := by
  cases o with
  | none => exact .fail h
  | some p =>
      obtain ⟨t, hx, hr⟩ := h
      obtain ⟨u, hu, hr'⟩ := hf p.1 t p.2 hr
      exact ⟨u, (bind_of_ok hx).trans hu, hr'⟩

end Rules

section Frames

def attempt (o : Option (α × τ)) (c : τ) : Option α × τ :=
  match o with
  | some (a, c') => (some a, c')
  | none => (none, c)

theorem attempt_map {υ : Type} (f : α → β) (g : τ → υ) (o : Option (α × τ)) (c : τ) :
    attempt (o.map (Prod.map f g)) (g c) = Prod.map (Option.map f) g (attempt o c) := by
  cases o <;> rfl

theorem ComesTo.rollback {x : EStateM ε σ α} {s : σ} {c : τ} {o : Option (α × τ)} (h : ComesTo R (x s) o)
    (hr : R s c) :
    value (rollback x s) = (attempt o c).1 ∧ R (final (rollback x s)) (attempt o c).2 := by
  rw [Programs.rollback]
  cases o with
  | none =>
      cases hx : x s with
      | ok a t => exact absurd hx (h a t)
      | error e t => exact ⟨rfl, hr⟩
  | some p =>
      obtain ⟨t, hx, ht⟩ := h
      rw [hx]
      exact ⟨rfl, ht⟩

end Frames

end RiscVContracts.Outcomes
