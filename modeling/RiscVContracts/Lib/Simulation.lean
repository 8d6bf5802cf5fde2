import RiscVContracts.Lib.Programs

namespace RiscVContracts.Simulation

open Programs

variable {ε σ τ α β : Type} {R : σ → τ → Prop}

/-- Two programs that, run on related states, both return the same value or
both fail the same way, and leave related states. -/
def Alike (R : σ → τ → Prop) (x : EStateM ε σ α) (y : EStateM ε τ α) : Prop :=
  ∀ s t, R s t → match x s, y t with
    | .ok a s', .ok b t' => a = b ∧ R s' t'
    | .error e s', .error f t' => e = f ∧ R s' t'
    | _, _ => False

section Rules

variable {x : EStateM ε σ α} {y : EStateM ε τ α} {s : σ} {t : τ}

theorem Alike.cases (h : Alike R x y) (hr : R s t) :
    (∃ a s' t', x s = .ok a s' ∧ y t = .ok a t' ∧ R s' t') ∨
      ∃ e s' t', x s = .error e s' ∧ y t = .error e t' ∧ R s' t' := by
  have hst := h s t hr
  cases hx : x s with
  | ok a s' =>
      cases hy : y t with
      | ok b t' =>
          rw [hx, hy] at hst
          obtain ⟨rfl, hr'⟩ := hst
          exact .inl ⟨a, s', t', rfl, rfl, hr'⟩
      | error e t' =>
          rw [hx, hy] at hst
          exact hst.elim
  | error e s' =>
      cases hy : y t with
      | ok b t' =>
          rw [hx, hy] at hst
          exact hst.elim
      | error f t' =>
          rw [hx, hy] at hst
          obtain ⟨rfl, hr'⟩ := hst
          exact .inr ⟨e, s', t', rfl, rfl, hr'⟩

theorem alike_of_ok {f : σ → α × σ} {g : τ → α × τ}
    (h : ∀ s t, R s t → (f s).1 = (g t).1 ∧ R (f s).2 (g t).2) :
    Alike R (fun s => .ok (f s).1 (f s).2 : EStateM ε σ α) (fun t => .ok (g t).1 (g t).2) := h

theorem Alike.pure (a : α) : Alike R (Pure.pure a : EStateM ε σ α) (Pure.pure a) :=
  fun _ _ hr => ⟨rfl, hr⟩

theorem Alike.throw (e : ε) : Alike R (throw e : EStateM ε σ α) (throw e) := fun _ _ hr => ⟨rfl, hr⟩

theorem Alike.bind {f : α → EStateM ε σ β} {g : α → EStateM ε τ β} (h : Alike R x y)
    (hfg : ∀ a, Alike R (f a) (g a)) : Alike R (x >>= f) (y >>= g) := by
  intro s t hr
  obtain ⟨a, s', t', hx, hy, hr'⟩ | ⟨e, s', t', hx, hy, hr'⟩ := h.cases hr
  · rw [bind_of_ok hx, bind_of_ok hy]
    exact hfg a s' t' hr'
  · rw [bind_of_error hx, bind_of_error hy]
    exact ⟨rfl, hr'⟩

theorem Alike.ite {c : Prop} [Decidable c] {x' : EStateM ε σ α} {y' : EStateM ε τ α} (h : Alike R x y)
    (h' : Alike R x' y') : Alike R (if c then x else x') (if c then y else y') := by
  split
  · exact h
  · exact h'

end Rules

section Runs

variable {ι γ : Type}

def answers (exec : ι → σ → γ × σ) : List ι → σ → List γ
  | [], _ => []
  | i :: is, s => (exec i s).1 :: answers exec is (exec i s).2

theorem answers_alike {exec : ι → σ → γ × σ} {exec' : ι → τ → γ × τ}
    (h : ∀ i s t, R s t → (exec i s).1 = (exec' i t).1 ∧ R (exec i s).2 (exec' i t).2) (is : List ι)
    {s : σ} {t : τ} (hr : R s t) :
    answers exec is s = answers exec' is t ∧
      R (is.foldl (fun s i => (exec i s).2) s) (is.foldl (fun t i => (exec' i t).2) t) := by
  induction is generalizing s t with
  | nil => exact ⟨rfl, hr⟩
  | cons i is ih =>
      obtain ⟨ha, hr'⟩ := h i s t hr
      obtain ⟨has, hrs⟩ := ih hr'
      exact ⟨congrArg₂ List.cons ha has, hrs⟩

variable {ι' γ' : Type} {exec : ι → σ → γ × σ} {exec' : ι' → τ → γ' × τ} {read : ι → σ → ι'}

/-- The inputs of a second system, each read off the first one when it comes to it. -/
def readings (exec : ι → σ → γ × σ) (read : ι → σ → ι') : List ι → σ → List ι'
  | [], _ => []
  | i :: is, s => read i s :: readings exec read is (exec i s).2

/-- A system that answers as the second one answers what is read off. -/
theorem answers_readings {g : γ' → γ}
    (h : ∀ i s t, R s t → (exec i s).1 = g (exec' (read i s) t).1 ∧ R (exec i s).2 (exec' (read i s) t).2)
    (is : List ι) {s : σ} {t : τ} (hr : R s t) :
    answers exec is s = (answers exec' (readings exec read is s) t).map g ∧
      R (is.foldl (fun s i => (exec i s).2) s)
        ((readings exec read is s).foldl (fun t i => (exec' i t).2) t) := by
  induction is generalizing s t with
  | nil => exact ⟨rfl, hr⟩
  | cons i is ih =>
      obtain ⟨ha, hr'⟩ := h i s t hr
      obtain ⟨has, hrs⟩ := ih hr'
      exact ⟨congrArg₂ List.cons ha has, hrs⟩

end Runs

section Kinds

variable {ι γ : Type} {kind : ι → Bool} {exec : ι → σ → γ × σ}

def answersTo (kind : ι → Bool) (exec : ι → σ → γ × σ) : List ι → σ → List γ
  | [], _ => []
  | i :: is, s =>
    if kind i then (exec i s).1 :: answersTo kind exec is (exec i s).2
    else answersTo kind exec is (exec i s).2

/-- Inputs of the other kind do not matter to what this kind is answered, if
they leave the states alike and states that are alike answer this kind alike. -/
theorem answersTo_eq {C : ι → Prop} {Q : σ → σ → Prop}
    (hkind : ∀ i s t, C i → kind i = true → Q s t →
      (exec i s).1 = (exec i t).1 ∧ Q (exec i s).2 (exec i t).2)
    (hother : ∀ i s t, C i → kind i = false → Q s t → Q (exec i s).2 t) (is : List ι)
    (hC : ∀ i ∈ is, C i) {s t : σ} (h : Q s t) :
    answersTo kind exec is s = answers exec (is.filter kind) t := by
  induction is generalizing s t with
  | nil => rfl
  | cons i is ih =>
      have hi := hC i List.mem_cons_self
      have hrest := fun j hj => hC j (List.mem_cons_of_mem i hj)
      cases hk : kind i with
      | true =>
          obtain ⟨ha, hq⟩ := hkind i s t hi hk h
          rw [answersTo, if_pos hk, List.filter_cons_of_pos hk, answers, ha, ih hrest hq]
      | false =>
          have hno : ¬ kind i = true := by rw [hk]; decide
          rw [answersTo, if_neg hno, List.filter_cons_of_neg hno]
          exact ih hrest (hother i s t hi hk h)

end Kinds

end RiscVContracts.Simulation
