import Mathlib.Logic.Unique
import Mathlib.Tactic.Common

namespace RiscVContracts.Programs

variable {ε σ α β : Type}

def final : EStateM.Result ε σ α → σ
  | .ok _ s => s
  | .error _ s => s

@[simp] theorem final_ok (a : α) (s : σ) : final (.ok a s : EStateM.Result ε σ α) = s := rfl

@[simp] theorem final_error (e : ε) (s : σ) : final (.error e s : EStateM.Result ε σ α) = s := rfl

def value : EStateM.Result ε σ α → Option α
  | .ok a _ => some a
  | .error _ _ => none

theorem ok_of_value {r : EStateM.Result ε σ α} {a : α} (h : value r = some a) : r = .ok a (final r) := by
  cases r with
  | ok b s => rw [← Option.some.inj h, final]
  | error e s => cases h

theorem value_eq_some {r : EStateM.Result ε σ α} {a : α} : value r = some a ↔ ∃ s, r = .ok a s := by
  cases r <;> simp [value]

/-- A frame of the host: a failing program leaves the state it started from. -/
def rollback (x : EStateM ε σ α) : EStateM ε σ α := fun s =>
  match x s with
  | .ok a t => .ok a t
  | .error e _ => .error e s

theorem rollback_ok {x : EStateM ε σ α} {s t : σ} {a : α} :
    rollback x s = .ok a t ↔ x s = .ok a t := by
  unfold rollback
  cases h : x s <;> simp

theorem final_rollback (x : EStateM ε σ α) (s : σ) :
    (∃ a, x s = .ok a (final (rollback x s))) ∨ final (rollback x s) = s := by
  cases h : x s with
  | ok a t => exact .inl ⟨a, by simp [rollback, h]⟩
  | error e t => exact .inr (by simp [rollback, h])

section Inversion

theorem bind_ok {x : EStateM ε σ α} {f : α → EStateM ε σ β} {s t : σ} {b : β} :
    (x >>= f) s = .ok b t ↔ ∃ a u, x s = .ok a u ∧ f a u = .ok b t := by
  change EStateM.bind x f s = _ ↔ _
  unfold EStateM.bind
  cases h : x s <;> simp

theorem exists_unit {p : Unit → Prop} : (∃ u, p u) ↔ p () := Unique.exists_iff

theorem bind_of_ok {x : EStateM ε σ α} {f : α → EStateM ε σ β} {s u : σ} {a : α}
    (h : x s = .ok a u) : (x >>= f) s = f a u := by
  change EStateM.bind x f s = _
  simp [EStateM.bind, h]

theorem bind_of_error {x : EStateM ε σ α} {f : α → EStateM ε σ β} {s u : σ} {e : ε}
    (h : x s = .error e u) : (x >>= f) s = .error e u := by
  change EStateM.bind x f s = _
  simp [EStateM.bind, h]

theorem bind_error {x : EStateM ε σ α} {f : α → EStateM ε σ β} {s t : σ} {e : ε} :
    (x >>= f) s = .error e t ↔ x s = .error e t ∨ ∃ a u, x s = .ok a u ∧ f a u = .error e t := by
  change EStateM.bind x f s = _ ↔ _
  unfold EStateM.bind
  cases h : x s <;> simp

theorem bind_congr_at {x y : EStateM ε σ α} {f g : α → EStateM ε σ β} {s : σ} (hx : x s = y s)
    (hf : ∀ a t, y s = .ok a t → f a t = g a t) : (x >>= f) s = (y >>= g) s := by
  cases hy : y s with
  | ok a t =>
      rw [bind_of_ok (hx.trans hy), bind_of_ok hy]
      exact hf a t hy
  | error e t => rw [bind_of_error (hx.trans hy), bind_of_error hy]

theorem pure_ok {a b : α} {s t : σ} :
    (pure a : EStateM ε σ α) s = .ok b t ↔ a = b ∧ s = t := by
  change EStateM.Result.ok a s = .ok b t ↔ _
  simp

theorem bind_pure_ok {x : EStateM ε σ α} {g : α → β} {s t : σ} {b : β} :
    (x >>= fun a => pure (g a)) s = .ok b t ↔ ∃ a, x s = .ok a t ∧ g a = b := by
  rw [bind_ok]
  constructor
  · rintro ⟨a, u, hx, hp⟩
    obtain ⟨hg, rfl⟩ := pure_ok.mp hp
    exact ⟨a, hx, hg⟩
  · rintro ⟨a, hx, hg⟩
    exact ⟨a, t, hx, pure_ok.mpr ⟨hg, rfl⟩⟩

theorem throw_ok {e : ε} {b : α} {s t : σ} :
    ¬ (throw e : EStateM ε σ α) s = .ok b t := by
  change ¬ EStateM.Result.error e s = .ok b t
  simp

end Inversion

section Deciding

variable {x : EStateM ε σ α} {f : α → EStateM ε σ β} {s t u : σ} {C : σ → Prop}

/-- Whether a program returned can be read off the state it ended in. -/
def Decides (C : σ → Prop) (r : EStateM.Result ε σ α) : Prop := (∃ a t, r = .ok a t) ↔ C (final r)

theorem Decides.ok {a : α} (h : C t) : Decides C (.ok a t : EStateM.Result ε σ α) :=
  ⟨fun _ => h, fun _ => ⟨a, t, rfl⟩⟩

theorem Decides.error {e : ε} (h : ¬ C t) : Decides C (.error e t : EStateM.Result ε σ α) := by
  refine ⟨?_, fun hc => absurd hc h⟩
  rintro ⟨a, u, hu⟩
  cases hu

theorem Decides.bind (hx : ∀ e t, x s = .error e t → ¬ C t)
    (hf : ∀ a t, x s = .ok a t → Decides C (f a t)) : Decides C ((x >>= f) s) := by
  cases h : x s with
  | ok a t =>
      rw [bind_of_ok h]
      exact hf a t h
  | error e t =>
      rw [bind_of_error h]
      exact .error (hx e t h)

theorem Decides.bind_of_ok {a : α} (hx : x s = .ok a u) (hf : Decides C (f a u)) :
    Decides C ((x >>= f) s) := by
  rw [Programs.bind_of_ok hx]
  exact hf

theorem Decides.congr {C' : σ → Prop} {r : EStateM.Result ε σ α} (hr : Decides C r)
    (h : ∀ t, C t ↔ C' t) : Decides C' r := hr.trans (h _)

theorem Decides.map {g : α → β} (h : Decides C (x s)) : Decides C ((x >>= fun a => pure (g a)) s) := by
  cases hx : x s with
  | ok a t =>
      rw [hx] at h
      rw [Programs.bind_of_ok hx]
      exact .ok (h.mp ⟨a, t, rfl⟩)
  | error e t =>
      rw [hx] at h
      rw [bind_of_error hx]
      exact .error fun hc => by
        obtain ⟨a, u, hu⟩ := h.mpr hc
        cases hu

end Deciding

section Triples

/-- From a state in `P` the program returns in `Q` or fails in `E`. -/
def Triple (P : σ → Prop) (x : EStateM ε σ α) (Q : α → σ → Prop) (E : σ → Prop) : Prop :=
  ∀ s, P s → match x s with
    | .ok a t => Q a t
    | .error _ t => E t

theorem Triple.bind {P : σ → Prop} {x : EStateM ε σ α} {f : α → EStateM ε σ β}
    {R : α → σ → Prop} {Q : β → σ → Prop} {E : σ → Prop}
    (hx : Triple P x R E) (hf : ∀ a, Triple (R a) (f a) Q E) : Triple P (x >>= f) Q E := by
  intro s hs
  have h := hx s hs
  cases hr : x s with
  | ok a t =>
      rw [hr] at h
      rw [bind_of_ok hr]
      exact hf a t h
  | error e t =>
      rw [hr] at h
      rw [bind_of_error hr]
      exact h

theorem Triple.pure {P : σ → Prop} {a : α} {Q : α → σ → Prop} {E : σ → Prop}
    (h : ∀ s, P s → Q a s) : Triple P (Pure.pure a : EStateM ε σ α) Q E := h

theorem Triple.throw {P : σ → Prop} {e : ε} {Q : α → σ → Prop} {E : σ → Prop}
    (h : ∀ s, P s → E s) : Triple P (throw e : EStateM ε σ α) Q E := h

theorem Triple.ite {P : σ → Prop} {c : Prop} [Decidable c] {x y : EStateM ε σ α}
    {Q : α → σ → Prop} {E : σ → Prop} (hx : c → Triple P x Q E) (hy : ¬ c → Triple P y Q E) :
    Triple P (if c then x else y) Q E := by
  split
  · exact hx ‹_›
  · exact hy ‹_›

theorem Triple.weaken {P P' : σ → Prop} {x : EStateM ε σ α} {Q Q' : α → σ → Prop}
    {E E' : σ → Prop} (h : Triple P x Q E) (hp : ∀ s, P' s → P s)
    (hq : ∀ a s, Q a s → Q' a s) (he : ∀ s, E s → E' s) : Triple P' x Q' E' := by
  intro s hs
  have := h s (hp s hs)
  cases hr : x s with
  | ok a t => rw [hr] at this; exact hq a t this
  | error e t => rw [hr] at this; exact he t this

theorem Triple.of_ok {P : σ → Prop} {x : EStateM ε σ α} {Q : α → σ → Prop} {E : σ → Prop}
    (h : Triple P x Q E) {s t : σ} {a : α} (hs : P s) (hr : x s = .ok a t) : Q a t := by
  simpa [hr] using h s hs

theorem Triple.of_error {P : σ → Prop} {x : EStateM ε σ α} {Q : α → σ → Prop} {E : σ → Prop}
    (h : Triple P x Q E) {s t : σ} {e : ε} (hs : P s) (hr : x s = .error e t) : E t := by
  simpa [hr] using h s hs

def Keeps (J E : σ → Prop) (x : EStateM ε σ α) : Prop := Triple J x (fun _ => J) E

theorem Keeps.bind {J E : σ → Prop} {x : EStateM ε σ α} {f : α → EStateM ε σ β} (hx : Keeps J E x)
    (hf : ∀ a, Keeps J E (f a)) : Keeps J E (x >>= f) := Triple.bind hx hf

theorem Keeps.pure {J E : σ → Prop} (a : α) : Keeps J E (Pure.pure a : EStateM ε σ α) :=
  Triple.pure fun _ h => h

theorem Keeps.throw {J E : σ → Prop} {e : ε} (h : ∀ s, J s → E s) :
    Keeps J E (throw e : EStateM ε σ α) := Triple.throw h

theorem Keeps.ite {J E : σ → Prop} {c : Prop} [Decidable c] {x y : EStateM ε σ α} (hx : Keeps J E x)
    (hy : Keeps J E y) : Keeps J E (if c then x else y) := Triple.ite (fun _ => hx) fun _ => hy

end Triples

section Settling

/-- Exactly on the condition the program returns, in a state of the given
kind; otherwise it fails in the state it started from. -/
structure Settles (x : EStateM ε σ α) (s : σ) (c : Prop) (Q : σ → Prop) : Prop where
  commits : (∃ a t, x s = .ok a t) ↔ c
  effect : ∀ a t, x s = .ok a t → Q t
  failure : ∀ e t, x s = .error e t → t = s

variable {x : EStateM ε σ α} {s t : σ} {c : Prop} {Q : σ → Prop}

theorem settles_of_ok {a : α} (hc : c) (hq : Q t) (h : x s = .ok a t) : Settles x s c Q where
  commits := ⟨fun _ => hc, fun _ => ⟨a, t, h⟩⟩
  effect b u hu := by
    rw [h] at hu
    cases hu
    exact hq
  failure e u hu := by
    rw [h] at hu
    cases hu

theorem settles_of_error {e : ε} (hc : ¬ c) (h : x s = .error e s) : Settles x s c Q where
  commits := by
    refine ⟨?_, fun hc' => absurd hc' hc⟩
    rintro ⟨b, u, hu⟩
    rw [h] at hu
    cases hu
  effect b u hu := by
    rw [h] at hu
    cases hu
  failure e' u hu := by
    rw [h] at hu
    cases hu
    rfl

end Settling

section Projections

variable {τ : Type} {p : τ → σ}

def project (p : τ → σ) : EStateM.Result ε τ α → EStateM.Result ε σ α
  | .ok a t => .ok a (p t)
  | .error e t => .error e (p t)

/-- The second program runs on a larger state, and seen through `p` as the first one does. -/
def Projects (p : τ → σ) (x : EStateM ε σ α) (y : EStateM ε τ α) : Prop := ∀ t, x (p t) = project p (y t)

theorem Projects.bind {x : EStateM ε σ α} {y : EStateM ε τ α} {f : α → EStateM ε σ β}
    {g : α → EStateM ε τ β} (hx : Projects p x y) (hf : ∀ a, Projects p (f a) (g a)) :
    Projects p (x >>= f) (y >>= g) := by
  intro t
  have h := hx t
  cases hy : y t with
  | ok a u =>
      rw [hy] at h
      rw [bind_of_ok h, bind_of_ok hy]
      exact hf a u
  | error e u =>
      rw [hy] at h
      rw [bind_of_error h, bind_of_error hy]
      rfl

theorem Projects.pure (a : α) : Projects p (Pure.pure a : EStateM ε σ α) (Pure.pure a) := fun _ => rfl

theorem Projects.throw (e : ε) : Projects p (throw e : EStateM ε σ α) (throw e) := fun _ => rfl

theorem Projects.ite {c : Prop} [Decidable c] {x x' : EStateM ε σ α} {y y' : EStateM ε τ α}
    (hx : Projects p x y) (hx' : Projects p x' y') :
    Projects p (if c then x else x') (if c then y else y') := by
  split
  · exact hx
  · exact hx'

theorem Projects.returns_iff {x : EStateM ε σ α} {y : EStateM ε τ α} (h : Projects p x y) (t : τ) :
    (∃ a s, x (p t) = .ok a s) ↔ ∃ a u, y t = .ok a u := by
  rw [h t]
  cases y t with
  | ok a u => exact ⟨fun _ => ⟨a, u, rfl⟩, fun _ => ⟨a, p u, rfl⟩⟩
  | error e u => simp [project]

end Projections

section Runs

variable {τ : Type}

/-- The states met along a run of steps, the first one included. -/
def states (step : τ → σ → σ) : List τ → σ → List σ
  | [], s => [s]
  | e :: es, s => s :: states step es (step e s)

theorem mem_states_self (step : τ → σ → σ) (es : List τ) (s : σ) : s ∈ states step es s := by
  cases es <;> simp [states]

theorem foldl_mem_states (step : τ → σ → σ) (es : List τ) (s : σ) :
    es.foldl (fun s e => step e s) s ∈ states step es s := by
  induction es generalizing s with
  | nil => simp [states]
  | cons e es ih => exact List.mem_cons_of_mem _ (ih (step e s))

/-- A run of steps that each do what another step does. -/
theorem states_map {τ' : Type} {step : τ → σ → σ} {step' : τ' → σ → σ} {g : τ → τ'}
    (h : ∀ e s, step e s = step' (g e) s) (es : List τ) (s : σ) :
    states step es s = states step' (es.map g) s := by
  induction es generalizing s with
  | nil => rfl
  | cons e es ih => rw [List.map_cons, states, states, ih, h]

/-- Every step of the run satisfies the condition in the state it starts from. -/
def Steps (step : τ → σ → σ) (C : τ → σ → Prop) : List τ → σ → Prop
  | [], _ => True
  | e :: es, s => C e s ∧ Steps step C es (step e s)

theorem steps_true (step : τ → σ → σ) (es : List τ) (s : σ) : Steps step (fun _ _ => True) es s := by
  induction es generalizing s with
  | nil => trivial
  | cons e es ih => exact ⟨trivial, ih _⟩

theorem steps_congr {step : τ → σ → σ} {C C' : τ → σ → Prop} {I : σ → Prop}
    (hstep : ∀ e s, I s → I (step e s)) (hc : ∀ e s, I s → (C e s ↔ C' e s)) (es : List τ) {s : σ}
    (hs : I s) : Steps step C es s ↔ Steps step C' es s := by
  induction es generalizing s with
  | nil => rfl
  | cons e es ih => exact and_congr (hc e s hs) (ih (hstep e s hs))

def select (step : τ → σ → σ) (p : τ → σ → Prop) [∀ e s, Decidable (p e s)] : List τ → σ → List τ
  | [], _ => []
  | e :: es, s => if p e s then e :: select step p es (step e s) else select step p es (step e s)

/-- An invariant kept by every step whose condition holds is met in every
state of a run all of whose steps meet the condition. -/
theorem invariant_states {step : τ → σ → σ} {C : τ → σ → Prop} {I : σ → Prop}
    (hstep : ∀ e s, C e s → I s → I (step e s)) (es : List τ) {s : σ} (hs : I s)
    (hes : Steps step C es s) : ∀ t ∈ states step es s, I t := by
  induction es generalizing s with
  | nil => simpa [states] using hs
  | cons e es ih =>
      have ht := ih (hstep e s hes.1 hs) hes.2
      simpa [states] using And.intro hs ht

/-- A run satisfies `P` throughout exactly when its steps keep to `C`: such
steps preserve an invariant that implies `P`, any other step breaks `P`. -/
theorem forall_states_iff {step : τ → σ → σ} {C : τ → σ → Prop} {I P : σ → Prop}
    (himp : ∀ s, I s → P s) (hkeep : ∀ e s, I s → C e s → I (step e s))
    (hbreak : ∀ e s, I s → ¬ C e s → ¬ P (step e s)) (es : List τ) {s : σ} (hs : I s) :
    (∀ t ∈ states step es s, P t) ↔ Steps step C es s := by
  constructor
  · intro h
    induction es generalizing s with
    | nil => trivial
    | cons e es ih =>
        have ht : ∀ t ∈ states step es (step e s), P t := fun t ht => h t (List.mem_cons_of_mem _ ht)
        have hc : C e s := by
          by_contra hc
          exact hbreak e s hs hc (ht _ (mem_states_self step es _))
        exact ⟨hc, ih (hkeep e s hs hc) ht⟩
  · intro h t ht
    exact himp t (invariant_states (fun e s hc hi => hkeep e s hi hc) es hs h t ht)

end Runs

end RiscVContracts.Programs
