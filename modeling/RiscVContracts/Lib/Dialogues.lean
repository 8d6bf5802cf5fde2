import RiscVContracts.Lib.Loops

namespace RiscVContracts.Dialogues

open Loops

/-- A computation that puts queries to a host, and goes on with its answers to a result. -/
inductive Dialogue (Q A R : Type)
  | done (result : R)
  | ask (query : Q) (next : A → Dialogue Q A R)

variable {Q A R σ : Type}

section Meaning

variable (answer : Q → σ → A × σ)

def Dialogue.eval : Dialogue Q A R → σ → R × σ
  | .done result, s => (result, s)
  | .ask query next, s => (next (answer query s).1).eval (answer query s).2

def Dialogue.visits : Dialogue Q A R → σ → List σ
  | .done _, s => [s]
  | .ask query next, s => s :: (next (answer query s).1).visits (answer query s).2

variable {τ : Type} (asks : Q → A → τ → τ → Prop) (ends stops : R → τ → Prop)

/-- A player goes through a dialogue to its end, or stops on the way with a result of its own. -/
inductive Dialogue.Plays : Dialogue Q A R → σ → τ → R → σ → Prop
  | stop {d : Dialogue Q A R} {s : σ} {t : τ} {r : R} : stops r t → Plays d s t r s
  | done {s : σ} {t : τ} {r : R} : ends r t → Plays (.done r) s t r s
  | ask {query : Q} {next : A → Dialogue Q A R} {s s' : σ} {t u : τ} {r : R} :
    asks query (answer query s).1 t u →
    Plays (next (answer query s).1) (answer query s).2 u r s' → Plays (.ask query next) s t r s'

end Meaning

variable {answer : Q → σ → A × σ} {τ : Type} {asks : Q → A → τ → τ → Prop} {ends stops : R → τ → Prop}
  {d : Dialogue Q A R} {s s' : σ} {t : τ} {r : R}

/-- A player that did not stop comes to the result of the dialogue. -/
theorem Dialogue.Plays.eval_or_stops (h : d.Plays answer asks ends stops s t r s') :
    (r, s') = d.eval answer s ∨ ((∃ u, stops r u) ∧ s' ∈ d.visits answer s) := by
  induction h with
  | @stop d s t r hstop =>
      refine .inr ⟨⟨t, hstop⟩, ?_⟩
      cases d <;> exact List.mem_cons_self
  | done _ => exact .inl rfl
  | ask _ _ ih => exact ih.imp id fun ⟨hstop, hmem⟩ => ⟨hstop, List.mem_cons_of_mem _ hmem⟩

/-- A loop whose rounds serve the queries of a player ends with its result. -/
theorem Dialogue.Plays.loops {ε μ ρ : Type} {body : EStateM ε μ (Option ρ)} (embed : τ → σ → μ) (g : R → ρ)
    (hask : ∀ query s t u, asks query (answer query s).1 t u →
      ∃ n, loop body n (embed t s) = .ok none (embed u (answer query s).2))
    (hend : ∀ r s t, ends r t ∨ stops r t → ∃ n u, loop body n (embed t s) = .ok (some (g r)) (embed u s))
    (h : d.Plays answer asks ends stops s t r s') :
    ∃ n u, loop body n (embed t s) = .ok (some (g r)) (embed u s') := by
  induction h with
  | stop hstop => exact hend _ _ _ (.inr hstop)
  | done hdone => exact hend _ _ _ (.inl hdone)
  | ask hq _ ih =>
      obtain ⟨m, hm⟩ := hask _ _ _ _ hq
      obtain ⟨n, u, hn⟩ := ih
      exact ⟨m + n, u, (loop_add hm n).trans hn⟩

end RiscVContracts.Dialogues
