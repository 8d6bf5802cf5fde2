import RiscVContracts.Lib.Programs

namespace RiscVContracts.Loops

open Programs

variable {ε σ ρ ω τ : Type}

/-- A loop that runs its body until that breaks with a result, or for the
given number of rounds. -/
def loop (body : EStateM ε σ (Option ρ)) : Nat → EStateM ε σ (Option ρ)
  | 0 => pure none
  | n + 1 => do
    match ← body with
    | some r => return some r
    | none => loop body n

variable {body : EStateM ε σ (Option ρ)} {s t : σ} {o : Option ρ} {r : ρ} {n : Nat}

theorem loop_succ_ok : loop body (n + 1) s = .ok o t ↔
    (∃ r, o = some r ∧ body s = .ok (some r) t) ∨ ∃ u, body s = .ok none u ∧ loop body n u = .ok o t := by
  rw [loop, bind_ok]
  constructor
  · rintro ⟨_ | r, u, hb, hl⟩
    · exact .inr ⟨u, hb, hl⟩
    · obtain ⟨rfl, rfl⟩ := pure_ok.mp hl
      exact .inl ⟨r, rfl, hb⟩
  · rintro (⟨r, rfl, hb⟩ | ⟨u, hb, hl⟩)
    · exact ⟨some r, t, hb, pure_ok.mpr ⟨rfl, rfl⟩⟩
    · exact ⟨none, u, hb, hl⟩

theorem loop_mono (k : Nat) (h : loop body n s = .ok (some r) t) :
    loop body (n + k) s = .ok (some r) t := by
  induction n generalizing s with
  | zero => cases h
  | succ n ih =>
      rw [Nat.add_right_comm, loop_succ_ok]
      obtain ⟨r', hr, hb⟩ | ⟨u, hb, hl⟩ := loop_succ_ok.mp h
      · exact .inl ⟨r', hr, hb⟩
      · exact .inr ⟨u, hb, ih hl⟩

theorem loop_add (h : loop body n s = .ok none t) (k : Nat) :
    loop body (n + k) s = loop body k t := by
  induction n generalizing s with
  | zero =>
      obtain ⟨-, rfl⟩ := pure_ok.mp h
      rw [Nat.zero_add]
  | succ n ih =>
      obtain ⟨r, hr, -⟩ | ⟨u, hb, hl⟩ := loop_succ_ok.mp h
      · cases hr
      · rw [Nat.add_right_comm, loop, bind_of_ok hb]
        exact ih hl

/-- What the rounds of a loop emit, each in the state it starts from. -/
def emitted (body : EStateM ε σ (Option ρ)) (emit : σ → List ω) : Nat → σ → List ω
  | 0, _ => []
  | n + 1, s => emit s ++ match body s with
    | .ok none t => emitted body emit n t
    | _ => []

theorem view_loop {emit : σ → List ω} (view : σ → τ) (apply : τ → ω → τ)
    (hbody : ∀ s o t, body s = .ok o t → view t = (emit s).foldl apply (view s))
    (h : loop body n s = .ok o t) : view t = (emitted body emit n s).foldl apply (view s) := by
  induction n generalizing s with
  | zero =>
      obtain ⟨-, rfl⟩ := pure_ok.mp h
      rfl
  | succ n ih =>
      rw [emitted, List.foldl_append]
      obtain ⟨r, -, hb⟩ | ⟨u, hb, hl⟩ := loop_succ_ok.mp h
      · rw [hb, hbody s _ t hb]
        rfl
      · rw [hb, ← hbody s none u hb]
        exact ih hl

end RiscVContracts.Loops
