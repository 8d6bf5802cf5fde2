import Mathlib.Algebra.BigOperators.Group.Finset.Basic
import Mathlib.Algebra.Order.BigOperators.Group.Finset
import Mathlib.Data.BitVec

namespace RiscVContracts.Checked

inductive Panic
  | overflow
  | divisionByZero
  | index
  | memory
  deriving DecidableEq, Repr

section Arithmetic

variable {w : Nat}

def add (a b : BitVec w) : Except Panic (BitVec w) :=
  if a.toNat + b.toNat < 2 ^ w then pure (a + b) else throw .overflow

def mul (a b : BitVec w) : Except Panic (BitVec w) :=
  if a.toNat * b.toNat < 2 ^ w then pure (a * b) else throw .overflow

def div (a b : BitVec w) : Except Panic (BitVec w) :=
  if b = 0 then throw .divisionByZero else pure (a / b)

def mod (a b : BitVec w) : Except Panic (BitVec w) :=
  if b = 0 then throw .divisionByZero else pure (a % b)

/-- The word of a number that has one. -/
def fits (w n : Nat) : Except Panic (BitVec w) :=
  if n < 2 ^ w then pure (BitVec.ofNat w n) else throw .overflow

theorem add_eq (a b : BitVec w) : add a b = fits w (a.toNat + b.toNat) := by
  rw [add, fits, BitVec.ofNat_add, BitVec.ofNat_toNat, BitVec.ofNat_toNat, BitVec.setWidth_eq,
    BitVec.setWidth_eq]

theorem mul_eq (a b : BitVec w) : mul a b = fits w (a.toNat * b.toNat) := by
  rw [mul, fits, BitVec.ofNat_mul, BitVec.ofNat_toNat, BitVec.ofNat_toNat, BitVec.setWidth_eq,
    BitVec.setWidth_eq]

theorem fits_of_lt {n : Nat} (h : n < 2 ^ w) : fits w n = .ok (BitVec.ofNat w n) := if_pos h

theorem fits_of_le {n : Nat} (h : 2 ^ w ≤ n) : fits w n = .error .overflow := if_neg (Nat.not_lt.mpr h)

/-- A step that adds `d` to a word, and panics when the sum has no word. -/
def Adds (step : BitVec w → Except Panic (BitVec w)) (d : Nat) : Prop := ∀ s, step s = fits w (s.toNat + d)

variable {f g : BitVec w → Except Panic (BitVec w)} {d e : Nat}

theorem adds_pure : Adds (fun s : BitVec w => pure s) 0 := by
  intro s
  rw [Nat.add_zero, fits_of_lt s.isLt, BitVec.ofNat_toNat, BitVec.setWidth_eq]
  rfl

theorem adds_add (x : BitVec w) : Adds (fun s => add s x) x.toNat := fun s => add_eq s x

theorem Adds.start (hf : Adds f d) : f 0 = fits w d := by
  have h0 : (0 : BitVec w).toNat = 0 := Nat.zero_mod _
  rw [hf 0, h0, Nat.zero_add]

theorem Adds.bind (hf : Adds f d) (hg : Adds g e) : Adds (fun s => f s >>= g) (d + e) := by
  intro s
  dsimp only
  rw [hf s, ← Nat.add_assoc]
  by_cases h : s.toNat + d < 2 ^ w
  · rw [fits_of_lt h]
    change g (BitVec.ofNat w (s.toNat + d)) = _
    rw [hg, BitVec.toNat_ofNat, Nat.mod_eq_of_lt h]
  · have hle := Nat.not_lt.mp h
    rw [fits_of_le hle, fits_of_le (hle.trans (Nat.le_add_right _ e))]
    rfl

theorem adds_fits (n : Nat) : Adds (fun s : BitVec w => fits w n >>= add s) n := by
  intro s
  dsimp only
  by_cases h : n < 2 ^ w
  · rw [fits_of_lt h]
    change add s (BitVec.ofNat w n) = _
    rw [add_eq, BitVec.toNat_ofNat, Nat.mod_eq_of_lt h]
  · have hle := Nat.not_lt.mp h
    rw [fits_of_le hle, fits_of_le (hle.trans (Nat.le_add_left ..))]
    rfl

theorem fits_bind_error {n : Nat} {σ : Type} :
    (fits w n >>= fun _ => (.error .overflow : Except Panic σ)) = .error .overflow := by
  by_cases h : n < 2 ^ w
  · rw [fits_of_lt h]
    rfl
  · rw [fits_of_le (Nat.not_lt.mp h)]
    rfl

theorem Adds.foldlM {step : Nat → BitVec w → Except Panic (BitVec w)} {d : Nat → Nat} {i m : Nat}
    (h : ∀ k, i ≤ k → k < i + m → Adds (step k) (d k)) :
    Adds (fun s => (List.range' i m).foldlM (fun s k => step k s) s) (∑ k ∈ Finset.range m, d (i + k)) := by
  induction m with
  | zero => exact adds_pure
  | succ m ih =>
      have hlast := h (i + m) (Nat.le_add_right ..) (by omega)
      rw [Finset.sum_range_succ, List.range'_1_concat]
      simp only [List.foldlM_append, List.foldlM_cons, List.foldlM_nil, bind_pure]
      exact (ih fun k hi hk => h k hi (by omega)).bind hlast

end Arithmetic

section Loops

variable {w : Nat} {σ : Type} (cond : BitVec w → Bool) (body : BitVec w → σ → Except Panic σ)

/-- At most `fuel` rounds of `for (; cond i; i++) body`. -/
def forFrom : Nat → BitVec w → σ → Except Panic σ
  | 0, _, s => pure s
  | fuel + 1, i, s =>
    if cond i then do
      let s ← body i s
      let i ← add i 1
      forFrom fuel i s
    else pure s

/-- `for (i = start; cond i; i++) body`: the counter cannot go round. -/
def forLoop (start : BitVec w) (s : σ) : Except Panic σ := forFrom cond body (2 ^ w) start s

variable {cond body} {i m fuel : Nat}

theorem forFrom_succ (hi : i + 1 < 2 ^ w) (hc : cond (BitVec.ofNat w i) = true) (s : σ) :
    forFrom cond body (fuel + 1) (BitVec.ofNat w i) s =
      body (BitVec.ofNat w i) s >>= fun s => forFrom cond body fuel (BitVec.ofNat w (i + 1)) s := by
  have hone : 1 < 2 ^ w := by omega
  have hw : (1 : BitVec w).toNat = 1 := Nat.mod_eq_of_lt hone
  have hnext : add (BitVec.ofNat w i) 1 = .ok (BitVec.ofNat w (i + 1)) := by
    rw [add_eq, BitVec.toNat_ofNat, Nat.mod_eq_of_lt (by omega), hw, fits_of_lt hi]
  rw [forFrom, if_pos hc, hnext]
  rfl

theorem forFrom_add (hc : ∀ k, i ≤ k → k < i + m → cond (BitVec.ofNat w k) = true) (hi : i + m < 2 ^ w)
    (s : σ) : forFrom cond body (m + fuel) (BitVec.ofNat w i) s =
      (List.range' i m).foldlM (fun s k => body (BitVec.ofNat w k) s) s >>= fun s =>
        forFrom cond body fuel (BitVec.ofNat w (i + m)) s := by
  induction m generalizing i s with
  | zero =>
      rw [Nat.zero_add]
      rfl
  | succ m ih =>
      rw [Nat.add_right_comm, forFrom_succ (by omega) (hc i le_rfl (by omega)), List.range'_succ,
        List.foldlM_cons, bind_assoc]
      refine bind_congr fun t => ?_
      rw [ih (fun k hk hlt => hc k (by omega) (by omega)) (by omega), Nat.add_right_comm, Nat.add_assoc]

/-- The rounds of a loop from what it has come to before each of them. -/
theorem foldlM_rounds {step : σ → Nat → Except Panic σ} (g : Nat → Except Panic σ) {s : σ} (hs : g 0 = .ok s)
    (h : ∀ k < m, (g k >>= fun s => step s k) = g (k + 1)) : (List.range' 0 m).foldlM step s = g m := by
  induction m with
  | zero => exact hs.symm
  | succ m ih =>
      have hlast := h m (Nat.lt_succ_self m)
      rw [List.range'_1_concat, List.foldlM_append, ih fun k hk => h k (Nat.lt_succ_of_lt hk), Nat.zero_add,
        ← hlast]
      simp only [List.foldlM_cons, List.foldlM_nil, bind_pure]

theorem forLoop_eq (hc : ∀ k, i ≤ k → k < i + m → cond (BitVec.ofNat w k) = true)
    (hstop : cond (BitVec.ofNat w (i + m)) = false) (hi : i + m < 2 ^ w) (s : σ) :
    forLoop cond body (BitVec.ofNat w i) s =
      (List.range' i m).foldlM (fun s k => body (BitVec.ofNat w k) s) s := by
  obtain ⟨fuel, hfuel⟩ := Nat.exists_eq_add_of_lt (show m < 2 ^ w by omega)
  rw [forLoop, hfuel, Nat.add_assoc, forFrom_add hc hi]
  conv_rhs => rw [← bind_pure ((List.range' i m).foldlM _ s)]
  refine bind_congr fun t => ?_
  rw [forFrom, if_neg (by rw [hstop]; decide)]

theorem forLoop_panics (hc : ∀ k, i ≤ k → k ≤ i + m → cond (BitVec.ofNat w k) = true) (hi : i + m < 2 ^ w)
    {e : Panic} (he : ∀ s, body (BitVec.ofNat w (i + m)) s = .error e) {s t : σ}
    (hs : (List.range' i m).foldlM (fun s k => body (BitVec.ofNat w k) s) s = .ok t) :
    forLoop cond body (BitVec.ofNat w i) s = .error e := by
  obtain ⟨fuel, hfuel⟩ := Nat.exists_eq_add_of_lt (show m < 2 ^ w by omega)
  rw [forLoop, hfuel, Nat.add_assoc, forFrom_add (fun k hk hlt => hc k hk hlt.le) hi, hs]
  change forFrom cond body (fuel + 1) _ t = _
  rw [forFrom, if_pos (hc _ (Nat.le_add_right ..) le_rfl), he]
  rfl

theorem forLoop_below (body : BitVec w → σ → Except Panic σ) (n : BitVec w) (s : σ) :
    forLoop (fun i => i < n) body 0 s =
      (List.range' 0 n.toNat).foldlM (fun s k => body (BitVec.ofNat w k) s) s := by
  have hlt (k : Nat) (hk : k < 2 ^ w) : (decide (BitVec.ofNat w k < n) = true) ↔ k < n.toNat := by
    rw [decide_eq_true_iff, BitVec.lt_def, BitVec.toNat_ofNat, Nat.mod_eq_of_lt hk]
  have hn := n.isLt
  refine forLoop_eq (i := 0) (m := n.toNat) ?_ ?_ ?_ s
  · intro k _ hk
    exact (hlt k (by omega)).mpr (by omega)
  · rw [Nat.zero_add]
    exact Bool.eq_false_iff.mpr (mt (hlt _ hn).mp (lt_irrefl _))
  · omega

theorem adds_forLoop {body : BitVec w → BitVec w → Except Panic (BitVec w)} {d : Nat → Nat} (n : BitVec w)
    (h : ∀ k < n.toNat, Adds (body (BitVec.ofNat w k)) (d k)) :
    Adds (forLoop (fun i => i < n) body 0) (∑ k ∈ Finset.range n.toNat, d k) := by
  intro s
  rw [forLoop_below]
  have hsum : Adds _ _ := Adds.foldlM (i := 0) (m := n.toNat) fun k _ hk => h k (by omega)
  simpa only [Nat.zero_add] using hsum s

end Loops

end RiscVContracts.Checked
