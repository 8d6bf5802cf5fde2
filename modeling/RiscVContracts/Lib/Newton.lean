import Mathlib.Data.Nat.Sqrt
import Mathlib.Tactic.Ring
import Mathlib.Tactic.Linarith

namespace RiscVContracts.Newton

/-- One step of the integer Newton iteration for the square root of `n`. -/
def next (n x : Nat) : Nat := (n / x + x) / 2

variable {n x : Nat}

/-- A step never falls below the root, wherever it starts. -/
theorem sqrt_le_next (hx : 0 < x) : n.sqrt ≤ next n x := by
  have hsq : n.sqrt * n.sqrt ≤ n := n.sqrt_le
  have hdiv : 2 * n.sqrt - x ≤ n / x := by
    rw [Nat.le_div_iff_mul_le hx]
    obtain h | h := Nat.le_total (2 * n.sqrt) x
    · simp [Nat.sub_eq_zero_of_le h]
    · obtain ⟨d, hd⟩ := Nat.exists_eq_add_of_le h
      rw [hd, Nat.add_sub_cancel_left]
      -- `d` and `x` add up to twice the root, so their product is at most its square
      have hamgm : d * x ≤ n.sqrt * n.sqrt := by
        zify at hd ⊢
        nlinarith [sq_nonneg ((d : Int) - x)]
      exact hamgm.trans hsq
  rw [next, Nat.le_div_iff_mul_le Nat.two_pos]
  omega

theorem le_sqrt_of_le_next (hx : 0 < x) (h : x ≤ next n x) : x ≤ n.sqrt := by
  rw [next, Nat.le_div_iff_mul_le Nat.two_pos] at h
  have hdiv : x ≤ n / x := by omega
  exact Nat.le_sqrt.mpr ((Nat.le_div_iff_mul_le hx).mp hdiv)

theorem sqrt_le_half_succ (n : Nat) : n.sqrt ≤ n / 2 + 1 := by
  have h : n.sqrt ≤ next n 1 := sqrt_le_next Nat.one_pos
  rw [next, Nat.div_one] at h
  omega

theorem div_add_le (h2 : 2 ≤ x) (hx : x ≤ n / 2 + 1) : n / x + x ≤ 2 * (n / 2) + 1 := by
  have h : n / x ≤ n / 2 := Nat.div_le_div_left h2 Nat.two_pos
  omega

end RiscVContracts.Newton
