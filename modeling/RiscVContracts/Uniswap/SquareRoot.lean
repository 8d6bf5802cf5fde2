import RiscVContracts.Lib.Newton
import RiscVContracts.Uniswap.Math

namespace RiscVContracts.SquareRoot

open Host Math Newton

/-- The values of `z` and `x` whenever `sqrt_u256` comes to the test of its loop. -/
inductive AtTest (y : U256) : U256 → U256 → Prop
  | enter (hy : 3 < y) : AtTest y y (y / 2 + 1)
  | round {z x : U256} (h : AtTest y z x) (hlt : x < z) : AtTest y x ((y / x + x) / 2)

variable {y z x : U256}

theorem toNat_half_succ (y : U256) : (y / 2 + 1).toNat = y.toNat / 2 + 1 := by
  have hy := y.isLt
  have h2 : (y / 2).toNat = y.toNat / 2 := BitVec.toNat_udiv
  have h1 : (1 : U256).toNat = 1 := rfl
  rw [BitVec.toNat_add_of_lt (by omega), h2, h1]

/-- No estimate falls below the root; the tested one is Newton's, or the first
of all, which is below the argument. -/
structure Estimates (y z x : U256) : Prop where
  large : 4 ≤ y.toNat
  current : y.toNat.sqrt ≤ z.toNat
  tested : y.toNat.sqrt ≤ x.toNat
  half : x.toNat ≤ y.toNat / 2 + 1
  newton : z ≤ x → x.toNat = next y.toNat z.toNat

namespace Estimates

variable (h : Estimates y z x)

include h

theorem two_le : 2 ≤ x.toNat := (Nat.le_sqrt.mpr h.large).trans h.tested

theorem two_le_current : 2 ≤ z.toNat := (Nat.le_sqrt.mpr h.large).trans h.current

theorem ne_zero : x ≠ 0 := by
  rintro rfl
  exact absurd h.two_le (by decide)

theorem sum_lt : (y / x).toNat + x.toNat < 2 ^ 256 := by
  have hsum : (y / x).toNat + x.toNat ≤ 2 * (y.toNat / 2) + 1 :=
    BitVec.toNat_udiv (x := y) ▸ div_add_le h.two_le h.half
  have hy := y.isLt
  omega

theorem toNat_next : ((y / x + x) / 2).toNat = next y.toNat x.toNat := by
  rw [BitVec.toNat_udiv, BitVec.toNat_add_of_lt h.sum_lt, BitVec.toNat_udiv]
  rfl

theorem stops (hle : z ≤ x) : z.toNat = y.toNat.sqrt := by
  have hz : 0 < z.toNat := Nat.zero_lt_of_lt h.two_le_current
  have hnext := h.newton hle
  exact Nat.le_antisymm (le_sqrt_of_le_next hz (hnext ▸ BitVec.le_def.mp hle)) h.current

theorem round : Estimates y x ((y / x + x) / 2) where
  large := h.large
  current := h.tested
  tested := by
    rw [h.toNat_next]
    exact sqrt_le_next (Nat.zero_lt_of_lt h.two_le)
  half := by
    have hsum := div_add_le h.two_le h.half
    rw [h.toNat_next, next]
    omega
  newton _ := h.toNat_next

end Estimates

theorem estimates_enter (hy : 3 < y) : Estimates y y (y / 2 + 1) where
  large := BitVec.lt_def.mp hy
  current := y.toNat.sqrt_le_self
  tested := by
    rw [toNat_half_succ]
    exact sqrt_le_half_succ _
  half := (toNat_half_succ y).le
  newton hle := by
    have h3 : 4 ≤ y.toNat := BitVec.lt_def.mp hy
    have hle := BitVec.le_def.mp hle
    rw [toNat_half_succ] at hle
    omega

theorem AtTest.estimates (h : AtTest y z x) : Estimates y z x := by
  induction h with
  | enter hy => exact estimates_enter hy
  | round _ _ ih => exact ih.round

/-- What is met at the tests are the loop's own variables: it goes on from
them to the result of the whole function. -/
theorem AtTest.sqrtU256_eq (h : AtTest y z x) : sqrtU256 y = sqrtLoop y z x := by
  induction h with
  | enter hy => rw [sqrtU256, if_pos hy]
  | round h hlt ih => rw [ih, sqrtLoop, if_pos hlt, if_neg h.estimates.ne_zero]

theorem sqrtLoop_eq (h : Estimates y z x) : ∃ r, sqrtLoop y z x = some r ∧ r.toNat = y.toNat.sqrt := by
  fun_induction sqrtLoop y z x with
  | case1 z _ => exact absurd rfl h.ne_zero
  | case2 z x _ _ ih => exact ih h.round
  | case3 z x hlt => exact ⟨z, rfl, h.stops (BitVec.not_lt.mp hlt)⟩

theorem sqrtU256_root (y : U256) : ∃ r, sqrtU256 y = some r ∧ r.toNat = y.toNat.sqrt := by
  unfold sqrtU256
  split
  · exact sqrtLoop_eq (estimates_enter ‹_›)
  · rename_i h3
    have hle : y.toNat ≤ 3 := BitVec.le_def.mp (BitVec.not_lt.mp h3)
    split
    · rename_i h0
      have hpos : y.toNat ≠ 0 := fun h => h0 (BitVec.eq_of_toNat_eq h)
      refine ⟨1, rfl, Nat.eq_sqrt.mpr ⟨?_, ?_⟩⟩
      · exact Nat.pos_of_ne_zero hpos
      · exact Nat.lt_succ_of_le hle
    · rename_i h0
      refine ⟨0, rfl, ?_⟩
      rw [not_not.mp h0]
      rfl

/-- `sqrt_u256` returns the integer root of every word, and none of the sums
and divisions on its way overflows or divides by zero. -/
theorem sqrt_correct (y : U256) :
    (∃ z, sqrtU256 y = some z ∧ z.toNat ^ 2 ≤ y.toNat ∧ y.toNat < (z.toNat + 1) ^ 2) ∧
      (y / 2).toNat + 1 < 2 ^ 256 ∧
      ∀ z x, AtTest y z x → sqrtU256 y = sqrtLoop y z x ∧
        (x < z → x ≠ 0 ∧ (y / x).toNat + x.toNat < 2 ^ 256) := by
  refine ⟨?_, ?_, fun z x h => ⟨h.sqrtU256_eq, fun _ => ⟨h.estimates.ne_zero, h.estimates.sum_lt⟩⟩⟩
  · obtain ⟨z, hz, hroot⟩ := sqrtU256_root y
    exact ⟨z, hz, hroot ▸ y.toNat.sqrt_le', hroot ▸ y.toNat.lt_succ_sqrt'⟩
  · have hy := y.isLt
    have h2 : (y / 2).toNat = y.toNat / 2 := BitVec.toNat_udiv
    omega

end RiscVContracts.SquareRoot
