import Mathlib.Tactic.Ring
import Mathlib.Tactic.GCongr
import Mathlib.Tactic.Linarith
import Mathlib.Algebra.Order.Ring.Nat

namespace RiscVContracts.Shares

/-- A pot of `a` units under `s` shares is worth no less a share as a pot of
`a'` units under `s'` shares: `a / s ≤ a' / s'` without the divisions. -/
def NotDiluted (a s a' s' : Nat) : Prop := a * s' ≤ a' * s

variable {a a' a'' b b' s s' s'' x y : Nat}

theorem NotDiluted.of_le (h : a ≤ a') : NotDiluted a s a' s := Nat.mul_le_mul_right s h

theorem NotDiluted.trans (hs : 0 < s') (h : NotDiluted a s a' s') (h' : NotDiluted a' s' a'' s'') :
    NotDiluted a s a'' s'' := by
  apply Nat.le_of_mul_le_mul_right _ hs
  calc a * s'' * s' = a * s' * s'' := by ring
    _ ≤ a' * s * s'' := Nat.mul_le_mul_right _ h
    _ = a' * s'' * s := by ring
    _ ≤ a'' * s' * s := Nat.mul_le_mul_right _ h'
    _ = a'' * s * s' := by ring

theorem NotDiluted.deposit (ha : a ≤ a') (h : x * a ≤ (a' - a) * s) : NotDiluted a s a' (s + x) := by
  obtain ⟨d, rfl⟩ := Nat.exists_eq_add_of_le ha
  rw [Nat.add_sub_cancel_left] at h
  calc a * (s + x) = a * s + x * a := by ring
    _ ≤ a * s + d * s := Nat.add_le_add_left h _
    _ = (a + d) * s := by ring

theorem NotDiluted.withdraw (h : a - x * a / s ≤ a') : NotDiluted a s a' (s - x) := by
  have hpaid : x * a / s * s ≤ x * a := Nat.div_mul_le_self _ _
  calc a * (s - x) = a * s - x * a := by rw [Nat.mul_sub, Nat.mul_comm a x]
    _ ≤ a * s - x * a / s * s := Nat.sub_le_sub_left hpaid _
    _ = (a - x * a / s) * s := by rw [Nat.sub_mul]
    _ ≤ a' * s := Nat.mul_le_mul_right _ h

theorem NotDiluted.mul (h : NotDiluted a s a' s') (h' : NotDiluted b s b' s') :
    a * b * s' ^ 2 ≤ a' * b' * s ^ 2 := by
  calc a * b * s' ^ 2 = (a * s') * (b * s') := by ring
    _ ≤ (a' * s) * (b' * s) := Nat.mul_le_mul h h'
    _ = a' * b' * s ^ 2 := by ring

theorem part_le_deposit (h : x * a ≤ b * s) : x * (a + b) / (s + x) ≤ b := by
  apply Nat.div_le_of_le_mul
  calc x * (a + b) = x * a + x * b := Nat.mul_add ..
    _ ≤ b * s + x * b := Nat.add_le_add_right h _
    _ = (s + x) * b := by ring

/-- Giving up shares in two steps pays no more than at once: what the first
step rounds off stays in the pot, and the second step gets no more than its part of that. -/
theorem split_withdraw (h : x + y ≤ s) :
    x * a / s + y * (a - x * a / s) / (s - x) ≤ (x + y) * a / s := by
  obtain rfl | hs := Nat.eq_zero_or_pos s
  · simp
  obtain hd | hd := Nat.eq_zero_or_pos (s - x)
  · have hy : y = 0 := by omega
    simp [hy]
  rw [Nat.le_div_iff_mul_le hs]
  have hp : x * a / s * s ≤ x * a := Nat.div_mul_le_self _ _
  have hq : y * (a - x * a / s) / (s - x) * (s - x) ≤ y * (a - x * a / s) := Nat.div_mul_le_self _ _
  have hpa : x * a / s ≤ a := Nat.div_le_of_le_mul (Nat.mul_le_mul_right a (by omega))
  generalize y * (a - x * a / s) / (s - x) = q at hq ⊢
  generalize x * a / s = p at hp hq hpa ⊢
  obtain ⟨d, rfl⟩ := Nat.exists_eq_add_of_le (show x ≤ s by omega)
  rw [Nat.add_sub_cancel_left] at hq hd
  have hyd : y ≤ d := by omega
  apply Nat.le_of_mul_le_mul_left _ hd
  zify [hpa] at hp hq hyd ⊢
  have hrest : 0 ≤ ((d : Int) - y) * (x * a - p * (x + d)) :=
    mul_nonneg (sub_nonneg.mpr hyd) (sub_nonneg.mpr hp)
  calc (d : Int) * ((p + q) * (x + d)) = d * p * (x + d) + (x + d) * (q * d) := by ring
    _ ≤ d * p * (x + d) + (x + d) * (y * (a - p)) := by gcongr
    _ = d * ((x + y) * a) - (d - y) * (x * a - p * (x + d)) := by ring
    _ ≤ d * ((x + y) * a) := by linarith

theorem parts_worth (hs : 0 < s) (h : y ≤ x) :
    y ^ 2 * (a * b) ≤ (x * a / s + 1) * (x * b / s + 1) * s ^ 2 := by
  have hpart (c : Nat) : y * c ≤ (x * c / s + 1) * s := by
    have hlt : x * c < s * (x * c / s + 1) := Nat.lt_mul_div_succ _ hs
    calc y * c ≤ x * c := Nat.mul_le_mul_right _ h
      _ ≤ s * (x * c / s + 1) := hlt.le
      _ = (x * c / s + 1) * s := Nat.mul_comm ..
  calc y ^ 2 * (a * b) = (y * a) * (y * b) := by ring
    _ ≤ ((x * a / s + 1) * s) * ((x * b / s + 1) * s) := Nat.mul_le_mul (hpart a) (hpart b)
    _ = (x * a / s + 1) * (x * b / s + 1) * s ^ 2 := by ring

end RiscVContracts.Shares
