import Mathlib.Tactic.Ring
import Mathlib.Tactic.GCongr
import Mathlib.Tactic.Linarith
import Mathlib.Algebra.Order.Ring.Nat

namespace RiscVContracts.Market

variable {kept fee : Nat}

/-- A balance that was `r` and is now `b`, with `fee` parts in `kept + fee`
taken off what came in; it is given in those parts. -/
def weigh (kept fee r b : Nat) : Nat := kept * b + fee * min b r

/-- An exchange that a constant-product market with that fee accepts: the
product of the weighed balances is no less than the product there was. -/
def Admits (kept fee r0 r1 b0 b1 : Nat) : Prop :=
  (kept + fee) ^ 2 * (r0 * r1) ≤ weigh kept fee r0 b0 * weigh kept fee r1 b1

section Weigh

variable {r b c : Nat}

theorem weigh_le (kept fee r b : Nat) : weigh kept fee r b ≤ (kept + fee) * b := by
  rw [weigh, Nat.add_mul]
  exact Nat.add_le_add_left (Nat.mul_le_mul_left _ (Nat.min_le_left ..)) _

theorem le_weigh (h : r ≤ b) : (kept + fee) * r ≤ weigh kept fee r b := by
  rw [weigh, Nat.min_eq_right h, Nat.add_mul]
  exact Nat.add_le_add_right (Nat.mul_le_mul_left _ h) _

theorem weigh_grown (kept fee : Nat) (h : r ≤ b) :
    weigh kept fee r b = (kept + fee) * r + kept * (b - r) := by
  obtain ⟨d, rfl⟩ := Nat.exists_eq_add_of_le h
  rw [weigh, Nat.min_eq_right h, Nat.add_sub_cancel_left]
  ring

theorem weigh_fallen (kept fee : Nat) (h : b ≤ r) : weigh kept fee r b = (kept + fee) * b := by
  rw [weigh, Nat.min_eq_left h, Nat.add_mul]

theorem mul_min_add_mul_min_le (r b c : Nat) : b * min c b + c * min b r ≤ b * min c r + b * c := by
  rcases Nat.le_total c r with hc | hc
  · rw [Nat.min_eq_left hc]
    have h0 := Nat.mul_le_mul_left b (Nat.min_le_left c b)
    have h1 := Nat.mul_le_mul_left c (Nat.min_le_left b r)
    rw [Nat.mul_comm c b] at h1
    omega
  · rw [Nat.min_eq_right hc]
    rcases Nat.le_total b r with hb | hb
    · rw [Nat.min_eq_left hb, Nat.min_eq_right (hb.trans hc), Nat.mul_comm c b]
      exact Nat.add_le_add_right (Nat.mul_le_mul_left _ hb) _
    · rw [Nat.min_eq_right hb]
      rcases Nat.le_total c b with hcb | hcb
      · rw [Nat.min_eq_left hcb, Nat.add_comm (b * r)]
        exact Nat.add_le_add_left (Nat.mul_le_mul_right _ hcb) _
      · rw [Nat.min_eq_right hcb]
        obtain ⟨x, rfl⟩ := Nat.exists_eq_add_of_le hb
        obtain ⟨y, rfl⟩ := Nat.exists_eq_add_of_le hcb
        calc (r + x) * (r + x) + (r + x + y) * r
            ≤ (r + x) * (r + x) + (r + x + y) * r + x * y := Nat.le_add_right ..
          _ = (r + x) * r + (r + x) * (r + x + y) := by ring

theorem min_mul_min_le (r b c : Nat) : min b r * min c b ≤ b * min c r := by
  rcases Nat.le_total c r with hc | hc
  · rw [Nat.min_eq_left hc]
    exact Nat.mul_le_mul (Nat.min_le_left ..) (Nat.min_le_left ..)
  · rw [Nat.min_eq_right hc, Nat.mul_comm b r]
    exact Nat.mul_le_mul (Nat.min_le_right ..) (Nat.min_le_right ..)

/-- Fees taken at two stages leave no more than one fee on the whole way. -/
theorem weigh_mul_weigh_le (kept fee r b c : Nat) :
    weigh kept fee r b * weigh kept fee b c ≤ (kept + fee) * b * weigh kept fee r c := by
  have hmixed := Nat.mul_le_mul_left (kept * fee) (mul_min_add_mul_min_le r b c)
  have hboth := Nat.mul_le_mul_left (fee * fee) (min_mul_min_le r b c)
  calc weigh kept fee r b * weigh kept fee b c
      = kept * kept * (b * c) + kept * fee * (b * min c b + c * min b r) +
          fee * fee * (min b r * min c b) := by unfold weigh; ring
    _ ≤ kept * kept * (b * c) + kept * fee * (b * min c r + b * c) + fee * fee * (b * min c r) := by
        omega
    _ = (kept + fee) * b * weigh kept fee r c := by unfold weigh; ring

theorem weigh_mul_le {r' : Nat} (h : r ≤ r') : weigh kept fee r' b * r ≤ weigh kept fee r b * r' := by
  have hmin : min b r' * r ≤ min b r * r' := by
    rcases Nat.le_total b r with hb | hb
    · rw [Nat.min_eq_left hb, Nat.min_eq_left (hb.trans h)]
      exact Nat.mul_le_mul_left _ h
    · rw [Nat.min_eq_right hb, Nat.mul_comm r r']
      exact Nat.mul_le_mul_right _ (Nat.min_le_right ..)
  calc weigh kept fee r' b * r = kept * b * r + fee * (min b r' * r) := by unfold weigh; ring
    _ ≤ kept * b * r' + fee * (min b r * r') :=
        Nat.add_le_add (Nat.mul_le_mul_left _ h) (Nat.mul_le_mul_left _ hmin)
    _ = weigh kept fee r b * r' := by unfold weigh; ring

end Weigh

section Admits

variable {r0 r1 b0 b1 c0 c1 : Nat}

theorem Admits.of_le (h0 : r0 ≤ b0) (h1 : r1 ≤ b1) : Admits kept fee r0 r1 b0 b1 := by
  calc (kept + fee) ^ 2 * (r0 * r1) = (kept + fee) * r0 * ((kept + fee) * r1) := by ring
    _ ≤ weigh kept fee r0 b0 * weigh kept fee r1 b1 := Nat.mul_le_mul (le_weigh h0) (le_weigh h1)

theorem Admits.swap (h : Admits kept fee r0 r1 b0 b1) : Admits kept fee r1 r0 b1 b0 := by
  rw [Admits, Nat.mul_comm r1, Nat.mul_comm (weigh kept fee r1 b1)]
  exact h

variable (hpos : 0 < kept + fee)

include hpos

/-- An accepted exchange never lowers the product. -/
theorem Admits.product_le (h : Admits kept fee r0 r1 b0 b1) : r0 * r1 ≤ b0 * b1 := by
  apply Nat.le_of_mul_le_mul_left _ (Nat.pow_pos (n := 2) hpos)
  calc (kept + fee) ^ 2 * (r0 * r1) ≤ weigh kept fee r0 b0 * weigh kept fee r1 b1 := h
    _ ≤ (kept + fee) * b0 * ((kept + fee) * b1) := Nat.mul_le_mul (weigh_le ..) (weigh_le ..)
    _ = (kept + fee) ^ 2 * (b0 * b1) := by ring

/-- Two exchanges, one after the other, come to an exchange the market accepts at once. -/
theorem Admits.trans (h : Admits kept fee r0 r1 b0 b1) (h' : Admits kept fee b0 b1 c0 c1) :
    Admits kept fee r0 r1 c0 c1 := by
  obtain hr | hr := Nat.eq_zero_or_pos (r0 * r1)
  · rw [Admits, hr, Nat.mul_zero]
    exact Nat.zero_le _
  have hb : 0 < (kept + fee) ^ 2 * (b0 * b1) :=
    Nat.mul_pos (Nat.pow_pos hpos) (hr.trans_le (h.product_le hpos))
  apply Nat.le_of_mul_le_mul_right _ hb
  calc (kept + fee) ^ 2 * (r0 * r1) * ((kept + fee) ^ 2 * (b0 * b1))
      ≤ weigh kept fee r0 b0 * weigh kept fee r1 b1 *
          (weigh kept fee b0 c0 * weigh kept fee b1 c1) := Nat.mul_le_mul h h'
    _ = weigh kept fee r0 b0 * weigh kept fee b0 c0 *
          (weigh kept fee r1 b1 * weigh kept fee b1 c1) := by ring
    _ ≤ (kept + fee) * b0 * weigh kept fee r0 c0 * ((kept + fee) * b1 * weigh kept fee r1 c1) :=
        Nat.mul_le_mul (weigh_mul_weigh_le ..) (weigh_mul_weigh_le ..)
    _ = weigh kept fee r0 c0 * weigh kept fee r1 c1 * ((kept + fee) ^ 2 * (b0 * b1)) := by ring

omit hpos in
theorem Admits.of_larger {r1' : Nat} (hr : r1 ≤ r1') (h : Admits kept fee r0 r1' b0 b1) :
    Admits kept fee r0 r1 b0 b1 := by
  obtain h0 | hpos := Nat.eq_zero_or_pos r1'
  · obtain rfl : r1 = r1' := by omega
    exact h
  apply Nat.le_of_mul_le_mul_right _ hpos
  calc (kept + fee) ^ 2 * (r0 * r1) * r1' = (kept + fee) ^ 2 * (r0 * r1') * r1 := by ring
    _ ≤ weigh kept fee r0 b0 * weigh kept fee r1' b1 * r1 := Nat.mul_le_mul_right _ h
    _ = weigh kept fee r0 b0 * (weigh kept fee r1' b1 * r1) := by ring
    _ ≤ weigh kept fee r0 b0 * (weigh kept fee r1 b1 * r1') := Nat.mul_le_mul_left _ (weigh_mul_le hr)
    _ = weigh kept fee r0 b0 * weigh kept fee r1 b1 * r1' := by ring

theorem Admits.paid_le (h : Admits kept fee r0 r1 b0 b1) (hr : 0 < r0) (hin : r0 ≤ b0) :
    r1 - b1 ≤ kept * (b0 - r0) * r1 / ((kept + fee) * r0 + kept * (b0 - r0)) := by
  have hd : 0 < (kept + fee) * r0 + kept * (b0 - r0) :=
    Nat.add_pos_left (Nat.mul_pos hpos hr) _
  rw [Nat.le_div_iff_mul_le hd]
  obtain hle | hlt := le_or_gt r1 b1
  · rw [Nat.sub_eq_zero_of_le hle, Nat.zero_mul]
    exact Nat.zero_le _
  rw [Admits, weigh_grown kept fee hin, weigh_fallen kept fee hlt.le] at h
  have hk : (kept + fee) * r0 * r1 ≤ ((kept + fee) * r0 + kept * (b0 - r0)) * b1 := by
    apply Nat.le_of_mul_le_mul_left _ hpos
    calc (kept + fee) * ((kept + fee) * r0 * r1) = (kept + fee) ^ 2 * (r0 * r1) := by ring
      _ ≤ ((kept + fee) * r0 + kept * (b0 - r0)) * ((kept + fee) * b1) := h
      _ = (kept + fee) * (((kept + fee) * r0 + kept * (b0 - r0)) * b1) := by ring
  obtain ⟨d, rfl⟩ := Nat.exists_eq_add_of_lt hlt
  generalize kept * (b0 - r0) = x at hk ⊢
  generalize (kept + fee) * r0 = y at hk ⊢
  have hsub : b1 + d + 1 - b1 = d + 1 := by omega
  rw [hsub]
  have e1 : y * (b1 + d + 1) = y * b1 + (d + 1) * y := by ring
  have e2 : (y + x) * b1 = y * b1 + x * b1 := by ring
  calc (d + 1) * (y + x) = (d + 1) * y + (d + 1) * x := by ring
    _ ≤ x * b1 + (d + 1) * x := by omega
    _ = x * (b1 + d + 1) := by ring

end Admits

end RiscVContracts.Market
