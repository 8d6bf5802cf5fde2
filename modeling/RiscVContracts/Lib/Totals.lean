import Mathlib.Algebra.BigOperators.Group.Finset.Basic
import Mathlib.Algebra.Order.BigOperators.Group.Finset
import Mathlib.Algebra.Order.Group.Nat
import Mathlib.Algebra.BigOperators.Fin
import Mathlib.Tactic.Common

namespace RiscVContracts.Totals

section Words

variable {n : Nat}

/-- What a word loses when a value is added to it: nothing, or its modulus. -/
def carry (x y : BitVec n) : Nat := if x.toNat + y.toNat < 2 ^ n then 0 else 2 ^ n

theorem carry_eq_zero {x y : BitVec n} (h : x.toNat + y.toNat < 2 ^ n) : carry x y = 0 := if_pos h

theorem toNat_add_carry (x y : BitVec n) : (x + y).toNat + carry x y = x.toNat + y.toNat := by
  by_cases h : x.toNat + y.toNat < 2 ^ n
  · rw [carry_eq_zero h, BitVec.toNat_add_of_lt h, Nat.add_zero]
  · have hx := x.isLt
    have hy := y.isLt
    have hlt : x.toNat + y.toNat - 2 ^ n < 2 ^ n := by omega
    rw [carry, if_neg h, BitVec.toNat_add, Nat.mod_eq_sub_mod (Nat.not_lt.mp h), Nat.mod_eq_of_lt hlt,
      Nat.sub_add_cancel (Nat.not_lt.mp h)]

end Words

variable {ι : Type} [Fintype ι] {n : Nat}

def total (f : ι → BitVec n) : Nat := ∑ a, (f a).toNat

theorem le_total (f : ι → BitVec n) (a : ι) : (f a).toNat ≤ total f :=
  Finset.single_le_sum (f := fun a => (f a).toNat) (fun _ _ => Nat.zero_le _) (Finset.mem_univ a)

theorem total_eq_zero {f : ι → BitVec n} : total f = 0 ↔ ∀ a, f a = 0 := by
  constructor
  · intro h a
    have ha := le_total f a
    exact BitVec.eq_of_toNat_eq (by simp; omega)
  · intro h
    apply Finset.sum_eq_zero
    intro a _
    simp [h a]

variable [DecidableEq ι]

theorem total_update (f : ι → BitVec n) (a : ι) (x : BitVec n) :
    total (Function.update f a x) + (f a).toNat = total f + x.toNat := by
  have hrest : ∑ b ∈ Finset.univ.erase a, (Function.update f a x b).toNat =
      ∑ b ∈ Finset.univ.erase a, (f b).toNat := by
    apply Finset.sum_congr rfl
    intro b hb
    rw [Function.update_of_ne (Finset.ne_of_mem_erase hb)]
  rw [total, total, ← Finset.add_sum_erase _ _ (Finset.mem_univ a), hrest,
    ← Finset.add_sum_erase _ (fun b => (f b).toNat) (Finset.mem_univ a), Function.update_self]
  omega

theorem total_single (a : ι) (x : BitVec n) : total (Function.update (fun _ => 0) a x) = x.toNat := by
  have hzero : total (fun _ : ι => (0 : BitVec n)) = 0 := total_eq_zero.mpr fun _ => rfl
  have hu := total_update (fun _ => (0 : BitVec n)) a x
  rwa [hzero, show (0 : BitVec n).toNat = 0 from rfl, Nat.add_zero, Nat.zero_add] at hu

theorem total_add (f : ι → BitVec n) (a : ι) (x : BitVec n) :
    total (Function.update f a (f a + x)) + carry (f a) x = total f + x.toNat := by
  have hu := total_update f a (f a + x)
  have hc := toNat_add_carry (f a) x
  omega

theorem total_credit {f : ι → BitVec n} {a : ι} {x : BitVec n} (h : total f + x.toNat < 2 ^ n) :
    total (Function.update f a (f a + x)) = total f + x.toNat := by
  have ha := le_total f a
  rw [← total_add f a x, carry_eq_zero (by omega), Nat.add_zero]

theorem total_debit {f : ι → BitVec n} {a : ι} {x : BitVec n} (h : x ≤ f a) :
    total (Function.update f a (f a - x)) + x.toNat = total f := by
  have hle := BitVec.le_def.mp h
  have hu := total_update f a (f a - x)
  rw [BitVec.toNat_sub_of_le h] at hu
  have ha := le_total f a
  omega

/-- Moving a covered value between two cells, or from a cell to itself, loses
from the total what the second word carries out. -/
theorem total_move_add {f : ι → BitVec n} {a : ι} (b : ι) {x : BitVec n} (h : x ≤ f a) :
    total (Function.update (Function.update f a (f a - x)) b
      (Function.update f a (f a - x) b + x)) + carry (Function.update f a (f a - x) b) x = total f :=
  (total_add _ b x).trans (total_debit h)

theorem total_move {f : ι → BitVec n} {a b : ι} {x : BitVec n} (h : x ≤ f a) (hf : total f < 2 ^ n) :
    total (Function.update (Function.update f a (f a - x)) b
      (Function.update f a (f a - x) b + x)) = total f := by
  have hd := total_debit h
  rw [total_credit (by omega), hd]

end RiscVContracts.Totals
