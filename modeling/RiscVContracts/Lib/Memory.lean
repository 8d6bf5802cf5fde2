import Mathlib.Tactic.Common

namespace RiscVContracts.Memory

variable {α : Type}

section Windows

/-- The `n` elements of a list from an offset on, continued by a filler past its end. -/
def window (fill : α) (data : List α) (offset n : Nat) : List α :=
  (List.range n).map fun j => data.getD (offset + j) fill

variable (fill : α) (data : List α) {offset n : Nat}

@[simp] theorem window_length (offset n : Nat) : (window fill data offset n).length = n := by
  simp [window]

theorem window_getD {j : Nat} (hj : j < n) (d : α) :
    (window fill data offset n).getD j d = data.getD (offset + j) fill := by
  simp [window, List.getD_eq_getElem?_getD, hj]

theorem window_past (h : data.length ≤ offset) : window fill data offset n = List.replicate n fill := by
  rw [List.eq_replicate_iff]
  refine ⟨window_length .., fun a ha => ?_⟩
  obtain ⟨j, -, rfl⟩ := List.mem_map.mp ha
  have hend : data.length ≤ offset + j := Nat.le_trans h (Nat.le_add_right ..)
  rw [List.getD_eq_getElem?_getD, List.getElem?_eq_none hend, Option.getD_none]

theorem window_inside {stop : Nat} (h : offset ≤ stop) (hstop : stop ≤ data.length) :
    window fill data offset (stop - offset) = (data.take stop).drop offset := by
  refine List.ext_getElem ?_ fun j hj _ => ?_
  · rw [window_length, List.length_drop, List.length_take, Nat.min_eq_left hstop]
  · rw [window_length] at hj
    simp [window, List.getElem?_eq_getElem (show offset + j < data.length by omega)]

theorem window_add (k : Nat) : window fill data offset (n + k) =
    window fill data offset n ++ window fill data (offset + n) k := by
  rw [window, List.range_add, List.map_append, List.map_map, window, window]
  simp only [Function.comp_def, Nat.add_assoc]

/-- A window that starts inside the list: what the list holds of it, then the filler. -/
theorem window_eq (h : offset ≤ data.length) : window fill data offset n =
    (data.take (min (offset + n) data.length)).drop offset ++
      List.replicate (n - (min (offset + n) data.length - offset)) fill := by
  have hn : n = min (offset + n) data.length - offset +
      (n - (min (offset + n) data.length - offset)) := by omega
  conv_lhs => rw [hn, window_add]
  rw [window_inside fill data (Nat.le_min.mpr ⟨Nat.le_add_right .., h⟩) (Nat.min_le_right ..)]
  by_cases hlt : offset + n ≤ data.length
  · have hzero : n - (min (offset + n) data.length - offset) = 0 := by omega
    rw [hzero]
    rfl
  · rw [window_past]
    omega

end Windows

section Stores

def store (mem : Nat → α) (ptr : Nat) (data : List α) (i : Nat) : α :=
  if ptr ≤ i then (data[i - ptr]?).getD (mem i) else mem i

variable {mem : Nat → α} {ptr : Nat} {data : List α}

theorem store_nil : store mem ptr [] = mem := by
  funext i
  simp [store]

theorem store_inside {j : Nat} (hj : j < data.length) (d : α) :
    store mem ptr data (ptr + j) = data.getD j d := by
  rw [store, if_pos (Nat.le_add_right ..), Nat.add_sub_cancel_left, List.getD_eq_getElem?_getD,
    List.getElem?_eq_getElem hj]
  rfl

theorem store_outside {i : Nat} (h : i < ptr ∨ ptr + data.length ≤ i) : store mem ptr data i = mem i := by
  rw [store]
  split
  · rw [List.getElem?_eq_none (by omega), Option.getD_none]
  · rfl

theorem store_store (rest : List α) :
    store (store mem ptr data) (ptr + data.length) rest = store mem ptr (data ++ rest) := by
  funext i
  obtain h | h := Nat.lt_or_ge i (ptr + data.length)
  · rw [store_outside (.inl h)]
    obtain hi | hi := Nat.lt_or_ge i ptr
    · rw [store_outside (.inl hi), store_outside (.inl hi)]
    · rw [store, store, if_pos hi, if_pos hi, List.getElem?_append_left (by omega)]
  · have hi : ptr ≤ i := Nat.le_trans (Nat.le_add_right ..) h
    rw [store, if_pos h, store_outside (.inr h), store, if_pos hi,
      List.getElem?_append_right (by omega), Nat.sub_sub]

end Stores

end RiscVContracts.Memory
