import Mathlib.Data.List.Induction
import Mathlib.Logic.Function.Basic
import Mathlib.Tactic.Common

namespace RiscVContracts.Writes

variable {κ α : Type} [DecidableEq κ]

def write (f : κ → α) (w : κ × α) : κ → α := Function.update f w.1 w.2

def lastWrite (ws : List (κ × α)) (k : κ) : Option α := (ws.reverse.find? (·.1 = k)).map (·.2)

theorem lastWrite_concat (ws : List (κ × α)) (w : κ × α) (k : κ) :
    lastWrite (ws ++ [w]) k = if w.1 = k then some w.2 else lastWrite ws k := by
  rw [lastWrite, List.reverse_append, List.reverse_singleton, List.singleton_append, List.find?_cons]
  by_cases h : w.1 = k <;> simp [h, lastWrite]

theorem foldl_write_apply (f : κ → α) (ws : List (κ × α)) (k : κ) :
    ws.foldl write f k = (lastWrite ws k).getD (f k) := by
  induction ws using List.reverseRecOn with
  | nil => rfl
  | append_singleton ws w ih =>
      rw [List.foldl_append, List.foldl_cons, List.foldl_nil, write, lastWrite_concat]
      by_cases h : w.1 = k
      · subst k
        rw [Function.update_self, if_pos rfl, Option.getD_some]
      · rw [Function.update_of_ne (Ne.symm h), if_neg h, ih]

/-- Writes leave a table as it was exactly when the last one to each key does. -/
theorem foldl_write_eq_iff (f : κ → α) (ws : List (κ × α)) :
    ws.foldl write f = f ↔ ∀ k v, lastWrite ws k = some v → v = f k := by
  rw [funext_iff]
  apply forall_congr'
  intro k
  rw [foldl_write_apply]
  cases lastWrite ws k with
  | none => simp
  | some v => simp

section Sparse

variable [DecidableEq α] {d : α}

def present (d v : α) : Option α := if v = d then none else some v

theorem present_getD (v : α) : (present d v).getD d = v := by
  by_cases h : v = d <;> simp [present, h]

theorem present_ne (v : α) : present d v ≠ some d := by
  by_cases h : v = d <;> simp [present, h]

theorem present_isSome {v : α} : (present d v).isSome ↔ v ≠ d := by
  by_cases h : v = d <;> simp [present, h]

def sparse (d : α) (f : κ → α) (k : κ) : Option α := present d (f k)

/-- A write that removes the key when it writes the default. -/
def writePresent (d : α) (f : κ → Option α) (w : κ × α) : κ → Option α :=
  write f (w.1, present d w.2)

theorem sparse_write (f : κ → α) (w : κ × α) : sparse d (write f w) = writePresent d (sparse d f) w := by
  funext k
  by_cases h : k = w.1
  · subst k
    simp [sparse, write, writePresent]
  · simp [sparse, write, writePresent, h]

theorem sparse_foldl_write (f : κ → α) (ws : List (κ × α)) :
    sparse d (ws.foldl write f) = ws.foldl (writePresent d) (sparse d f) := by
  induction ws generalizing f with
  | nil => rfl
  | cons w ws ih => rw [List.foldl_cons, List.foldl_cons, ih, sparse_write]

end Sparse

end RiscVContracts.Writes
