import Mathlib.Control.Monad.Writer
import RiscVContracts.Lib.Bytes

namespace RiscVContracts.Hashing

open Bytes

abbrev ByteString (n : Nat) := {bs : Buffer // bs.length = n}

section Strings

variable {m n : Nat}

def ByteString.zeros (n : Nat) : ByteString n := ⟨Bytes.zeros n, zeros_length n⟩

def ByteString.ofNat (n v : Nat) : ByteString n := ⟨beBytes n v, beBytes_length n v⟩

def ByteString.toNat (a : ByteString n) : Nat := ofBeBytes a.1

def ByteString.append (a : ByteString m) (b : ByteString n) : ByteString (m + n) :=
  ⟨a.1 ++ b.1, by rw [List.length_append, a.2, b.2]⟩

def ByteString.copyFromSlice (buf : ByteString n) (lo : Nat) (src : ByteString m) (h : lo + m ≤ n) :
    ByteString n :=
  ⟨Bytes.copyFromSlice buf.1 lo src.1,
    (copyFromSlice_length (by rw [src.2, buf.2]; exact h)).trans buf.2⟩

theorem ByteString.toNat_ofNat {v : Nat} (h : v < 256 ^ n) : (ByteString.ofNat n v).toNat = v := by
  rw [ByteString.toNat, ByteString.ofNat, ofBeBytes_beBytes, Nat.mod_eq_of_lt h]

theorem ByteString.ofNat_injective {u v : Nat} (hu : u < 256 ^ n) (hv : v < 256 ^ n)
    (h : ByteString.ofNat n u = ByteString.ofNat n v) : u = v :=
  beBytes_injective hu hv (congrArg Subtype.val h)

theorem ByteString.append_injective {a a' : ByteString m} {b b' : ByteString n}
    (h : a.append b = a'.append b') : a = a' ∧ b = b' := by
  obtain ⟨ha, hb⟩ := List.append_inj (congrArg Subtype.val h) (a.2.trans a'.2.symm)
  exact ⟨Subtype.ext ha, Subtype.ext hb⟩

end Strings

section Asking

variable {α β γ δ : Type}

/-- A computation by a hash, with the strings it hashed in their order. -/
abbrev Asking (α : Type) := Writer (List α)

def value (d : Asking α γ) : γ := (WriterT.run d).1

def asked (d : Asking α γ) : List α := (WriterT.run d).2

def ask (H : α → β) (x : α) : Asking α β := do
  tell [x]
  return H x

@[simp] theorem value_pure (c : γ) : value (pure c : Asking α γ) = c := rfl

@[simp] theorem asked_pure (c : γ) : asked (pure c : Asking α γ) = [] := rfl

@[simp] theorem value_ask (H : α → β) (x : α) : value (ask H x) = H x := rfl

@[simp] theorem asked_ask (H : α → β) (x : α) : asked (ask H x) = [x] := rfl

@[simp] theorem value_bind (d : Asking α γ) (f : γ → Asking α δ) :
    value (d >>= f) = value (f (value d)) := rfl

@[simp] theorem asked_bind (d : Asking α γ) (f : γ → Asking α δ) :
    asked (d >>= f) = asked d ++ asked (f (value d)) := rfl

def Collision (H : α → β) (xs : List α) : Prop := ∃ x ∈ xs, ∃ y ∈ xs, x ≠ y ∧ H x = H y

theorem Collision.mono {H : α → β} {xs ys : List α} (h : Collision H xs) (hsub : xs ⊆ ys) :
    Collision H ys := by
  obtain ⟨x, hx, y, hy, hne, heq⟩ := h
  exact ⟨x, hsub hx, y, hsub hy, hne, heq⟩

theorem eq_or_collision {H : α → β} {xs : List α} {x y : α} (hx : x ∈ xs) (hy : y ∈ xs)
    (h : H x = H y) : x = y ∨ Collision H xs := by
  by_cases hxy : x = y
  · exact .inl hxy
  · exact .inr ⟨x, hx, y, hy, hxy, h⟩

end Asking

end RiscVContracts.Hashing
