import Mathlib.Tactic.Ring
import Mathlib.Tactic.Common

namespace RiscVContracts.Bytes

abbrev Buffer := List UInt8

/-- The `n` low bytes of a number, most significant byte first. -/
def beBytes : Nat → Nat → Buffer
  | 0, _ => []
  | n + 1, v => beBytes n (v / 256) ++ [UInt8.ofNat v]

def leBytes : Nat → Nat → Buffer
  | 0, _ => []
  | n + 1, v => UInt8.ofNat v :: leBytes n (v / 256)

def ofBeBytes (bs : Buffer) : Nat := bs.foldl (fun v b => v * 256 + b.toNat) 0

def copyFromSlice (buf : Buffer) (lo : Nat) (src : Buffer) : Buffer :=
  buf.take lo ++ src ++ buf.drop (lo + src.length)

def zeros (n : Nat) : Buffer := List.replicate n 0

@[simp] theorem beBytes_length (n v : Nat) : (beBytes n v).length = n := by
  induction n generalizing v with
  | zero => rfl
  | succ n ih => simp [beBytes, ih]

@[simp] theorem leBytes_length (n v : Nat) : (leBytes n v).length = n := by
  induction n generalizing v with
  | zero => rfl
  | succ n ih => simp [leBytes, ih]

@[simp] theorem zeros_length (n : Nat) : (zeros n).length = n := List.length_replicate

theorem ofBeBytes_concat (bs : Buffer) (b : UInt8) :
    ofBeBytes (bs ++ [b]) = ofBeBytes bs * 256 + b.toNat := by
  simp [ofBeBytes]

theorem ofBeBytes_cons (b : UInt8) (bs : Buffer) :
    ofBeBytes (b :: bs) = b.toNat * 256 ^ bs.length + ofBeBytes bs := by
  have hacc (bs : Buffer) (a : Nat) : bs.foldl (fun v b => v * 256 + b.toNat) a =
      a * 256 ^ bs.length + ofBeBytes bs := by
    induction bs generalizing a with
    | nil => simp [ofBeBytes]
    | cons c bs ih =>
        rw [ofBeBytes, List.foldl_cons, List.foldl_cons, ih, ih (0 * 256 + c.toNat), List.length_cons]
        ring
  rw [ofBeBytes, List.foldl_cons, hacc, Nat.zero_mul, Nat.zero_add]

theorem ofBeBytes_lt (bs : Buffer) : ofBeBytes bs < 256 ^ bs.length := by
  induction bs with
  | nil => simp [ofBeBytes]
  | cons b bs ih =>
      have hb : (b.toNat + 1) * 256 ^ bs.length ≤ 256 * 256 ^ bs.length :=
        Nat.mul_le_mul_right _ b.toNat_lt
      rw [Nat.add_mul, Nat.one_mul] at hb
      rw [ofBeBytes_cons, List.length_cons, Nat.pow_succ']
      omega

/-- Little-endian bytes of a small number, taken as big-endian: its low byte
comes to stand at the top. -/
theorem le_ofBeBytes_leBytes {k v : Nat} (m : Nat) (hv : v ≠ 0) (hlt : v < 256 ^ k) :
    256 ^ m ≤ ofBeBytes (leBytes (m + k) v) := by
  induction k generalizing v with
  | zero => exact absurd (Nat.lt_one_iff.mp hlt) hv
  | succ k ih =>
      rw [← Nat.add_assoc, leBytes, ofBeBytes_cons, leBytes_length]
      by_cases hq : v / 256 = 0
      · have hb : (UInt8.ofNat v).toNat ≠ 0 := by
          rw [UInt8.toNat_ofNat']
          omega
        calc 256 ^ m ≤ 256 ^ (m + k) := Nat.pow_le_pow_right (by decide) (Nat.le_add_right ..)
          _ ≤ (UInt8.ofNat v).toNat * 256 ^ (m + k) := Nat.le_mul_of_pos_left _ (Nat.pos_of_ne_zero hb)
          _ ≤ _ := Nat.le_add_right ..
      · have hlt' : v / 256 < 256 ^ k := Nat.div_lt_of_lt_mul (by rwa [Nat.pow_succ'] at hlt)
        exact (ih hq hlt').trans (Nat.le_add_left ..)

theorem ofBeBytes_beBytes (n v : Nat) : ofBeBytes (beBytes n v) = v % 256 ^ n := by
  induction n generalizing v with
  | zero => simp [beBytes, ofBeBytes, Nat.mod_one]
  | succ n ih =>
      rw [beBytes, ofBeBytes_concat, ih, Nat.pow_succ', Nat.mod_mul]
      simp only [UInt8.toNat_ofNat']
      ring

theorem beBytes_zero (n : Nat) : beBytes n 0 = zeros n := by
  induction n with
  | zero => rfl
  | succ n ih =>
      rw [beBytes, Nat.zero_div, ih, zeros, zeros, List.replicate_succ']
      rfl

theorem beBytes_add (m n v : Nat) : beBytes (m + n) v = beBytes m (v / 256 ^ n) ++ beBytes n v := by
  induction n generalizing v with
  | zero => simp [beBytes]
  | succ n ih =>
      rw [← Nat.add_assoc, beBytes, ih, beBytes, Nat.div_div_eq_div_mul, ← Nat.pow_succ',
        List.append_assoc]

theorem beBytes_of_lt (m : Nat) {n v : Nat} (h : v < 256 ^ n) :
    beBytes (m + n) v = zeros m ++ beBytes n v := by
  rw [beBytes_add, Nat.div_eq_of_lt h, beBytes_zero]

theorem beBytes_mul_pow (m n v : Nat) : beBytes (m + n) (v * 256 ^ n) = beBytes m v ++ zeros n := by
  induction n generalizing v with
  | zero => simp [zeros]
  | succ n ih =>
      have hdiv : v * 256 ^ (n + 1) / 256 = v * 256 ^ n := by
        rw [Nat.pow_succ, ← Nat.mul_assoc, Nat.mul_div_cancel _ (by decide)]
      have hlow : UInt8.ofNat (v * 256 ^ (n + 1)) = 0 := by
        apply UInt8.toNat_inj.mp
        rw [UInt8.toNat_ofNat', Nat.pow_succ, ← Nat.mul_assoc]
        exact Nat.mul_mod_left ..
      rw [← Nat.add_assoc, beBytes, hdiv, ih, hlow, zeros, zeros, List.replicate_succ', List.append_assoc]

theorem concat_lt_concat {as bs : Buffer} (h : as.length = bs.length) (a b : UInt8) :
    as ++ [a] < bs ++ [b] ↔ as < bs ∨ as = bs ∧ a < b := by
  induction as generalizing bs with
  | nil =>
      obtain rfl := List.length_eq_zero_iff.mp h.symm
      simp [List.cons_lt_cons_iff]
  | cons x as ih =>
      cases bs with
      | nil => cases h
      | cons y bs =>
          have hlen : as.length = bs.length := Nat.succ.inj h
          rw [List.cons_append, List.cons_append, List.cons_lt_cons_iff, List.cons_lt_cons_iff,
            ih hlen, List.cons.injEq]
          tauto

theorem beBytes_injective {n u v : Nat} (hu : u < 256 ^ n) (hv : v < 256 ^ n)
    (h : beBytes n u = beBytes n v) : u = v := by
  have h' := congrArg ofBeBytes h
  rwa [ofBeBytes_beBytes, ofBeBytes_beBytes, Nat.mod_eq_of_lt hu, Nat.mod_eq_of_lt hv] at h'

theorem beBytes_lt {n u v : Nat} (hu : u < 256 ^ n) (hv : v < 256 ^ n) :
    beBytes n u < beBytes n v ↔ u < v := by
  induction n generalizing u v with
  | zero =>
      obtain rfl : u = 0 := by omega
      obtain rfl : v = 0 := by omega
      simp [beBytes]
  | succ n ih =>
      have hu' : u / 256 < 256 ^ n := Nat.div_lt_of_lt_mul (by rwa [Nat.pow_succ'] at hu)
      have hv' : v / 256 < 256 ^ n := Nat.div_lt_of_lt_mul (by rwa [Nat.pow_succ'] at hv)
      have heq : beBytes n (u / 256) = beBytes n (v / 256) ↔ u / 256 = v / 256 :=
        ⟨beBytes_injective hu' hv', fun h => by rw [h]⟩
      rw [beBytes, beBytes, concat_lt_concat (by simp), ih hu' hv', heq, UInt8.lt_iff_toNat_lt,
        UInt8.toNat_ofNat', UInt8.toNat_ofNat']
      omega

theorem copyFromSlice_length {buf src : Buffer} {lo : Nat} (h : lo + src.length ≤ buf.length) :
    (copyFromSlice buf lo src).length = buf.length := by
  simp only [copyFromSlice, List.length_append, List.length_take, List.length_drop]
  omega

theorem copyFromSlice_append {a b c src : Buffer} {lo : Nat} (ha : a.length = lo)
    (hb : b.length = src.length) : copyFromSlice (a ++ (b ++ c)) lo src = a ++ (src ++ c) := by
  subst lo
  rw [copyFromSlice, List.take_left, ← hb, ← List.drop_drop, List.drop_left, List.drop_left,
    List.append_assoc]

end RiscVContracts.Bytes
