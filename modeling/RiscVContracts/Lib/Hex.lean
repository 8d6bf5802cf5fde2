import RiscVContracts.Lib.Bytes
import Mathlib.Tactic.Common

namespace RiscVContracts.Hex

open Bytes

def digits : List Char :=
  ['0', '1', '2', '3', '4', '5', '6', '7', '8', '9', 'a', 'b', 'c', 'd', 'e', 'f']

def digit (n : Nat) : Char := digits.getD n '0'

def value (c : Char) : Option Nat := digits.idxOf? c.toLower

def encode (bs : Buffer) : List Char := bs.flatMap fun b => [digit (b.toNat / 16), digit (b.toNat % 16)]

/-- The bytes spelled by a text, up to the first pair that is not of digits. -/
def decode : List Char → Buffer
  | a :: b :: rest => match value a, value b with
    | some high, some low => UInt8.ofNat (16 * high + low) :: decode rest
    | _, _ => []
  | _ => []

def lower (text : List Char) : List Char := text.map Char.toLower

theorem value_digit : ∀ {n : Nat}, n < 16 → value (digit n) = some n := by
  decide

theorem toLower_digit : ∀ {n : Nat}, n < 16 → (digit n).toLower = digit n := by
  decide

theorem digit_lt : ∀ {m : Nat}, m < 16 → ∀ {n : Nat}, n < 16 → (digit m < digit n ↔ m < n) := by
  decide

theorem digit_injective {m n : Nat} (hm : m < 16) (hn : n < 16) (h : digit m = digit n) : m = n := by
  have hv := value_digit hm
  rw [h, value_digit hn] at hv
  exact (Option.some.inj hv).symm

theorem high_lt (b : UInt8) : b.toNat / 16 < 16 := by
  have h := b.toNat_lt
  omega

theorem low_lt (b : UInt8) : b.toNat % 16 < 16 := Nat.mod_lt _ (by decide)

theorem encode_cons (b : UInt8) (bs : Buffer) :
    encode (b :: bs) = digit (b.toNat / 16) :: digit (b.toNat % 16) :: encode bs := rfl

theorem decode_encode (bs : Buffer) : decode (encode bs) = bs := by
  induction bs with
  | nil => rfl
  | cons b bs ih =>
      have hb : UInt8.ofNat (16 * (b.toNat / 16) + b.toNat % 16) = b := by
        rw [Nat.div_add_mod, UInt8.ofNat_toNat]
      rw [encode_cons, decode, value_digit (high_lt b), value_digit (low_lt b)]
      simp only [hb, ih]

theorem lower_encode (bs : Buffer) : lower (encode bs) = encode bs := by
  induction bs with
  | nil => rfl
  | cons b bs ih =>
      rw [encode_cons, lower, List.map_cons, List.map_cons, toLower_digit (high_lt b),
        toLower_digit (low_lt b)]
      exact congrArg (digit _ :: digit _ :: ·) ih

theorem toLower_toLower (c : Char) : c.toLower.toLower = c.toLower := by
  by_cases h : c.val ≥ 'A'.val ∧ c.val ≤ 'Z'.val
  · have hl : ¬ (c.toLower.val ≥ 'A'.val ∧ c.toLower.val ≤ 'Z'.val) := by
      have hc : c.toLower.val = c.val + ('a'.val - 'A'.val) := congrArg Char.val (dif_pos h)
      rw [hc]
      grind
    exact dif_neg hl
  · have hc : c.toLower = c := dif_neg h
    rw [hc, hc]

theorem value_toLower (c : Char) : value c.toLower = value c := by
  rw [value, toLower_toLower, value]

/-- The case of the digits does not matter. -/
theorem decode_lower (text : List Char) : decode (lower text) = decode text := by
  induction text using decode.induct with
  | case1 a b rest high low ha hb ih =>
      simp only [lower, List.map_cons, decode, value_toLower, ha, hb]
      exact congrArg _ ih
  | case2 a b rest hne =>
      simp only [lower, List.map_cons, decode, value_toLower]
  | case3 text hshort =>
      cases text with
      | nil => rfl
      | cons a text =>
          cases text with
          | nil => rfl
          | cons b rest => exact absurd rfl (hshort a b rest)

theorem encode_lt (as bs : Buffer) : encode as < encode bs ↔ as < bs := by
  induction as generalizing bs with
  | nil =>
      cases bs with
      | nil => exact ⟨fun h => absurd h (List.not_lt_nil _), fun h => absurd h (List.not_lt_nil _)⟩
      | cons b bs => exact ⟨fun _ => List.nil_lt_cons .., fun _ => List.nil_lt_cons ..⟩
  | cons a as ih =>
      cases bs with
      | nil => exact ⟨fun h => absurd h (List.not_lt_nil _), fun h => absurd h (List.not_lt_nil _)⟩
      | cons b bs =>
          have heq {m n : Nat} (hm : m < 16) (hn : n < 16) : digit m = digit n ↔ m = n :=
            ⟨digit_injective hm hn, congrArg digit⟩
          rw [encode_cons, encode_cons, List.cons_lt_cons_iff, List.cons_lt_cons_iff,
            List.cons_lt_cons_iff, ih, digit_lt (high_lt a) (high_lt b), digit_lt (low_lt a) (low_lt b),
            heq (high_lt a) (high_lt b), heq (low_lt a) (low_lt b), UInt8.lt_iff_toNat_lt,
            ← UInt8.toNat_inj]
          grind

end RiscVContracts.Hex
