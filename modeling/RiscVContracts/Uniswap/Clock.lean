import RiscVContracts.Uniswap.ReserveCodec

namespace RiscVContracts.Clock

open Programs Bytes Host Storage Pair PairView PairSpec PairSlots Calldata Symbolic Tokens Runs Commits
  ReserveCodec

/-- The host's clock buffer: a 256-bit scalar is written least significant byte first. -/
def clockBytes (t : Nat) : Vector UInt8 32 := ⟨(leBytes 32 t).toArray, by simp⟩

variable {κ W : Type} [DecidableEq κ] {api : Api κ W} {abi : PairAbi} {callData : Buffer}
  {s : State κ W} {f : PairFn} {b : Balances} {t : Nat}

omit [DecidableEq κ] in
theorem clock_of_now (hnow : api.now = clockBytes t) :
    (clock api).toNat = ofBeBytes (leBytes 32 t) % 2 ^ 256 := by
  rw [clock, hnow, fromBeSlice, BitVec.toNat_ofNat]
  rfl

omit [DecidableEq κ] in
theorem clock_lt_iff (hnow : api.now = clockBytes t) (ht : t < 2 ^ 32) :
    (clock api).toNat < 2 ^ 32 ↔ t = 0 := by
  constructor
  · intro h
    by_contra h0
    have hge : 256 ^ 28 ≤ ofBeBytes (leBytes 32 t) :=
      le_ofBeBytes_leBytes 28 (k := 4) h0 (ht.trans_eq (by norm_num))
    have hlt : ofBeBytes (leBytes 32 t) < 2 ^ 256 := by
      have := ofBeBytes_lt (leBytes 32 t)
      rw [leBytes_length] at this
      exact this.trans_eq (by norm_num)
    rw [clock_of_now hnow, Nat.mod_eq_of_lt hlt] at h
    omega
  · rintro rfl
    rw [clock_of_now hnow, show leBytes 32 0 = zeros 32 from rfl]
    decide

/-- A mint, burn or swap that passes all other checks returns with the host's
time in its reserve word only at time zero; at any other time it traps. -/
theorem clock_decoded_iff (hf : pairFn callData = some f) (hsync : f ≠ .sync)
    (hnow : api.now = clockBytes t) (ht : t < 2 ^ 32) (hs : slots api s slotUnlocked = 1)
    (hb : handed api abi callData s = some b) (h0 : b.balance0.toNat < 2 ^ 128)
    (h1 : b.balance1.toNat < 2 ^ 128) :
    (∃ out u, call api abi callData s = .ok out u ∧ (reserves api u).ts.toNat = t) ↔ t = 0 := by
  have hcommit : (∃ out u, call api abi callData s = .ok out u) ↔ _ :=
    commits_iff hf (updating_of_handed hf hb)
  constructor
  · rintro ⟨out, u, hc, -⟩
    obtain ⟨-, b', -, hconv⟩ := hcommit.mp ⟨out, u, hc⟩
    exact (clock_lt_iff hnow ht).mp (hconv.clock hsync)
  · rintro rfl
    have hclock : (clock api).toNat < 2 ^ 32 := (clock_lt_iff hnow ht).mpr rfl
    obtain ⟨out, u, hc⟩ := hcommit.mpr ⟨hs, b, hb, h0, h1, fun _ => hclock⟩
    obtain ⟨-, v, hword⟩ := word_of_call hf hc hb
    refine ⟨out, u, hc, ?_⟩
    rw [reserves, hword, unpackReserves_packReserves, stamp, if_neg hsync, BitVec.toNat_setWidth,
      clock_of_now hnow]
    rfl

/-- The first mint of a pair, one second after the epoch. -/
theorem clock_misread :
    let api : Api Key Ledger := { ledgerApi 5 9 with now := clockBytes 1 }
    let s := samplePair (2 ^ 20) (2 ^ 20)
    slots api s slotUnlocked = 1 ∧
      handed api standardAbi (mintData 5) s = some { balance0 := 2 ^ 20, balance1 := 2 ^ 20 } ∧
      ¬ ∃ out u, call api standardAbi (mintData 5) s = .ok out u := by
  intro api s
  refine ⟨by decide +kernel, by decide +kernel, ?_⟩
  rintro ⟨out, u, h⟩
  have hnone : value (call api standardAbi (mintData 5) s) = none := by decide +kernel
  rw [h] at hnone
  cases hnone

theorem clock_decoded_zero :
    let api : Api Key Ledger := { ledgerApi 5 9 with now := clockBytes 0 }
    ∃ out u, call api standardAbi (mintData 5) (samplePair (2 ^ 20) (2 ^ 20)) = .ok out u ∧
      (reserves api u).ts.toNat = 0 := by
  intro api
  have hb : handed api standardAbi (mintData 5) (samplePair (2 ^ 20) (2 ^ 20)) =
      some { balance0 := 2 ^ 20, balance1 := 2 ^ 20 } := by decide +kernel
  exact (clock_decoded_iff (f := .mint) (by decide +kernel) (by decide) rfl (by decide)
    (by decide +kernel) hb (by decide) (by decide)).mpr rfl

end RiscVContracts.Clock
