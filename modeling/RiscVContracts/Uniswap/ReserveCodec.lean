import RiscVContracts.Uniswap.Commits
import RiscVContracts.Uniswap.Runs

namespace RiscVContracts.ReserveCodec

open Programs Bytes Host Storage Pair PairView PairSpec PairSlots Calldata Tokens Runs
  Commits

/-- Packing and unpacking, for any two 128-bit values. The first field loses
its high bits and takes those of the second; the second takes the low bits of
the first, since it is unpacked with a wider mask than its field. -/
theorem unpackReserves_packReserves (r0 r1 : U128) (ts : U32) :
    unpackReserves (packReserves r0 r1 ts) =
      { reserve0 := (r0.setWidth 112).setWidth 128 ||| r1 >>> 112
        reserve1 := r1 ||| r0 <<< 112
        ts := ts } := by
  have h0 : ((packReserves r0 r1 ts) >>> 144).setWidth 128 =
      (r0.setWidth 112).setWidth 128 ||| r1 >>> 112 := by
    apply BitVec.eq_of_getLsbD_eq
    intro i hi
    simp [packReserves, fromUint]
    grind
  have h1 : ((packReserves r0 r1 ts) >>> 32).setWidth 128 = r1 ||| r0 <<< 112 := by
    apply BitVec.eq_of_getLsbD_eq
    intro i hi
    simp [packReserves, fromUint]
    grind
  have ht : (packReserves r0 r1 ts).setWidth 32 = ts := by
    apply BitVec.eq_of_getLsbD_eq
    intro i hi
    simp [packReserves, fromUint]
  rw [unpackReserves, h0, h1, ht]

theorem ushiftRight_eq_zero {r : U128} (h : r.toNat < 2 ^ 112) : r >>> 112 = 0#128 := by
  apply BitVec.eq_of_toNat_eq
  rw [BitVec.toNat_ushiftRight, Nat.shiftRight_eq_div_pow, Nat.div_eq_of_lt h]
  rfl

theorem setWidth_setWidth_of_lt {r : U128} (h : r.toNat < 2 ^ 112) :
    (r.setWidth 112).setWidth 128 = r := by
  apply BitVec.eq_of_toNat_eq
  rw [BitVec.toNat_setWidth, BitVec.toNat_setWidth, Nat.mod_eq_of_lt h, Nat.mod_eq_of_lt r.isLt]

theorem toNat_reserve1 {r0 r1 : U128} (h1 : r1.toNat < 2 ^ 112) :
    (r1 ||| r0 <<< 112).toNat = r1.toNat + r0.toNat % 2 ^ 16 * 2 ^ 112 := by
  have hs : (r0 <<< 112).toNat = 2 ^ 112 * (r0.toNat % 2 ^ 16) := by
    rw [BitVec.toNat_shiftLeft, Nat.shiftLeft_eq]
    omega
  rw [BitVec.toNat_or, hs, Nat.or_comm, ← Nat.two_pow_add_eq_or_of_lt h1]
  omega

/-- Both reserves come back just when the first one leaves the second's bits alone. -/
theorem unpack_pack_iff {r0 r1 : U128} (h0 : r0.toNat < 2 ^ 112) (h1 : r1.toNat < 2 ^ 112) (ts : U32) :
    (unpackReserves (packReserves r0 r1 ts)).reserve0 = r0 ∧
      (unpackReserves (packReserves r0 r1 ts)).reserve1 = r1 ↔ r0.toNat % 2 ^ 16 = 0 := by
  rw [unpackReserves_packReserves, setWidth_setWidth_of_lt h0, ushiftRight_eq_zero h1, BitVec.or_zero,
    ← BitVec.toNat_inj (x := r1 ||| r0 <<< 112), toNat_reserve1 h1]
  simp only [true_and]
  omega

theorem unpack_pack_eq_iff {r0 r1 : U128} (h0 : r0.toNat < 2 ^ 112) (h1 : r1.toNat < 2 ^ 112)
    (ts : U32) :
    unpackReserves (packReserves r0 r1 ts) = { reserve0 := r0, reserve1 := r1, ts := ts } ↔
      r0.toNat % 2 ^ 16 = 0 := by
  rw [← unpack_pack_iff h0 h1 ts, unpackReserves_packReserves]
  simp only [Reserves.mk.injEq, and_true]

section Commits

variable {κ W : Type} [DecidableEq κ] {api : Api κ W} {abi : PairAbi} {callData : Buffer}
  {s t u : State κ W}

def Stores (api : Api κ W) (t : State κ W) (b : Balances) : Prop :=
  b.balance0.toNat < 2 ^ 128 ∧ b.balance1.toNat < 2 ^ 128 ∧ ∃ ts, slots api t slotReserves =
    packReserves (b.balance0.setWidth 128) (b.balance1.setWidth 128) ts

theorem stores_of_call {out : Buffer} {b : Balances} (h : call api abi callData s = .ok out t)
    (hb : handed api abi callData s = some b) : Stores api t b := by
  obtain ⟨-, f, hf, -⟩ := call_ok.mp h
  obtain ⟨hc, u, ht⟩ := word_of_call hf h hb
  exact ⟨hc.fits0, hc.fits1, _, ht⟩

/-- Reserves are read back as they were written, and reported as they were
committed, exactly when the first one is a multiple of `2 ^ 16`. -/
theorem reserves_reported_iff (api : Api κ W) (abi : PairAbi) :
    (∀ (r0 r1 : U128) (ts : U32) (s : State κ W), r0.toNat < 2 ^ 112 → r1.toNat < 2 ^ 112 →
      ((∃ t, (setReserves api r0 r1 ts >>= fun _ => getReserves api) s =
        .ok { reserve0 := r0, reserve1 := r1, ts := ts } t) ↔ r0.toNat % 2 ^ 16 = 0)) ∧
    (∀ (callData out : Buffer) (s t : State κ W) (b : Balances),
      call api abi callData s = .ok out t → handed api abi callData s = some b →
      b.balance0.toNat < 2 ^ 112 → b.balance1.toNat < 2 ^ 112 →
      ((∃ r u, getReserves api t = .ok r u ∧ r.reserve0.toNat = b.balance0.toNat ∧
        r.reserve1.toNat = b.balance1.toNat) ↔ b.balance0.toNat % 2 ^ 16 = 0)) := by
  constructor
  · intro r0 r1 ts s h0 h1
    rw [← unpack_pack_eq_iff h0 h1 ts]
    simp only [bind_ok, setReserves_ok, exists_unit, exists_eq_left', getReserves_ok, reserves,
      slots_set_slot, Function.update_self, exists_and_left, exists_eq', and_true]
  · intro callData out s t b hc hb h0 h1
    obtain ⟨w0, w1, ts, ht⟩ := stores_of_call hc hb
    have e0 : (b.balance0.setWidth 128).toNat = b.balance0.toNat := by
      rw [BitVec.toNat_setWidth, Nat.mod_eq_of_lt w0]
    have e1 : (b.balance1.setWidth 128).toNat = b.balance1.toNat := by
      rw [BitVec.toNat_setWidth, Nat.mod_eq_of_lt w1]
    have hiff := unpack_pack_iff (e0.trans_lt h0) (e1.trans_lt h1) ts
    rw [e0, ← ht, ← BitVec.toNat_inj, e0, ← BitVec.toNat_inj, e1] at hiff
    rw [← hiff]
    constructor
    · rintro ⟨r, u, hr, hb0, hb1⟩
      obtain ⟨rfl, -⟩ := getReserves_ok.mp hr
      exact ⟨hb0, hb1⟩
    · rintro ⟨hb0, hb1⟩
      exact ⟨_, t, getReserves_ok.mpr ⟨rfl, rfl⟩, hb0, hb1⟩

end Commits

/-- A reserve of one token unit is read back with `2 ^ 112` units of the
other, and so does a pair that commits these balances report them. -/
theorem reserves_misread :
    (¬ ∃ t, (setReserves (ledgerApi 7 9) 1 0 5 >>= fun _ => getReserves (ledgerApi 7 9))
      (samplePair 1 0) = .ok { reserve0 := 1, reserve1 := 0, ts := 5 } t) ∧
    ∃ t, call (ledgerApi 7 9) standardAbi PairFn.sync.selector (samplePair 1 0) = .ok [] t ∧
      handed (ledgerApi 7 9) standardAbi PairFn.sync.selector (samplePair 1 0) =
        some { balance0 := 1, balance1 := 0 } ∧
      value (getReserves (ledgerApi 7 9) t) = some { reserve0 := 1, reserve1 := 2 ^ 112, ts := 0 } := by
  constructor
  · rintro ⟨t, h⟩
    have hv : value ((setReserves (ledgerApi 7 9) 1 0 5 >>= fun _ => getReserves (ledgerApi 7 9))
        (samplePair 1 0)) = some { reserve0 := 1, reserve1 := 0, ts := 5 } := congrArg value h
    exact absurd hv (by decide +kernel)
  · exact ⟨_, ok_of_value (by decide +kernel), by decide +kernel, by decide +kernel⟩

theorem reserves_reported_multiple :
    (∃ t, (setReserves (ledgerApi 7 9) 65536 3 5 >>= fun _ => getReserves (ledgerApi 7 9))
      (samplePair 65536 3) = .ok { reserve0 := 65536, reserve1 := 3, ts := 5 } t) ∧
    ∃ t r u, call (ledgerApi 7 9) standardAbi PairFn.sync.selector (samplePair 65536 3) = .ok [] t ∧
      getReserves (ledgerApi 7 9) t = .ok r u ∧ r.reserve0.toNat = 65536 ∧ r.reserve1.toNat = 3 := by
  have h := reserves_reported_iff (ledgerApi 7 9) standardAbi
  have hc : call (ledgerApi 7 9) standardAbi PairFn.sync.selector (samplePair 65536 3) = .ok [] _ :=
    ok_of_value (by decide +kernel)
  have hb : handed (ledgerApi 7 9) standardAbi PairFn.sync.selector (samplePair 65536 3) =
      some { balance0 := 65536, balance1 := 3 } := by decide +kernel
  obtain ⟨r, u, hr⟩ := (h.2 _ _ _ _ _ hc hb (by decide) (by decide)).mpr (by decide)
  exact ⟨(h.1 65536 3 5 _ (by decide) (by decide)).mpr (by decide), _, r, u, hc, hr⟩

end RiscVContracts.ReserveCodec
