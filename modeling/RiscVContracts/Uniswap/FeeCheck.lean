import RiscVContracts.Uniswap.Runs
import Mathlib.Tactic.Linarith
import Mathlib.Tactic.Positivity

namespace RiscVContracts.FeeCheck

open Programs Bytes Host Storage Pair PairView PairSpec PairSlots Calldata Symbolic Tokens Runs

section Exact

def exactIn (b r out : Nat) : Int := max 0 ((b : Int) - (r - out))

def exactAdjusted (b r out : Nat) : Int := 1000 * b - 3 * exactIn b r out

def exactPaid (r : Reserves) (decoded : SwapArgs) (b : Balances) : Int :=
  exactAdjusted b.balance0.toNat r.reserve0.toNat decoded.amount0Out.toNat *
    exactAdjusted b.balance1.toNat r.reserve1.toNat decoded.amount1Out.toNat

def exactK (r : Reserves) : Int := 10 ^ 6 * r.reserve0.toNat * r.reserve1.toNat

def paidWord (r : U128) (out b : U256) : U256 := adjusted b (amountIn b (fromUint r) out)

variable {r : U128} {out b : U256}

theorem reserve_pos (hout : out < fromUint r) : 0 < r.toNat := by
  have hr : (fromUint r).toNat = r.toNat := toNat_fromUint r (by decide)
  exact hr ▸ (Nat.zero_le _).trans_lt (BitVec.lt_def.mp hout)

theorem toNat_amountIn (hout : out < fromUint r) :
    (amountIn b (fromUint r) out).toNat = b.toNat - (r.toNat - out.toNat) := by
  have hr : (fromUint r).toNat = r.toNat := toNat_fromUint r (by decide)
  have hle : out.toNat ≤ (fromUint r).toNat := (BitVec.lt_def.mp hout).le
  have hsub : (fromUint r - out).toNat = r.toNat - out.toNat := by
    rw [BitVec.toNat_sub_of_le hle, hr]
  unfold amountIn
  split
  · rename_i h
    rw [BitVec.toNat_sub_of_le (BitVec.lt_def.mp h).le, hsub]
  · rename_i h
    rw [gt_iff_lt, BitVec.lt_def, hsub] at h
    rw [Nat.sub_eq_zero_of_le (Nat.not_lt.mp h)]
    rfl

theorem toNat_scaled (hb : b.toNat < 2 ^ 128) : (b * 1000).toNat = b.toNat * 1000 :=
  BitVec.toNat_mul_of_lt (by simp only [BitVec.ofNat_eq_ofNat, BitVec.toNat_ofNat]; omega)

theorem toNat_fee (hb : b.toNat < 2 ^ 128) (hout : out < fromUint r) :
    (amountIn b (fromUint r) out * 3).toNat = (amountIn b (fromUint r) out).toNat * 3 :=
  BitVec.toNat_mul_of_lt (by
    rw [toNat_amountIn hout]; simp only [BitVec.ofNat_eq_ofNat, BitVec.toNat_ofNat]; omega)

theorem toNat_paidWord (hb : b.toNat < 2 ^ 128) (hout : out < fromUint r) :
    ((paidWord r out b).toNat : Int) = exactAdjusted b.toNat r.toNat out.toNat := by
  have hr : (fromUint r).toNat = r.toNat := toNat_fromUint r (by decide)
  have hlt : out.toNat < r.toNat := hr ▸ BitVec.lt_def.mp hout
  have hin := toNat_amountIn (b := b) hout
  have hle : (amountIn b (fromUint r) out * 3).toNat ≤ (b * 1000).toNat := by
    rw [toNat_fee hb hout, toNat_scaled hb, hin]
    omega
  rw [paidWord, adjusted, BitVec.toNat_sub_of_le hle, toNat_fee hb hout, toNat_scaled hb, hin,
    exactAdjusted, exactIn]
  omega

end Exact

section Wrapping

/-- No product evaluated in the check wraps. -/
structure Unwrapped (r : Reserves) (decoded : SwapArgs) (b : Balances) : Prop where
  scaled0 : (b.balance0 * 1000).toNat = b.balance0.toNat * 1000
  scaled1 : (b.balance1 * 1000).toNat = b.balance1.toNat * 1000
  fee0 : (amountIn b.balance0 (fromUint r.reserve0) decoded.amount0Out * 3).toNat =
    (amountIn b.balance0 (fromUint r.reserve0) decoded.amount0Out).toNat * 3
  fee1 : (amountIn b.balance1 (fromUint r.reserve1) decoded.amount1Out * 3).toNat =
    (amountIn b.balance1 (fromUint r.reserve1) decoded.amount1Out).toNat * 3
  paid : (paidWord r.reserve0 decoded.amount0Out b.balance0 *
      paidWord r.reserve1 decoded.amount1Out b.balance1).toNat =
    (paidWord r.reserve0 decoded.amount0Out b.balance0).toNat *
      (paidWord r.reserve1 decoded.amount1Out b.balance1).toNat
  k : (fromUint r.reserve0 * fromUint r.reserve1).toNat = r.reserve0.toNat * r.reserve1.toNat
  k1000 : (fromUint r.reserve0 * fromUint r.reserve1 * 1000).toNat =
    r.reserve0.toNat * r.reserve1.toNat * 1000
  k1000000 : (fromUint r.reserve0 * fromUint r.reserve1 * 1000 * 1000).toNat =
    r.reserve0.toNat * r.reserve1.toNat * 1000 * 1000

variable {r : Reserves} {decoded : SwapArgs} {b : Balances}

def InRange (r : Reserves) (decoded : SwapArgs) (b : Balances) : Prop :=
  exactPaid r decoded b < 2 ^ 256 ∧ exactK r < 2 ^ 256

theorem toNat_k (r : Reserves) :
    (fromUint r.reserve0 * fromUint r.reserve1).toNat = r.reserve0.toNat * r.reserve1.toNat := by
  have h0 : (fromUint r.reserve0).toNat = r.reserve0.toNat := toNat_fromUint _ (by decide)
  have h1 : (fromUint r.reserve1).toNat = r.reserve1.toNat := toNat_fromUint _ (by decide)
  have hlt : r.reserve0.toNat * r.reserve1.toNat < 2 ^ 128 * 2 ^ 128 :=
    Nat.mul_lt_mul'' r.reserve0.isLt r.reserve1.isLt
  rw [BitVec.toNat_mul_of_lt (by rw [h0, h1]; exact hlt), h0, h1]

theorem exactK_eq (r : Reserves) :
    exactK r = (r.reserve0.toNat * r.reserve1.toNat * 1000 * 1000 : Nat) := by
  rw [exactK]
  push_cast
  ring

section Bounds

variable (hb0 : b.balance0.toNat < 2 ^ 128) (hb1 : b.balance1.toNat < 2 ^ 128)
  (hout0 : decoded.amount0Out < fromUint r.reserve0) (hout1 : decoded.amount1Out < fromUint r.reserve1)

include hb0 hb1 hout0 hout1

theorem exactPaid_eq : exactPaid r decoded b =
    ((paidWord r.reserve0 decoded.amount0Out b.balance0).toNat *
      (paidWord r.reserve1 decoded.amount1Out b.balance1).toNat : Nat) := by
  rw [Nat.cast_mul, toNat_paidWord hb0 hout0, toNat_paidWord hb1 hout1, exactPaid]

/-- Of the products of the check only the last ones can wrap. -/
theorem unwrapped_iff : Unwrapped r decoded b ↔ InRange r decoded b := by
  have hk := toNat_k r
  rw [InRange, exactPaid_eq hb0 hb1 hout0 hout1, exactK_eq]
  norm_cast
  constructor
  · intro h
    exact ⟨h.paid ▸ BitVec.isLt _, h.k1000000 ▸ BitVec.isLt _⟩
  · rintro ⟨hp, hk'⟩
    have h1000 : (fromUint r.reserve0 * fromUint r.reserve1 * 1000).toNat =
        r.reserve0.toNat * r.reserve1.toNat * 1000 := by
      rw [BitVec.toNat_mul_of_lt, hk]
      · rfl
      · rw [hk]
        exact (Nat.le_mul_of_pos_right _ (by decide)).trans_lt hk'
    refine ⟨toNat_scaled hb0, toNat_scaled hb1, toNat_fee hb0 hout0, toNat_fee hb1 hout1,
      BitVec.toNat_mul_of_lt hp, hk, h1000, ?_⟩
    rw [BitVec.toNat_mul_of_lt, h1000]
    · rfl
    · rw [h1000]
      exact hk'

theorem feeCheck_iff (h : InRange r decoded b) :
    feeCheck r decoded b ↔ exactK r ≤ exactPaid r decoded b := by
  have hu := (unwrapped_iff hb0 hb1 hout0 hout1).mpr h
  change ¬ paidWord r.reserve0 decoded.amount0Out b.balance0 *
    paidWord r.reserve1 decoded.amount1Out b.balance1 < _ ↔ _
  rw [BitVec.lt_def, hu.paid, hu.k1000000, Nat.not_lt, exactPaid_eq hb0 hb1 hout0 hout1, exactK_eq,
    Nat.cast_le]

end Bounds

end Wrapping

section Commits

variable {κ W : Type} [DecidableEq κ] {api : Api κ W} {abi : PairAbi} {callData : Buffer}
  {s t : State κ W} {decoded : SwapArgs} {b : Balances}

/-- What `swap` does between its first checks and its last ones: it pays out
and observes the balances. -/
def swapObserves (api : Api κ W) (decoded : SwapArgs) : Program κ W Balances := do
  let token0 ← getToken0 api
  let token1 ← getToken1 api
  payout api token0 decoded.recipient decoded.amount0Out
  payout api token1 decoded.recipient decoded.amount1Out
  observeBalances api token0 token1

/-- The checks `swap` makes on the state, its arguments and the balances observed. -/
structure SwapPasses (api : Api κ W) (abi : PairAbi) (callData : Buffer) (s : State κ W)
    (decoded : SwapArgs) (b : Balances) : Prop where
  unlocked : slots api s slotUnlocked = 1
  decodes : abi.swapCall callData = some decoded
  someOut : ¬ (decoded.amount0Out = 0 ∧ decoded.amount1Out = 0)
  out0 : decoded.amount0Out < fromUint (reserves api s).reserve0
  out1 : decoded.amount1Out < fromUint (reserves api s).reserve1
  recipient0 : decoded.recipient ≠ token0 api s
  recipient1 : decoded.recipient ≠ token1 api s
  observes : value (swapObserves api decoded (locked api s)) = some b
  someIn : ¬ (amountIn b.balance0 (fromUint (reserves api s).reserve0) decoded.amount0Out = 0 ∧
    amountIn b.balance1 (fromUint (reserves api s).reserve1) decoded.amount1Out = 0)
  fee : feeCheck (reserves api s) decoded b
  fits0 : b.balance0.toNat < 2 ^ 128
  fits1 : b.balance1.toNat < 2 ^ 128
  clock : (clock api).toNat < 2 ^ 32

omit [DecidableEq κ] in
theorem swapObserves_ok : swapObserves api decoded s = .ok b t ↔ ∃ u v,
    payout api (token0 api s) decoded.recipient decoded.amount0Out s = .ok () u ∧
    payout api (token1 api s) decoded.recipient decoded.amount1Out u = .ok () v ∧
    observeBalances api (token0 api s) (token1 api s) v = .ok b t := by
  simp only [swapObserves, bind_ok, getToken0_ok, getToken1_ok, exists_and_left, exists_eq_left',
    and_assoc, exists_unit]

theorem swapPasses_of_swap (h : swap api abi callData s = .ok () t)
    (hd : abi.swapCall callData = some decoded)
    (hb : value (swapObserves api decoded (locked api s)) = some b) :
    SwapPasses api abi callData s decoded b := by
  obtain ⟨hu, decoded', b', u, v, hd', hs, hv, -⟩ := swap_ok.mp h
  obtain rfl : decoded' = decoded := Option.some.inj (hd'.symm.trans hd)
  obtain ⟨ho, ho0, ho1, hr0, hr1, u', v', hp0, hp1, hobs, hin, hfee⟩ := swapSettle_ok.mp hs
  have hb' := value_eq_some.mpr ⟨_, swapObserves_ok.mpr ⟨u', v', hp0, hp1, hobs⟩⟩
  obtain rfl : b' = b := Option.some.inj (hb'.symm.trans hb)
  rw [reserves_locked] at ho0 ho1 hin hfee
  rw [token0_locked] at hr0
  rw [token1_locked] at hr1
  obtain ⟨hf0, hf1, hc, -⟩ := updateReserves_ok.mp hv
  exact ⟨hu, hd, ho, ho0, ho1, hr0, hr1, hb, hin, hfee, hf0, hf1, hc⟩

theorem SwapPasses.commits (h : SwapPasses api abi callData s decoded b) :
    ∃ t, swap api abi callData s = .ok () t := by
  obtain ⟨u, hu⟩ := value_eq_some.mp h.observes
  obtain ⟨u', v', hp0, hp1, hobs⟩ := swapObserves_ok.mp hu
  have hs : swapSettle api decoded (locked api s) = .ok b u := by
    rw [swapSettle_ok, reserves_locked, token0_locked, token1_locked]
    rw [token0_locked, token1_locked] at hobs
    rw [token0_locked] at hp0
    rw [token1_locked] at hp1
    exact ⟨h.someOut, h.out0, h.out1, h.recipient0, h.recipient1, u', v', hp0, hp1, hobs,
      h.someIn, h.fee⟩
  exact ⟨_, swap_ok.mpr ⟨h.unlocked, decoded, b, u, _, h.decodes, hs,
    updateReserves_ok.mpr ⟨h.fits0, h.fits1, h.clock, rfl⟩, rfl⟩⟩

/-- A committing swap passes the exact fee check with no product wrapped,
exactly when the checks it makes leave both sides of the comparison in range. -/
theorem fee_exact_iff (api : Api κ W) (abi : PairAbi) (callData : Buffer) (s : State κ W) :
    (∀ decoded b t, swap api abi callData s = .ok () t → abi.swapCall callData = some decoded →
      value (swapObserves api decoded (locked api s)) = some b →
      exactK (reserves api s) ≤ exactPaid (reserves api s) decoded b ∧
        Unwrapped (reserves api s) decoded b) ↔
    ∀ decoded b, SwapPasses api abi callData s decoded b → InRange (reserves api s) decoded b := by
  constructor
  · intro h decoded b hp
    obtain ⟨t, ht⟩ := hp.commits
    exact (unwrapped_iff hp.fits0 hp.fits1 hp.out0 hp.out1).mp
      (h decoded b t ht hp.decodes hp.observes).2
  · intro h decoded b t hswap hd hb
    have hp := swapPasses_of_swap hswap hd hb
    have hr := h decoded b hp
    exact ⟨(feeCheck_iff hp.fits0 hp.fits1 hp.out0 hp.out1 hr).mp hp.fee,
      (unwrapped_iff hp.fits0 hp.fits1 hp.out0 hp.out1).mpr hr⟩

end Commits

/-- One unit of the first token buys almost all of the second: the left side is
below the right one, but the right one wraps. -/
theorem fee_check_wraps :
    let s : State Key Ledger :=
      { syncedPair (2 ^ 111 + 2 ^ 15) 0 with world := holding (2 ^ 111 + 2 ^ 15 + 1) (2 ^ 127) }
    let decoded : SwapArgs :=
      { amount0Out := 0, amount1Out := 2 ^ 127 - 2 ^ 125 - 2 ^ 120, recipient := 5, data := [] }
    let b : Balances := { balance0 := 2 ^ 111 + 2 ^ 15 + 1, balance1 := 2 ^ 125 + 2 ^ 120 }
    let callData := swapData decoded.amount0Out decoded.amount1Out 5
    (∃ t, swap (ledgerApi 5 9) standardAbi callData s = .ok () t) ∧
      standardAbi.swapCall callData = some decoded ∧
      value (swapObserves (ledgerApi 5 9) decoded (locked (ledgerApi 5 9) s)) = some b ∧
      exactPaid (reserves (ledgerApi 5 9) s) decoded b < exactK (reserves (ledgerApi 5 9) s) := by
  intro s decoded b callData
  refine ⟨value_eq_some.mp ?_, ?_, ?_, ?_⟩ <;> decide +kernel

section Growth

variable {κ W : Type} [DecidableEq κ] {api : Api κ W} {abi : PairAbi} {callData : Buffer}
  {s t : State κ W} {decoded : SwapArgs} {b : Balances} {r : Reserves}

theorem exactIn_nonneg (b r out : Nat) : 0 ≤ exactIn b r out := le_max_left ..

theorem exactAdjusted_le (b r out : Nat) : exactAdjusted b r out ≤ 1000 * b := by
  have := exactIn_nonneg b r out
  rw [exactAdjusted]
  omega

theorem exactAdjusted_lt {r : U128} {b out : U256} (hout : out < fromUint r)
    (hin : amountIn b (fromUint r) out ≠ 0) :
    exactAdjusted b.toNat r.toNat out.toNat < 1000 * b.toNat := by
  have h := toNat_amountIn (b := b) hout
  have hr : (fromUint r).toNat = r.toNat := toNat_fromUint r (by decide)
  have hlt : out.toNat < r.toNat := hr ▸ BitVec.lt_def.mp hout
  have hpos : (amountIn b (fromUint r) out).toNat ≠ 0 := fun h0 => hin (BitVec.eq_of_toNat_eq h0)
  rw [exactAdjusted, exactIn]
  omega

theorem mul_lt_mul_of_le_of_lt_or {a0 a1 c0 c1 : Int} (h0 : 0 ≤ a0) (h1 : 0 ≤ a1) (hpos : 0 < a0 * a1)
    (hle0 : a0 ≤ c0) (hle1 : a1 ≤ c1) (hlt : a0 < c0 ∨ a1 < c1) : a0 * a1 < c0 * c1 := by
  have p0 : 0 < a0 := h0.lt_of_ne' (left_ne_zero_of_mul hpos.ne')
  have p1 : 0 < a1 := h1.lt_of_ne' (right_ne_zero_of_mul hpos.ne')
  rcases hlt with hlt | hlt
  · exact mul_lt_mul hlt hle1 p1 (p0.le.trans hle0)
  · exact mul_lt_mul' hle0 hlt h1 (p0.trans_le hle0)

theorem inRange_of_lt (hb0 : b.balance0.toNat < 2 ^ 112) (hb1 : b.balance1.toNat < 2 ^ 112)
    (hr0 : r.reserve0.toNat < 2 ^ 112) (hr1 : r.reserve1.toNat < 2 ^ 112)
    (hout0 : decoded.amount0Out < fromUint r.reserve0)
    (hout1 : decoded.amount1Out < fromUint r.reserve1) : InRange r decoded b := by
  have w0 := toNat_paidWord (hb0.trans (by decide)) hout0
  have w1 := toNat_paidWord (hb1.trans (by decide)) hout1
  have l0 := exactAdjusted_le b.balance0.toNat r.reserve0.toNat decoded.amount0Out.toNat
  have l1 := exactAdjusted_le b.balance1.toNat r.reserve1.toNat decoded.amount1Out.toNat
  constructor
  · calc exactPaid r decoded b
        ≤ (1000 * b.balance0.toNat) * (1000 * b.balance1.toNat) :=
          mul_le_mul l0 l1 (w1 ▸ Int.natCast_nonneg _) (by positivity)
      _ ≤ (1000 * 2 ^ 112) * (1000 * 2 ^ 112) := by
          gcongr
          · exact_mod_cast hb0.le
          · exact_mod_cast hb1.le
      _ < 2 ^ 256 := by norm_num
  · calc exactK r ≤ 10 ^ 6 * 2 ^ 112 * 2 ^ 112 := by
          unfold exactK
          gcongr
          · exact_mod_cast hr0.le
          · exact_mod_cast hr1.le
      _ < 2 ^ 256 := by norm_num

theorem SwapPasses.grows (hp : SwapPasses api abi callData s decoded b)
    (hr0 : (reserves api s).reserve0.toNat < 2 ^ 112) (hr1 : (reserves api s).reserve1.toNat < 2 ^ 112)
    (hb0 : b.balance0.toNat < 2 ^ 112) (hb1 : b.balance1.toNat < 2 ^ 112) :
    (reserves api s).reserve0.toNat * (reserves api s).reserve1.toNat <
      b.balance0.toNat * b.balance1.toNat := by
  have hk := (feeCheck_iff hp.fits0 hp.fits1 hp.out0 hp.out1
    (inRange_of_lt hb0 hb1 hr0 hr1 hp.out0 hp.out1)).mp hp.fee
  have w0 := toNat_paidWord hp.fits0 hp.out0
  have w1 := toNat_paidWord hp.fits1 hp.out1
  have p0 := reserve_pos hp.out0
  have p1 := reserve_pos hp.out1
  have hpos : 0 < exactPaid (reserves api s) decoded b :=
    lt_of_lt_of_le (by unfold exactK; positivity) hk
  have hin := Decidable.not_and_iff_or_not.mp hp.someIn
  have hlt := mul_lt_mul_of_le_of_lt_or (w0 ▸ Int.natCast_nonneg _) (w1 ▸ Int.natCast_nonneg _) hpos
    (exactAdjusted_le ..) (exactAdjusted_le ..)
    (hin.imp (exactAdjusted_lt hp.out0) (exactAdjusted_lt hp.out1))
  have hlt' := hk.trans_lt hlt
  rw [exactK] at hlt'
  zify
  linarith

/-- A swap that commits within the declared width strictly grows the product
of the reserves. -/
theorem swap_grows_k (h : swap api abi callData s = .ok () t)
    (hd : abi.swapCall callData = some decoded)
    (hb : value (swapObserves api decoded (locked api s)) = some b)
    (hr0 : (reserves api s).reserve0.toNat < 2 ^ 112) (hr1 : (reserves api s).reserve1.toNat < 2 ^ 112)
    (hb0 : b.balance0.toNat < 2 ^ 112) (hb1 : b.balance1.toNat < 2 ^ 112) :
    (reserves api s).reserve0.toNat * (reserves api s).reserve1.toNat <
      b.balance0.toNat * b.balance1.toNat :=
  (swapPasses_of_swap h hd hb).grows hr0 hr1 hb0 hb1

end Growth

theorem swap_grows_k_sample :
    let s : State Key Ledger :=
      { syncedPair (2 ^ 20) (2 ^ 20) with world := holding (2 ^ 20 + 10000) (2 ^ 20) }
    let b : Balances := { balance0 := 2 ^ 20 + 10000, balance1 := 2 ^ 20 - 9000 }
    (reserves (ledgerApi 5 9) s).reserve0.toNat * (reserves (ledgerApi 5 9) s).reserve1.toNat <
      b.balance0.toNat * b.balance1.toNat := by
  intro s b
  let decoded : SwapArgs := { amount0Out := 0, amount1Out := 9000, recipient := 5, data := [] }
  have h : swap (ledgerApi 5 9) standardAbi (swapData 0 9000 5) s = .ok () _ :=
    ok_of_value (by decide +kernel)
  have hd : standardAbi.swapCall (swapData 0 9000 5) = some decoded := by decide +kernel
  have hb : value (swapObserves (ledgerApi 5 9) decoded (locked (ledgerApi 5 9) s)) = some b := by
    decide +kernel
  exact swap_grows_k h hd hb (by decide +kernel) (by decide +kernel) (by decide) (by decide)

end RiscVContracts.FeeCheck
