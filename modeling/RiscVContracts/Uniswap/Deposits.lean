import RiscVContracts.Uniswap.Runs
import Mathlib.Tactic.Linarith

namespace RiscVContracts.Deposits

open Programs Bytes Host Storage Pair PairView PairSpec PairSlots Calldata Symbolic Tokens Runs

section Shares

theorem wrapped_div_mul_le (a ts r : U256) : (a * ts / r).toNat * r.toNat ≤ a.toNat * ts.toNat := by
  rw [BitVec.toNat_udiv, BitVec.toNat_mul]
  exact (Nat.div_mul_le_self _ _).trans (Nat.mod_le _ _)

theorem mintShare_le (ts a0 a1 : U256) (r : Reserves) :
    mintShare ts a0 a1 r ≤ a0 * ts / fromUint r.reserve0 ∧
      mintShare ts a0 a1 r ≤ a1 * ts / fromUint r.reserve1 := by
  simp only [mintShare]
  split
  · rename_i h
    exact ⟨BitVec.le_refl _, BitVec.le_of_lt h⟩
  · rename_i h
    exact ⟨BitVec.not_lt.mp h, BitVec.le_refl _⟩

theorem mintShare_mul_le (ts a0 a1 : U256) (r : Reserves) :
    (mintShare ts a0 a1 r).toNat * r.reserve0.toNat ≤ a0.toNat * ts.toNat ∧
      (mintShare ts a0 a1 r).toNat * r.reserve1.toNat ≤ a1.toNat * ts.toNat := by
  have h0 : (fromUint r.reserve0).toNat = r.reserve0.toNat := toNat_fromUint _ (by decide)
  have h1 : (fromUint r.reserve1).toNat = r.reserve1.toNat := toNat_fromUint _ (by decide)
  obtain ⟨hle0, hle1⟩ := mintShare_le ts a0 a1 r
  constructor
  · have h := wrapped_div_mul_le a0 ts (fromUint r.reserve0)
    rw [h0] at h
    exact (Nat.mul_le_mul_right _ (BitVec.le_def.mp hle0)).trans h
  · have h := wrapped_div_mul_le a1 ts (fromUint r.reserve1)
    rw [h1] at h
    exact (Nat.mul_le_mul_right _ (BitVec.le_def.mp hle1)).trans h

end Shares

section Mint

variable {κ W : Type} [DecidableEq κ] {api : Api κ W} {abi : PairAbi} {callData : Buffer}
  {s t : State κ W} {b : Balances} {ts l : U256} {recipient : Address}

/-- What `mint` reads before it issues shares: the two balances, then the supply. -/
def mintObserves (api : Api κ W) : Program κ W (Balances × U256) := do
  let token0 ← getToken0 api
  let token1 ← getToken1 api
  let b ← observeBalances api token0 token1
  return (b, ← storageGetU256 api slotTotalSupply)

def issued (r : Reserves) (b : Balances) (ts : U256) : U256 :=
  mintShare ts (b.balance0 - fromUint r.reserve0) (b.balance1 - fromUint r.reserve1) r

/-- The checks `mint` makes once there is a supply. -/
structure MintPasses (api : Api κ W) (abi : PairAbi) (callData : Buffer) (s : State κ W)
    (recipient : Address) (b : Balances) (ts : U256) : Prop where
  unlocked : slots api s slotUnlocked = 1
  decodes : abi.mintCall callData = some recipient
  observes : value (mintObserves api (locked api s)) = some (b, ts)
  divisor0 : fromUint (reserves api s).reserve0 ≠ 0
  divisor1 : fromUint (reserves api s).reserve1 ≠ 0
  share : issued (reserves api s) b ts ≠ 0
  fits0 : b.balance0.toNat < 2 ^ 128
  fits1 : b.balance1.toNat < 2 ^ 128
  clock : (clock api).toNat < 2 ^ 32

omit [DecidableEq κ] in
theorem mintObserves_ok : mintObserves api s = .ok (b, ts) t ↔
    observeBalances api (token0 api s) (token1 api s) s = .ok b t ∧ totalSupply api t = ts := by
  simp only [mintObserves, bind_ok, getToken0_ok, getToken1_ok, storageGetU256_ok, pure_ok,
    exists_and_left, exists_eq_left', and_assoc, Prod.mk.injEq]
  constructor
  · rintro ⟨b', u, hb, rfl, rfl, rfl⟩
    exact ⟨hb, rfl⟩
  · rintro ⟨hb, rfl⟩
    exact ⟨b, t, hb, rfl, rfl, rfl⟩

theorem mintObserves_supply (keeps : KeepsSlots api)
    (h : value (mintObserves api (locked api s)) = some (b, ts)) : ts = totalSupply api s := by
  obtain ⟨t, ht⟩ := value_eq_some.mp h
  obtain ⟨hb, rfl⟩ := mintObserves_ok.mp ht
  rw [totalSupply, observeBalances_slots keeps (locked_slotUnlocked s) hb]
  exact totalSupply_locked s

/-- What a mint issues: `l` is credited to the recipient and to nobody else,
and added to the supply. -/
structure Issues (api : Api κ W) (abi : PairAbi) (callData : Buffer) (ts l : U256) (s t : State κ W) :
    Prop where
  credited : ∃ recipient, abi.mintCall callData = some recipient ∧
    lp api t = Function.update (lp api s) recipient (lp api s recipient + l)
  supply : totalSupply api t = ts + l

theorem issues_of_mint (sep : Separated api) {u : State κ W} (h : mint api abi callData s = .ok l t)
    (hb : mintObserves api (locked api s) = .ok (b, ts) u) (hts : ts ≠ 0) :
    Issues api abi callData ts l u t := by
  obtain ⟨-, recipient, b', w, v, hd, hs, hv, rfl⟩ := mint_ok.mp h
  obtain ⟨u', v', hobs, hl, rfl⟩ := mintSettle_ok.mp hs
  obtain ⟨hobs', hsup⟩ := mintObserves_ok.mp hb
  obtain ⟨-, rfl⟩ := EStateM.Result.ok.inj (hobs.symm.trans hobs')
  rw [mintLiquidity, hsup, if_neg hts, laterLiquidity_ok] at hl
  obtain ⟨-, -, -, -, rfl⟩ := hl
  obtain ⟨-, -, -, rfl⟩ := updateReserves_ok.mp hv
  refine ⟨⟨recipient, hd, ?_⟩, ?_⟩
  · rw [unlocked, lp_set_slot sep, lp_set_slot sep, lp_set_balance sep, lp_set_slot sep]
  · rw [totalSupply, unlocked, slots_set_slot, Function.update_of_ne (by decide), slots_set_slot,
      Function.update_of_ne (by decide), slots_set_balance sep, slots_set_slot, Function.update_self]

theorem mintPasses_of_mint (h : mint api abi callData s = .ok l t)
    (hb : value (mintObserves api (locked api s)) = some (b, ts)) (hts : ts ≠ 0) :
    (∃ recipient, MintPasses api abi callData s recipient b ts) ∧ l = issued (reserves api s) b ts := by
  obtain ⟨hu, recipient, b', u, v, hd, hs, hv, -⟩ := mint_ok.mp h
  obtain ⟨u', v', hobs, hl, -⟩ := mintSettle_ok.mp hs
  have hb' := value_eq_some.mpr ⟨_, mintObserves_ok.mpr ⟨hobs, rfl⟩⟩
  obtain ⟨rfl, rfl⟩ := Prod.mk.inj (Option.some.inj (hb'.symm.trans hb))
  rw [mintLiquidity, if_neg hts, laterLiquidity_ok, reserves_locked] at hl
  obtain ⟨h0, h1, hshare, hissued, -⟩ := hl
  obtain ⟨hf0, hf1, hc, -⟩ := updateReserves_ok.mp hv
  exact ⟨⟨recipient, hu, hd, hb, h0, h1, hshare, hf0, hf1, hc⟩, hissued.symm⟩

theorem MintPasses.commits (h : MintPasses api abi callData s recipient b ts) (hts : ts ≠ 0) :
    ∃ t, mint api abi callData s = .ok (issued (reserves api s) b ts) t := by
  obtain ⟨u, hu⟩ := value_eq_some.mp h.observes
  obtain ⟨hobs, hsup⟩ := mintObserves_ok.mp hu
  obtain ⟨v, hl⟩ : ∃ v, laterLiquidity api ts (b.balance0 - fromUint (reserves api s).reserve0)
      (b.balance1 - fromUint (reserves api s).reserve1) (reserves api s) u =
      .ok (issued (reserves api s) b ts) v :=
    ⟨_, laterLiquidity_ok.mpr ⟨h.divisor0, h.divisor1, h.share, rfl, rfl⟩⟩
  obtain ⟨w, hs⟩ : ∃ w, mintSettle api recipient (locked api s) =
      .ok (b, issued (reserves api s) b ts) w := by
    refine ⟨_, mintSettle_ok.mpr ⟨u, v, hobs, ?_, rfl⟩⟩
    rw [mintLiquidity, hsup, if_neg hts, reserves_locked]
    exact hl
  exact ⟨_, mint_ok.mpr ⟨h.unlocked, recipient, b, _, _, h.decodes, hs,
    updateReserves_ok.mpr ⟨h.fits0, h.fits1, h.clock, rfl⟩, rfl⟩⟩

/-- What is over the reserve, over the integers, covers the shares. -/
def Covered (r : Reserves) (b : Balances) (ts l : U256) : Prop :=
  r.reserve0.toNat ≤ b.balance0.toNat ∧ r.reserve1.toNat ≤ b.balance1.toNat ∧
    (l.toNat * r.reserve0.toNat : Int) ≤ (b.balance0.toNat - r.reserve0.toNat) * ts.toNat ∧
    (l.toNat * r.reserve1.toNat : Int) ≤ (b.balance1.toNat - r.reserve1.toNat) * ts.toNat

theorem Covered.nat {r : Reserves} (h : Covered r b ts l) :
    l.toNat * r.reserve0.toNat ≤ (b.balance0.toNat - r.reserve0.toNat) * ts.toNat ∧
      l.toNat * r.reserve1.toNat ≤ (b.balance1.toNat - r.reserve1.toNat) * ts.toNat := by
  obtain ⟨h0, h1, hc0, hc1⟩ := h
  zify [h0, h1]
  exact ⟨hc0, hc1⟩

theorem toNat_sub_fromUint {x : U256} {r : U128} (h : r.toNat ≤ x.toNat) :
    ((x - fromUint r).toNat : Int) = x.toNat - r.toNat := by
  have hr : (fromUint r).toNat = r.toNat := toNat_fromUint r (by decide)
  rw [BitVec.toNat_sub_of_le (by rwa [BitVec.le_def, hr]), hr, Nat.cast_sub h]

/-- No wrapped product can issue more than a real deposit covers. -/
theorem covered_issued {r : Reserves} (h0 : r.reserve0.toNat ≤ b.balance0.toNat)
    (h1 : r.reserve1.toNat ≤ b.balance1.toNat) : Covered r b ts (issued r b ts) := by
  obtain ⟨hs0, hs1⟩ := mintShare_mul_le ts (b.balance0 - fromUint r.reserve0)
    (b.balance1 - fromUint r.reserve1) r
  refine ⟨h0, h1, ?_, ?_⟩
  · rw [← toNat_sub_fromUint h0]
    exact_mod_cast hs0
  · rw [← toNat_sub_fromUint h1]
    exact_mod_cast hs1

/-- One token earns no share: its reserve is zero, or above the product of the
wrapped deposit and the supply, wrapped again. -/
def NoShare (r : U128) (balance ts : U256) : Prop :=
  fromUint r = 0 ∨ (balance - fromUint r) * ts < fromUint r

theorem noShare_iff {r : U128} {balance : U256} :
    NoShare r balance ts ↔ fromUint r = 0 ∨ (balance - fromUint r) * ts / fromUint r = 0 := by
  refine or_congr_right' fun hr => ?_
  have hpos : (fromUint r).toNat ≠ 0 := fun h0 => hr (BitVec.eq_of_toNat_eq h0)
  rw [BitVec.lt_def, ← BitVec.toNat_inj, BitVec.toNat_udiv]
  exact (Nat.div_eq_zero_iff.trans (or_iff_right hpos)).symm

theorem mintShare_eq_zero {a0 a1 : U256} {r : Reserves} : mintShare ts a0 a1 r = 0 ↔
    a0 * ts / fromUint r.reserve0 = 0 ∨ a1 * ts / fromUint r.reserve1 = 0 := by
  simp only [mintShare, BitVec.lt_def, ← BitVec.toNat_inj]
  split <;> simp only [show (0 : U256).toNat = 0 from rfl] <;> omega

/-- A check of `mint` that stops it on a supply: the lock, the decoding, the
shares of the two tokens, the conversions of the balances and of the clock. -/
def MintStopped (api : Api κ W) (abi : PairAbi) (callData : Buffer) (s : State κ W) (b : Balances)
    (ts : U256) : Prop :=
  slots api s slotUnlocked ≠ 1 ∨ abi.mintCall callData = none ∨
    NoShare (reserves api s).reserve0 b.balance0 ts ∨ NoShare (reserves api s).reserve1 b.balance1 ts ∨
    2 ^ 128 ≤ b.balance0.toNat ∨ 2 ^ 128 ≤ b.balance1.toNat ∨ 2 ^ 32 ≤ (clock api).toNat

theorem mintPasses_iff (hb : value (mintObserves api (locked api s)) = some (b, ts)) :
    (∃ recipient, MintPasses api abi callData s recipient b ts) ↔ ¬ MintStopped api abi callData s b ts := by
  simp only [MintStopped, noShare_iff, not_or, not_not, Nat.not_le]
  constructor
  · rintro ⟨recipient, h⟩
    obtain ⟨h0, h1⟩ := not_or.mp (mintShare_eq_zero.not.mp h.share)
    exact ⟨h.unlocked, by simp [h.decodes], ⟨h.divisor0, h0⟩, ⟨h.divisor1, h1⟩, h.fits0, h.fits1, h.clock⟩
  · rintro ⟨hu, hd, ⟨hr0, h0⟩, ⟨hr1, h1⟩, hf0, hf1, hc⟩
    obtain ⟨recipient, hd⟩ := Option.ne_none_iff_exists'.mp hd
    exact ⟨recipient, hu, hd, hb, hr0, hr1, mintShare_eq_zero.not.mpr (not_or.mpr ⟨h0, h1⟩), hf0, hf1, hc⟩

/-- Every mint on top of a supply issues no more than a deposit covers, exactly
when the tokens report at least the reserves or a check of `mint` stops it. -/
theorem mint_covered_iff (sep : Separated api) (abi : PairAbi) (callData : Buffer) (s : State κ W) :
    (∀ w t b ts u, mint api abi callData s = .ok w t →
      mintObserves api (locked api s) = .ok (b, ts) u → ts ≠ 0 →
      ∃ l, Issues api abi callData ts l u t ∧ Covered (reserves api s) b ts l) ↔
    ∀ b ts, value (mintObserves api (locked api s)) = some (b, ts) → ts ≠ 0 →
      ((reserves api s).reserve0.toNat ≤ b.balance0.toNat ∧
        (reserves api s).reserve1.toNat ≤ b.balance1.toNat) ∨ MintStopped api abi callData s b ts := by
  constructor
  · intro h b ts hb hts
    rw [or_iff_not_imp_right, ← mintPasses_iff hb]
    rintro ⟨recipient, hp⟩
    obtain ⟨t, ht⟩ := hp.commits hts
    obtain ⟨u, hu⟩ := value_eq_some.mp hb
    obtain ⟨l, -, h0, h1, -⟩ := h _ t b ts u ht hu hts
    exact ⟨h0, h1⟩
  · intro h w t b ts u hm hu hts
    have hb := value_eq_some.mpr ⟨u, hu⟩
    obtain ⟨hp, hw⟩ := mintPasses_of_mint hm hb hts
    obtain ⟨h0, h1⟩ := (h b ts hb hts).resolve_right ((mintPasses_iff hb).mp hp)
    exact ⟨w, issues_of_mint sep hm hu hts, hw ▸ covered_issued h0 h1⟩

end Mint

/-- Half of the first reserve is gone, and the mint still issues shares. -/
theorem mint_uncovered :
    let s : State Key Ledger :=
      { mintedPair (2 ^ 20) (2 ^ 20) with world := holding (2 ^ 19) (2 ^ 21) }
    let b : Balances := { balance0 := 2 ^ 19, balance1 := 2 ^ 21 }
    (∃ t, mint (ledgerApi 5 9) standardAbi (mintData 5) s = .ok 1000 t ∧
        lp (ledgerApi 5 9) t 5 = lp (ledgerApi 5 9) s 5 + 1000 ∧ totalSupply (ledgerApi 5 9) t = 1000 + 1000) ∧
      value (mintObserves (ledgerApi 5 9) (locked (ledgerApi 5 9) s)) = some (b, 1000) ∧
      b.balance0.toNat < (reserves (ledgerApi 5 9) s).reserve0.toNat := by
  intro s b
  refine ⟨⟨_, ok_of_value (by decide +kernel), ?_, ?_⟩, ?_, ?_⟩ <;> decide +kernel

theorem mint_covered_sample :
    let api := ledgerApi 5 9
    let s : State Key Ledger :=
      { mintedPair (2 ^ 20) (2 ^ 20) with world := holding (2 ^ 20 + 2 ^ 16) (2 ^ 20 + 2 ^ 16) }
    ∃ t b u l, mint api standardAbi (mintData 5) s = .ok 62 t ∧
      mintObserves api (locked api s) = .ok (b, 1000) u ∧ Issues api standardAbi (mintData 5) 1000 l u t ∧
      Covered (reserves api s) b 1000 l := by
  intro api s
  let b : Balances := { balance0 := 2 ^ 20 + 2 ^ 16, balance1 := 2 ^ 20 + 2 ^ 16 }
  have hb : value (mintObserves api (locked api s)) = some (b, 1000) := by decide +kernel
  have hm : mint api standardAbi (mintData 5) s = .ok 62 _ := ok_of_value (by decide +kernel)
  obtain ⟨u, hu⟩ := value_eq_some.mp hb
  have h := mint_covered_iff (freeKeccak_ledgerApi 5 9).separated standardAbi (mintData 5) s
  have hbacked : (reserves api s).reserve0.toNat ≤ b.balance0.toNat ∧
      (reserves api s).reserve1.toNat ≤ b.balance1.toNat := by decide +kernel
  obtain ⟨l, hissues, hcovered⟩ := h.mpr
    (fun b' ts hb' _ => .inl ((Prod.mk.inj (Option.some.inj (hb.symm.trans hb'))).1 ▸ hbacked))
    _ _ b 1000 u hm hu (by decide)
  exact ⟨_, b, u, l, hm, hu, hissues, hcovered⟩

end RiscVContracts.Deposits
