import RiscVContracts.Lib.Market
import RiscVContracts.Uniswap.Backing
import RiscVContracts.Uniswap.RoundTrip
import RiscVContracts.Uniswap.SwapPrice

namespace RiscVContracts.Trades

open Programs Bytes Host Storage Pair PairView PairSpec PairSlots Calldata Symbolic Tokens Runs FeeCheck
  ShareValue RoundTrip SwapPrice Backing Market

section Check

theorem exactAdjusted_le_weigh (b r out : Nat) : exactAdjusted b r out ≤ (weigh 997 3 r b : Nat) := by
  rw [exactAdjusted, exactIn, weigh]
  omega

variable {r : Reserves} {decoded : SwapArgs} {b : Balances}

/-- The exact fee check is the acceptance of a market that keeps three per mille. -/
theorem admits_of_exact
    (h1 : 0 ≤ exactAdjusted b.balance1.toNat r.reserve1.toNat decoded.amount1Out.toNat)
    (h : exactK r ≤ exactPaid r decoded b) :
    Admits 997 3 r.reserve0.toNat r.reserve1.toNat b.balance0.toNat b.balance1.toNat := by
  have hle := mul_le_mul (exactAdjusted_le_weigh b.balance0.toNat r.reserve0.toNat decoded.amount0Out.toNat)
    (exactAdjusted_le_weigh b.balance1.toNat r.reserve1.toNat decoded.amount1Out.toNat) h1
    (Int.natCast_nonneg _)
  have hk : ((10 ^ 6 * (r.reserve0.toNat * r.reserve1.toNat) : Nat) : Int) = exactK r := by
    rw [exactK]
    push_cast
    ring
  rw [Admits, show (997 + 3) ^ 2 = 10 ^ 6 by norm_num, ← Int.ofNat_le, hk, Nat.cast_mul]
  exact h.trans hle

variable {κ W : Type} [DecidableEq κ] {api : Api κ W} {abi : PairAbi} {callData : Buffer} {s : State κ W}

theorem swap_admits (hp : SwapPasses api abi callData s decoded b)
    (hr0 : (reserves api s).reserve0.toNat < 2 ^ 108) (hb0 : b.balance0.toNat < 2 ^ 112)
    (hb1 : b.balance1.toNat < 2 ^ 112) :
    Admits 997 3 (stored api s).1 (stored api s).2 b.balance0.toNat b.balance1.toNat := by
  have w1 := toNat_paidWord hp.fits1 hp.out1
  have n1 := w1 ▸ Int.natCast_nonneg _
  have hin : InRange (reserves api s) decoded b := by
    constructor
    · calc exactPaid (reserves api s) decoded b
          ≤ (1000 * b.balance0.toNat) * (1000 * b.balance1.toNat) :=
            mul_le_mul (exactAdjusted_le ..) (exactAdjusted_le ..) n1 (by positivity)
        _ ≤ (1000 * 2 ^ 112) * (1000 * 2 ^ 112) := by
            gcongr
            · exact_mod_cast hb0.le
            · exact_mod_cast hb1.le
        _ < 2 ^ 256 := by norm_num
    · have hr1 := (reserves api s).reserve1.isLt
      calc exactK (reserves api s) ≤ 10 ^ 6 * 2 ^ 108 * 2 ^ 128 := by
            unfold exactK
            gcongr
            · exact_mod_cast hr0.le
            · exact_mod_cast hr1.le
        _ < 2 ^ 256 := by norm_num
  have hfee := (feeCheck_iff hp.fits0 hp.fits1 hp.out0 hp.out1 hin).mp hp.fee
  rw [← reserve0_eq_stored]
  exact (admits_of_exact n1 hfee).of_larger (stored_le_reserve1 s)

end Check

section Run

variable {κ W : Type} [DecidableEq κ] {api : Api κ W} {abi : PairAbi} {view : W → Ledger}

/-- A call that is no deposit or withdrawal of liquidity, after nothing but
income of the pair. The first balance leaves room for the fee check. -/
structure Trading (api : Api κ W) (view : W → Ledger) (tx : Tx W) (s : State κ W) : Prop where
  income0 : (held api view s).balance0.toNat ≤ (held api view (tx.before s)).balance0.toNat
  income1 : (held api view s).balance1.toNat ≤ (held api view (tx.before s)).balance1.toNat
  narrow0 : (held api view (tx.before s)).balance0.toNat < 2 ^ 108
  narrow1 : (held api view (tx.before s)).balance1.toNat < 2 ^ 112
  mint : pairFn tx.callData ≠ some .mint
  burn : pairFn tx.callData ≠ some .burn

structure Traded (api : Api κ W) (view : W → Ledger) (s t : State κ W) : Prop where
  admits : Admits 997 3 (stored api s).1 (stored api s).2 (stored api t).1 (stored api t).2
  backed : Backed api view t
  token0 : slots api t slotToken0 = slots api s slotToken0
  token1 : slots api t slotToken1 = slots api s slotToken1
  supply : totalSupply api t = totalSupply api s

omit [DecidableEq κ] in
theorem Traded.trans {s t u : State κ W} (h : Traded api view s t) (h' : Traded api view t u) :
    Traded api view s u :=
  ⟨h.admits.trans (by decide) h'.admits, h'.backed, h'.token0.trans h.token0, h'.token1.trans h.token1,
    h'.supply.trans h.supply⟩

omit [DecidableEq κ] in
theorem traded_of_slots {s t : State κ W} (hs : Backed api view s) (ht : slots api t = slots api s)
    (hw : view t.world = view s.world) : Traded api view s t := by
  have hst := stored_of_slots ht
  have hheld : held api view t = held api view s := held_of_world (by rw [ht]) (by rw [ht]) hw
  refine ⟨by rw [hst]; exact .of_le le_rfl le_rfl, ⟨?_, ?_⟩, by rw [ht], by rw [ht], congrFun ht _⟩
  · rw [hst, hheld]
    exact hs.balance0
  · rw [hst, hheld]
    exact hs.balance1

variable {callData : Buffer} {s t : State κ W}
  (std : StandardTokens api view {x | x = token0 api s ∨ x = token1 api s})
  (hne : token0 api s ≠ token1 api s) (sep : Separated api) (keeps : KeepsSlots api)

include std hne sep keeps

theorem traded_of_executed (hset : slots api s slotToken0 ≠ 0) (hs : Backed api view s)
    (hw0 : (held api view s).balance0.toNat < 2 ^ 108) (hw1 : (held api view s).balance1.toNat < 2 ^ 112)
    {f : PairFn} (hm : f ≠ .mint) (hb : f ≠ .burn) (h : Executed api abi callData s t f) :
    Traded api view s t := by
  have hw0' := hw0.trans (show 2 ^ 108 < 2 ^ 112 by decide)
  cases h with
  | view _ ht =>
      obtain rfl := ht
      exact traded_of_slots hs rfl rfl
  | initializePair hi =>
      obtain ⟨decoded, -, -, h0, -⟩ := initializePair_slots hi
      exact absurd h0 hset
  | mint _ => exact absurd rfl hm
  | burn _ => exact absurd rfl hb
  | swap hw =>
      obtain ⟨-, decoded, b, u, v, hd, -⟩ := swap_ok.mp hw
      obtain ⟨hclosed, -, -, b, hp, hst, hle0, hle1⟩ := swap_settled std keeps hne hd hw0' hw1 hw
      obtain ⟨_, _, _, -, -, -, -, hsl⟩ := swap_slots keeps hw
      refine ⟨?_, hclosed.backed, ?_, ?_, ?_⟩
      · rw [hst]
        apply swap_admits hp _ (hle0.trans_lt hw0') (hle1.trans_lt hw1)
        rw [reserve0_eq_stored]
        exact hs.balance0.trans_lt hw0
      · rw [hsl, Function.update_of_ne (by decide)]
      · rw [hsl, Function.update_of_ne (by decide)]
      · rw [totalSupply, hsl, Function.update_of_ne (by decide), totalSupply]
  | skim hk =>
      obtain ⟨hback, hst⟩ := skim_backed std keeps hne hs hk
      have hsl := skim_slots keeps hk
      exact ⟨by rw [hst]; exact .of_le le_rfl le_rfl, hback, by rw [hsl], by rw [hsl], congrFun hsl _⟩
  | sync hy =>
      obtain ⟨hclosed, -, -, hst⟩ := sync_settled std keeps hw0' hw1 hy
      obtain ⟨_, _, -, -, -, hsl⟩ := sync_slots keeps hy
      refine ⟨?_, hclosed.backed, ?_, ?_, ?_⟩
      · rw [hst]
        exact .of_le hs.balance0 hs.balance1
      · rw [hsl, Function.update_of_ne (by decide)]
      · rw [hsl, Function.update_of_ne (by decide)]
      · rw [totalSupply, hsl, Function.update_of_ne (by decide), totalSupply]
  | approve ha => exact traded_of_slots hs (approve_slots sep ha) (by rw [approve_world ha])
  | transfer htr => exact traded_of_slots hs (transfer_slots sep htr) (by rw [transfer_world htr])
  | transferFrom htr =>
      exact traded_of_slots hs (transferFrom_slots sep htr) (by rw [transferFrom_world htr])

omit std hne sep keeps [DecidableEq κ] in
theorem traded_before {tx : Tx W} (hs : Backed api view s) (htx : Trading api view tx s) :
    Traded api view s (tx.before s) :=
  ⟨.of_le le_rfl le_rfl, ⟨hs.balance0.trans htx.income0, hs.balance1.trans htx.income1⟩, rfl, rfl, rfl⟩

theorem traded_step (hset : slots api s slotToken0 ≠ 0) (hs : Backed api view s) {tx : Tx W}
    (htx : Trading api view tx s) : Traded api view s (step api abi tx s) := by
  have hbefore := traded_before hs htx
  obtain ⟨f, hf, hx⟩ | h := step_cases api abi tx s
  · have hstd := standardTokens_of_tokens (t := tx.before s) std rfl rfl tx
    have hm : f ≠ .mint := fun he => htx.mint (hf.trans (congrArg some he))
    have hb : f ≠ .burn := fun he => htx.burn (hf.trans (congrArg some he))
    have hk := traded_of_executed hstd hne (separated_api sep tx) keeps hset
      ⟨hbefore.backed.balance0, hbefore.backed.balance1⟩ htx.narrow0 htx.narrow1 hm hb hx
    exact hbefore.trans ⟨hk.admits, ⟨hk.backed.balance0, hk.backed.balance1⟩, hk.token0, hk.token1,
      hk.supply⟩
  · rw [h]
    exact hbefore

theorem traded_states (hset : slots api s slotToken0 ≠ 0) (hs : Backed api view s) (txs : List (Tx W))
    (h : Steps (step api abi) (Trading api view) txs s) :
    ∀ t ∈ states (step api abi) txs s, Traded api view s t := by
  have hstart : Traded api view s s := ⟨.of_le le_rfl le_rfl, hs, rfl, rfl, rfl⟩
  refine invariant_states (C := Trading api view) (fun tx t htx ht => ?_) txs hstart h
  obtain ⟨h0, h1⟩ := tokens_of_slots ht.token0 ht.token1
  have hstd : StandardTokens api view {x | x = token0 api t ∨ x = token1 api t} := by rwa [h0, h1]
  have hne' : token0 api t ≠ token1 api t := by rwa [h0, h1]
  exact ht.trans (traded_step hstd hne' sep keeps (by rwa [ht.token0]) ht.backed htx)

/-- However trades are split, ordered and sent back and forth, what they come
to is one swap that the fee check accepts: no more leaves the reserve of one
token than the price of what came into the other. -/
theorem trades_admissible (hset : slots api s slotToken0 ≠ 0) (hs : Backed api view s)
    (txs : List (Tx W)) (h : Steps (step api abi) (Trading api view) txs s) :
    ∀ t ∈ states (step api abi) txs s,
      Admits 997 3 (stored api s).1 (stored api s).2 (stored api t).1 (stored api t).2 ∧
      (0 < (stored api s).1 → (stored api s).1 ≤ (stored api t).1 → (stored api s).2 - (stored api t).2 ≤
        quote (stored api s).1 (stored api s).2 ((stored api t).1 - (stored api s).1)) ∧
      (0 < (stored api s).2 → (stored api s).2 ≤ (stored api t).2 → (stored api s).1 - (stored api t).1 ≤
        quote (stored api s).2 (stored api s).1 ((stored api t).2 - (stored api s).2)) := by
  intro t ht
  have hk := (traded_states std hne sep keeps hset hs txs h t ht).admits
  exact ⟨hk, hk.paid_le (by decide), hk.swap.paid_le (by decide)⟩

end Run

section Sample

def sellTx (dy : U256) : Tx Ledger where
  caller := 5
  now := Vector.replicate 32 0
  callData := swapData 0 dy 5
  outside ledger := Function.update ledger 1 (Function.update (ledger 1) 9 (ledger 1 9 + 2 ^ 16))

theorem trades_admissible_sample :
    let api := ledgerApi 5 9
    let s : State Key Ledger := mintedPair (2 ^ 20) (2 ^ 20)
    let t := [sellTx 61000, sellTx 54000].foldl (fun s tx => step api standardAbi tx s) s
    stored api s = (2 ^ 20, 2 ^ 20) ∧ stored api t = (2 ^ 20 + 2 ^ 17, 2 ^ 20 - 115000) ∧
      (stored api s).2 - (stored api t).2 ≤
        quote (stored api s).1 (stored api s).2 ((stored api t).1 - (stored api s).1) := by
  intro api s t
  have trading (dy : U256) (u : State Key Ledger)
      (h : (held api id u).balance0.toNat ≤ (held api id ((sellTx dy).before u)).balance0.toNat ∧
        (held api id u).balance1.toNat ≤ (held api id ((sellTx dy).before u)).balance1.toNat ∧
        (held api id ((sellTx dy).before u)).balance0.toNat < 2 ^ 108 ∧
        (held api id ((sellTx dy).before u)).balance1.toNat < 2 ^ 112 ∧
        pairFn (sellTx dy).callData = some .swap) : Trading api id (sellTx dy) u :=
    ⟨h.1, h.2.1, h.2.2.1, h.2.2.2.1, by rw [h.2.2.2.2]; decide, by rw [h.2.2.2.2]; decide⟩
  have hsteps : Steps (step api standardAbi) (Trading api id) [sellTx 61000, sellTx 54000] s :=
    ⟨trading _ _ (by decide +kernel), trading _ _ (by decide +kernel), trivial⟩
  have hback : Backed api id s := ⟨by decide +kernel, by decide +kernel⟩
  have h := trades_admissible (standardTokens_ledger rfl _) (by decide +kernel)
    (freeKeccak_ledgerApi 5 9).separated (noCallback_ledger rfl).keepsSlots (by decide +kernel) hback
    [sellTx 61000, sellTx 54000] hsteps t (foldl_mem_states ..)
  exact ⟨by decide +kernel, by decide +kernel, h.2.1 (by decide +kernel) (by decide +kernel)⟩

end Sample

end RiscVContracts.Trades
