import RiscVContracts.Uniswap.Trades

namespace RiscVContracts.ShareRuns

open Programs Bytes Host Storage Pair PairView PairSpec PairSlots Calldata Symbolic Tokens Runs Shares
  FeeCheck Deposits ShareValue RoundTrip Backing Market Trades

variable {κ W : Type} [DecidableEq κ] {api : Api κ W} {abi : PairAbi} {view : W → Ledger}

/-- A call of a pair with a supply that its own LP tokens do not exceed, after
nothing but income of the pair, all within the declared widths; a mint finds
the second reserve read covered. -/
structure Sharing (api : Api κ W) (view : W → Ledger) (tx : Tx W) (s : State κ W) : Prop where
  supply_pos : 0 < (totalSupply api s).toNat
  supply_lt : (totalSupply api s).toNat < 2 ^ 112
  own_le : (lp api s api.address).toNat ≤ (totalSupply api s).toNat
  income0 : (held api view s).balance0.toNat ≤ (held api view (tx.before s)).balance0.toNat
  income1 : (held api view s).balance1.toNat ≤ (held api view (tx.before s)).balance1.toNat
  narrow0 : (held api view (tx.before s)).balance0.toNat < 2 ^ 108
  narrow1 : (held api view (tx.before s)).balance1.toNat < 2 ^ 112
  readable : pairFn tx.callData = some .mint →
    (reserves api s).reserve1.toNat ≤ (held api view (tx.before s)).balance1.toNat

/-- What a run of calls keeps from its first state on: the product of the
reserve fields for each share squared does not fall. -/
structure ShareKept (api : Api κ W) (view : W → Ledger) (s t : State κ W) : Prop where
  value : (stored api s).1 * (stored api s).2 * (totalSupply api t).toNat ^ 2 ≤
    (stored api t).1 * (stored api t).2 * (totalSupply api s).toNat ^ 2
  backed : Backed api view t
  token0 : slots api t slotToken0 = slots api s slotToken0
  token1 : slots api t slotToken1 = slots api s slotToken1

omit [DecidableEq κ] in
theorem ShareKept.trans {s t u : State κ W} (hpos : 0 < (totalSupply api t).toNat)
    (h : ShareKept api view s t) (h' : ShareKept api view t u) : ShareKept api view s u := by
  refine ⟨?_, h'.backed, h'.token0.trans h.token0, h'.token1.trans h.token1⟩
  apply Nat.le_of_mul_le_mul_right _ (Nat.pow_pos (n := 2) hpos)
  have hk := h.value
  have hk' := h'.value
  calc (stored api s).1 * (stored api s).2 * (totalSupply api u).toNat ^ 2 * (totalSupply api t).toNat ^ 2
      = (stored api s).1 * (stored api s).2 * (totalSupply api t).toNat ^ 2 *
          (totalSupply api u).toNat ^ 2 := by ring
    _ ≤ (stored api t).1 * (stored api t).2 * (totalSupply api s).toNat ^ 2 *
          (totalSupply api u).toNat ^ 2 := Nat.mul_le_mul_right _ hk
    _ = (stored api t).1 * (stored api t).2 * (totalSupply api u).toNat ^ 2 *
          (totalSupply api s).toNat ^ 2 := by ring
    _ ≤ (stored api u).1 * (stored api u).2 * (totalSupply api t).toNat ^ 2 *
          (totalSupply api s).toNat ^ 2 := Nat.mul_le_mul_right _ hk'
    _ = (stored api u).1 * (stored api u).2 * (totalSupply api s).toNat ^ 2 *
          (totalSupply api t).toNat ^ 2 := by ring

omit [DecidableEq κ] in
theorem shareKept_of_traded {s t : State κ W} (h : Traded api view s t) : ShareKept api view s t :=
  ⟨by rw [h.supply]; exact Nat.mul_le_mul_right _ (h.admits.product_le (by decide)), h.backed, h.token0,
    h.token1⟩

section Step

variable {callData : Buffer} {s t : State κ W}
  (std : StandardTokens api view {x | x = token0 api s ∨ x = token1 api s})
  (hne : token0 api s ≠ token1 api s) (sep : Separated api) (keeps : KeepsSlots api)
  (hs : Backed api view s) (hw0 : (held api view s).balance0.toNat < 2 ^ 108)
  (hw1 : (held api view s).balance1.toNat < 2 ^ 112) (hpos : 0 < (totalSupply api s).toNat)
  (hlt : (totalSupply api s).toNat < 2 ^ 112)

include std sep keeps hs hw0 hw1 hpos hlt

theorem mint_shareKept {l : U256} (hread : (reserves api s).reserve1.toNat ≤ (held api view s).balance1.toNat)
    (h : mint api abi callData s = .ok l t) : ShareKept api view s t := by
  have hw0' := hw0.trans (show 2 ^ 108 < 2 ^ 112 by decide)
  obtain ⟨hclosed, -, -, hst⟩ := mint_settled std keeps sep hw0' hw1 h
  obtain ⟨_, _, _, -, -, -, -, hsl⟩ := mint_slots sep keeps h
  have hts : totalSupply api s ≠ 0 := fun h0 => absurd hpos (by rw [h0]; decide)
  obtain ⟨⟨_, hp⟩, hl⟩ := mint_held std keeps hts h
  have hr0 : (reserves api s).reserve0.toNat = (stored api s).1 := reserve0_eq_stored s
  have hcov : Covered (reserves api s) (held api view s) (totalSupply api s) l :=
    hl ▸ covered_issued (hr0 ▸ hs.balance0) hread
  obtain ⟨hc0, hc1⟩ := hcov.nat
  rw [hr0] at hc0
  have hsupply : (totalSupply api t).toNat = (totalSupply api s).toNat + l.toNat := by
    have hne0 : (stored api s).1 ≠ 0 := fun h0 => hp.divisor0
      (BitVec.eq_of_toNat_eq ((toNat_fromUint _ (by decide)).trans (hr0.trans h0)))
    have hl' : l.toNat < 2 ^ 112 * 2 ^ 112 :=
      calc l.toNat ≤ l.toNat * (stored api s).1 := Nat.le_mul_of_pos_right _ (Nat.pos_of_ne_zero hne0)
        _ ≤ ((held api view s).balance0.toNat - (stored api s).1) * (totalSupply api s).toNat := hc0
        _ < 2 ^ 112 * 2 ^ 112 := Nat.mul_lt_mul'' ((Nat.sub_le _ _).trans_lt hw0') hlt
    rw [supply_mint sep keeps h, supplyAfterMint, if_neg hts, BitVec.toNat_add_of_lt (by omega)]
  have hle1 : (stored api s).2 ≤ (reserves api s).reserve1.toNat := stored_le_reserve1 s
  have hc1' : l.toNat * (stored api s).2 ≤
      ((held api view s).balance1.toNat - (stored api s).2) * (totalSupply api s).toNat :=
    calc l.toNat * (stored api s).2 ≤ l.toNat * (reserves api s).reserve1.toNat :=
          Nat.mul_le_mul_left _ hle1
      _ ≤ ((held api view s).balance1.toNat - (reserves api s).reserve1.toNat) *
          (totalSupply api s).toNat := hc1
      _ ≤ ((held api view s).balance1.toNat - (stored api s).2) * (totalSupply api s).toNat :=
          Nat.mul_le_mul_right _ (Nat.sub_le_sub_left hle1 _)
  refine ⟨?_, hclosed.backed, ?_, ?_⟩
  · rw [hst, hsupply]
    exact (NotDiluted.deposit hs.balance0 hc0).mul (.deposit hs.balance1 hc1')
  · rw [hsl, Function.update_of_ne (by decide), Function.update_of_ne (by decide)]
  · rw [hsl, Function.update_of_ne (by decide), Function.update_of_ne (by decide)]

include hne

theorem burn_shareKept {p : U256 × U256} (hown : (lp api s api.address).toNat ≤ (totalSupply api s).toNat)
    (h : burn api abi callData s = .ok p t) : ShareKept api view s t := by
  have hw0' := hw0.trans (show 2 ^ 108 < 2 ^ 112 by decide)
  obtain ⟨hclosed, -, -, hlow0, hlow1⟩ := burn_settled std keeps hne sep hw0' hw1 h
  obtain ⟨_, _, _, -, -, -, -, hsl⟩ := burn_slots sep keeps h
  obtain ⟨ha0, ha1⟩ := burn_pays std sep h
  have hl := hown.trans_lt hlt
  have hpart0 := (congrArg BitVec.toNat ha0).symm.trans (toNat_part hl hw0')
  have hpart1 := (congrArg BitVec.toNat ha1).symm.trans (toNat_part hl hw1)
  rw [hpart0] at hlow0
  rw [hpart1] at hlow1
  have hsupply : (totalSupply api t).toNat = (totalSupply api s).toNat - (lp api s api.address).toNat := by
    rw [supply_burn sep keeps h, BitVec.toNat_sub_of_le hown]
  refine ⟨?_, hclosed.backed, ?_, ?_⟩
  · rw [hsupply]
    exact ((NotDiluted.of_le hs.balance0).trans hpos (.withdraw hlow0)).mul
      ((NotDiluted.of_le hs.balance1).trans hpos (.withdraw hlow1))
  · rw [hsl, Function.update_of_ne (by decide), Function.update_of_ne (by decide)]
  · rw [hsl, Function.update_of_ne (by decide), Function.update_of_ne (by decide)]

theorem shareKept_of_executed (hset : slots api s slotToken0 ≠ 0)
    (hown : (lp api s api.address).toNat ≤ (totalSupply api s).toNat) {f : PairFn}
    (hread : f = .mint → (reserves api s).reserve1.toNat ≤ (held api view s).balance1.toNat)
    (h : Executed api abi callData s t f) : ShareKept api view s t := by
  by_cases hm : f = .mint
  · subst f
    cases h with
    | view hv => exact absurd hv (by decide)
    | mint h => exact mint_shareKept std sep keeps hs hw0 hw1 hpos hlt (hread rfl) h
  by_cases hb : f = .burn
  · subst f
    cases h with
    | view hv => exact absurd hv (by decide)
    | burn h => exact burn_shareKept std hne sep keeps hs hw0 hw1 hpos hlt hown h
  exact shareKept_of_traded (traded_of_executed std hne sep keeps hset hs hw0 hw1 hm hb h)

end Step

section Run

variable {s : State κ W} (std : StandardTokens api view {x | x = token0 api s ∨ x = token1 api s})
  (hne : token0 api s ≠ token1 api s) (sep : Separated api) (keeps : KeepsSlots api)

include std hne sep keeps

theorem shareKept_step (hset : slots api s slotToken0 ≠ 0) (hs : Backed api view s) {tx : Tx W}
    (htx : Sharing api view tx s) : ShareKept api view s (step api abi tx s) := by
  have hbefore : Backed api view (tx.before s) :=
    ⟨hs.balance0.trans htx.income0, hs.balance1.trans htx.income1⟩
  have hkept : ShareKept api view s (tx.before s) := ⟨le_rfl, hbefore, rfl, rfl⟩
  obtain ⟨f, hf, hx⟩ | h := step_cases api abi tx s
  · have hstd := standardTokens_of_tokens (t := tx.before s) std rfl rfl tx
    have hread : f = .mint → (reserves api (tx.before s)).reserve1.toNat ≤
        (held api view (tx.before s)).balance1.toNat :=
      fun he => htx.readable (hf.trans (congrArg some he))
    have hk := shareKept_of_executed hstd hne (separated_api sep tx) keeps
      ⟨hbefore.balance0, hbefore.balance1⟩ htx.narrow0 htx.narrow1 htx.supply_pos htx.supply_lt hset
      htx.own_le hread hx
    exact ShareKept.trans (t := tx.before s) htx.supply_pos hkept
      ⟨hk.value, ⟨hk.backed.balance0, hk.backed.balance1⟩, hk.token0, hk.token1⟩
  · rw [h]
    exact hkept

theorem shareKept_states (hset : slots api s slotToken0 ≠ 0) (hs : Backed api view s) (txs : List (Tx W))
    (h : Steps (step api abi) (Sharing api view) txs s) :
    ∀ t ∈ states (step api abi) txs s, ShareKept api view s t := by
  have hstart : ShareKept api view s s := ⟨le_rfl, hs, rfl, rfl⟩
  refine invariant_states (C := Sharing api view) (fun tx t htx ht => ?_) txs hstart h
  obtain ⟨h0, h1⟩ := tokens_of_slots ht.token0 ht.token1
  have hstd : StandardTokens api view {x | x = token0 api t ∨ x = token1 api t} := by rwa [h0, h1]
  have hne' : token0 api t ≠ token1 api t := by rwa [h0, h1]
  exact ht.trans htx.supply_pos (shareKept_step hstd hne' sep keeps (by rwa [ht.token0]) ht.backed htx)

/-- Along a run of any calls a share never loses value: deposits, withdrawals,
trades and donations of anybody leave the product of the reserves, for each
share squared, no lower than they found it. -/
theorem share_value_along_run (hset : slots api s slotToken0 ≠ 0) (hs : Backed api view s)
    (txs : List (Tx W)) (h : Steps (step api abi) (Sharing api view) txs s) :
    ∀ t ∈ states (step api abi) txs s,
      (stored api s).1 * (stored api s).2 * (totalSupply api t).toNat ^ 2 ≤
        (stored api t).1 * (stored api t).2 * (totalSupply api s).toNat ^ 2 :=
  fun t ht => (shareKept_states std hne sep keeps hset hs txs h t ht).value

end Run

theorem share_value_along_run_sample :
    let api := ledgerApi 5 9
    let txs := [sellTx 61000, ledgerTx 5 (encodeCall PairFn.transfer.selector [padAddress 9, 500]),
      ledgerTx 5 (burnData 5)]
    let s : State Key Ledger := mintedPair (2 ^ 20) (2 ^ 20)
    let t := txs.foldl (fun s tx => step api standardAbi tx s) s
    (totalSupply api s = 1000 ∧ totalSupply api t = 500) ∧
      (stored api s).1 * (stored api s).2 * (totalSupply api t).toNat ^ 2 ≤
        (stored api t).1 * (stored api t).2 * (totalSupply api s).toNat ^ 2 := by
  intro api txs s t
  have hsteps : Steps (step api standardAbi) (Sharing api id) txs s := by
    refine ⟨?_, ?_, ?_, trivial⟩ <;> constructor <;> decide +kernel
  have hback : Backed api id s := ⟨by decide +kernel, by decide +kernel⟩
  refine ⟨by decide +kernel, ?_⟩
  exact share_value_along_run (standardTokens_ledger rfl _) (by decide +kernel)
    (freeKeccak_ledgerApi 5 9).separated (noCallback_ledger rfl).keepsSlots (by decide +kernel) hback txs
    hsteps t (foldl_mem_states ..)

end RiscVContracts.ShareRuns
