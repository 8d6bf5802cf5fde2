import RiscVContracts.Uniswap.Lifetime
import RiscVContracts.Uniswap.Redemption
import RiscVContracts.Uniswap.ShareRuns
import RiscVContracts.Uniswap.Transfers

namespace RiscVContracts.Exits

open Programs Bytes Host Storage Pair PairView PairSpec PairSlots Calldata Symbolic Tokens Runs Shares
  ShareValue Commits Transfers SplitBurn SwapPrice Backing ShareRuns Redemption

variable {κ W : Type} [DecidableEq κ] {api : Api κ W} {abi : PairAbi} {view : W → Ledger} {s t u : State κ W}

/-- A holder sends `v` LP tokens to the pair, which someone has it burn for `recipient`. -/
structure Leaves (api : Api κ W) (abi : PairAbi) (sending burning : Tx W) (recipient : Address) (v : U256)
    (t : State κ W) : Prop where
  sends : pairFn sending.callData = some .transfer
  sent : abi.transferCall sending.callData = some { recipient := api.address, value := v }
  holder : sending.caller ≠ api.address
  owned : v ≤ lp api t sending.caller
  burns : pairFn burning.callData = some .burn
  burnt : abi.burnCall burning.callData = some recipient
  clock : (clock (burning.api api)).toNat < 2 ^ 32

/-- `v` LP tokens are part of the supply, within the declared widths, and
stand for at least one unit of each token. -/
structure Withdrawable (api : Api κ W) (view : W → Ledger) (v : U256) (t : State κ W) : Prop where
  supply_pos : 0 < (totalSupply api t).toNat
  supply_lt : (totalSupply api t).toNat < 2 ^ 112
  part : (lp api t api.address).toNat + v.toNat ≤ (totalSupply api t).toNat
  narrow0 : (held api view t).balance0.toNat < 2 ^ 112
  narrow1 : (held api view t).balance1.toNat < 2 ^ 112
  unit0 : (totalSupply api t).toNat ≤ v.toNat * (held api view t).balance0.toNat
  unit1 : (totalSupply api t).toNat ≤ v.toNat * (held api view t).balance1.toNat

section Parts

variable {l v b ts : U256}

theorem part_covered (hts : ts.toNat < 2 ^ 112) (hb : b.toNat < 2 ^ 112) (hpos : 0 < ts.toNat)
    (hv : v.toNat ≤ l.toNat) (hl : l.toNat ≤ ts.toNat) (hu : ts.toNat ≤ v.toNat * b.toNat) :
    l * b / ts ≠ 0 ∧ l * b / ts ≤ b := by
  have hx : (l * b / ts).toNat = l.toNat * b.toNat / ts.toNat := toNat_part (hl.trans_lt hts) hb
  have hle : ts.toNat ≤ l.toNat * b.toNat := hu.trans (Nat.mul_le_mul_right _ hv)
  have hone : 0 < l.toNat * b.toNat / ts.toNat := Nat.div_pos hle hpos
  constructor
  · intro h0
    rw [h0] at hx
    exact absurd hone (by rw [← hx]; decide)
  · rw [BitVec.le_def, hx]
    exact Nat.div_le_of_le_mul (Nat.mul_le_mul_right _ hl)

theorem pay_sender_le {balances : Address → U256} {sender recipient : Address} {x : U256}
    (hx : x ≤ balances sender) : pay balances sender recipient x sender ≤ balances sender := by
  rw [pay_sender]
  split
  · exact BitVec.le_refl _
  · rw [BitVec.le_def, BitVec.toNat_sub_of_le hx]
    exact Nat.sub_le _ _

end Parts

variable (api) in
omit [DecidableEq κ] in
theorem redeemable_of_placed (hne : token0 api s ≠ token1 api s) {v : U256} {recipient : Address}
    (h : Withdrawable api view v s) (hp : Placed api view s u v) (hclock : (clock api).toNat < 2 ^ 32) :
    Redeemable api view u recipient ∧
      (worth api view u).1.toNat = ((lp api s api.address).toNat + v.toNat) *
        (held api view s).balance0.toNat / (totalSupply api s).toNat ∧
      (worth api view u).2.toNat = ((lp api s api.address).toNat + v.toNat) *
        (held api view s).balance1.toNat / (totalSupply api s).toNat := by
  obtain ⟨h0, h1, hts, hheld⟩ := hp.reads
  have hsum : (lp api u api.address).toNat = (lp api s api.address).toNat + v.toNat := by
    have hpart := h.part
    have hlt := h.supply_lt
    rw [hp.own, BitVec.toNat_add_of_lt (by omega)]
  have hl : (lp api u api.address).toNat ≤ (totalSupply api s).toNat := hsum ▸ h.part
  have hv : v.toNat ≤ (lp api u api.address).toNat := hsum ▸ Nat.le_add_left ..
  obtain ⟨hn0, hc0⟩ := part_covered h.supply_lt h.narrow0 h.supply_pos hv hl h.unit0
  obtain ⟨hn1, hc1⟩ := part_covered h.supply_lt h.narrow1 h.supply_pos hv hl h.unit1
  have hworth : worth api view u =
      (lp api u api.address * (held api view s).balance0 / totalSupply api s,
        lp api u api.address * (held api view s).balance1 / totalSupply api s) := by
    rw [worth, hheld, hts]
  have hne' : token0 api u ≠ token1 api u := by rwa [h0, h1]
  have hle0 : redeemed api view u recipient (token0 api u) api.address ≤ (held api view s).balance0 := by
    rw [redeemed, paidOut, Function.update_of_ne hne', Function.update_self, hworth, ← hheld]
    exact pay_sender_le (by rw [← hheld] at hc0; exact hc0)
  have hle1 : redeemed api view u recipient (token1 api u) api.address ≤ (held api view s).balance1 := by
    rw [redeemed, paidOut, Function.update_self, hworth, ← hheld]
    exact pay_sender_le (by rw [← hheld] at hc1; exact hc1)
  have hwide0 := (BitVec.le_def.mp hle0).trans_lt h.narrow0
  have hwide1 := (BitVec.le_def.mp hle1).trans_lt h.narrow1
  refine ⟨⟨?_, ?_, ?_, ?_, ?_, ?_, hwide0.trans (by decide), hwide1.trans (by decide), hclock⟩, ?_, ?_⟩
  · intro hz
    have hv0 : v.toNat = 0 := by
      rw [hz] at hv
      exact Nat.le_zero.mp hv
    have hunit := h.unit0
    rw [hv0, Nat.zero_mul] at hunit
    exact absurd h.supply_pos (Nat.not_lt.mpr hunit)
  · rw [hts]
    intro hz
    exact absurd h.supply_pos (by rw [hz]; decide)
  · rwa [hworth]
  · rwa [hworth]
  · rwa [hworth, hheld]
  · rwa [hworth, hheld]
  · rw [hworth, toNat_part (hl.trans_lt h.supply_lt) h.narrow0, hsum]
  · rw [hworth, toNat_part (hl.trans_lt h.supply_lt) h.narrow1, hsum]

section Run

variable (exact : ExactTokens api view {x | x = token0 api s ∨ x = token1 api s})
  (hne : token0 api s ≠ token1 api s) (sep : Separated api) (keeps : KeepsSlots api)

include sep keeps in
omit exact hne in
theorem unlocked_states (hu : slots api s slotUnlocked = 1) (txs : List (Tx W)) :
    ∀ t ∈ states (step api abi) txs s, slots api t slotUnlocked = 1 := by
  refine invariant_states (C := fun _ _ => True) (fun tx t _ ht => ?_) txs hu (steps_true ..)
  obtain ⟨f, -, hx⟩ | h := step_cases api abi tx t
  · have h := Lifetime.slots_executed (separated_api sep tx) keeps hx (n := slotUnlocked) (by decide)
    exact h.trans ht
  · rw [h]
    exact ht

include exact hne sep

/-- LP tokens that can be withdrawn are burnt for what they stand for. -/
theorem leaves_paid {sending burning : Tx W} {recipient : Address} {v : U256}
    (hu : slots api s slotUnlocked = 1) (hl : Leaves api abi sending burning recipient v s)
    (hw : Withdrawable api view v s) :
    ∃ u w x, call (sending.api api) abi sending.callData s = .ok (toBeBytes 1) u ∧
      call (burning.api api) abi burning.callData u = .ok (toBeBytes x.1 ++ toBeBytes x.2) w ∧
      view w.world = paidOut (token0 api s) (token1 api s) api.address recipient x (view s.world) ∧
      x.1.toNat = ((lp api s api.address).toNat + v.toNat) *
        (held api view s).balance0.toNat / (totalSupply api s).toNat ∧
      x.2.toNat = ((lp api s api.address).toNat + v.toNat) *
        (held api view s).balance1.toNat / (totalSupply api s).toNat := by
  obtain ⟨u, hsend⟩ : ∃ u, transfer (sending.api api) abi sending.callData s = .ok () u :=
    ⟨_, transfer_ok.mpr ⟨_, hl.sent, BitVec.not_lt.mpr hl.owned, rfl⟩⟩
  have hp : Placed api view s u v := placed_transfer sep sending hl.holder hl.sent hsend
  obtain ⟨h0, h1, -, -⟩ := hp.reads
  have hr : Redeemable (burning.api api) view u recipient ∧ _ ∧ _ :=
    redeemable_of_placed (burning.api api) hne
      (⟨hw.supply_pos, hw.supply_lt, hw.part, hw.narrow0, hw.narrow1, hw.unit0, hw.unit1⟩ :
        Withdrawable (burning.api api) view v s)
      (⟨hp.own, hp.slots, hp.ledger⟩ : Placed (burning.api api) view s u v) hl.clock
  obtain ⟨hr, hx0, hx1⟩ := hr
  have exact' : ExactTokens (burning.api api) view
      {x | x = token0 (burning.api api) u ∨ x = token1 (burning.api api) u} := by
    change ExactTokens (burning.api api) view {x | x = token0 api u ∨ x = token1 api u}
    rw [h0, h1]
    exact ⟨exact.balanceOf, exact.transfer, exact.refuse⟩
  have hne' : token0 (burning.api api) u ≠ token1 (burning.api api) u := by
    change token0 api u ≠ token1 api u
    rwa [h0, h1]
  have hopen : slots (burning.api api) u slotUnlocked = 1 := (congrFun hp.slots _).trans hu
  obtain ⟨p, w, hb⟩ := burn_of_redeemable exact' hne' (separated_api sep burning) hr hopen hl.burnt
  obtain ⟨-, -, rfl, hpaid⟩ := redeemed_of_burn exact' hne' (separated_api sep burning) hl.burnt hb
  refine ⟨u, w, worth (burning.api api) view u, (call_ok_of_fn hl.sends).mpr ?_,
    (call_ok_of_fn hl.burns).mpr ?_, ?_, hx0, hx1⟩
  · exact bind_pure_ok.mpr ⟨(), hsend, rfl⟩
  · exact bind_pure_ok.mpr ⟨_, hb, rfl⟩
  · rw [hpaid, redeemed, hp.ledger]
    change paidOut (token0 api u) (token1 api u) _ _ _ _ = _
    rw [h0, h1]
    rfl

include keeps

/-- What LP tokens are worth is safe while others use the pair: after any run
of calls by anybody, a holder who sends `v` of them to the pair and has them
burnt is paid, and paid no less, up to a unit of each token, than their part of
the product of the reserves at the start. -/
theorem exit_keeps_value (hset : slots api s slotToken0 ≠ 0) (hs : Backed api view s)
    (hu : slots api s slotUnlocked = 1) (txs : List (Tx W))
    (h : Steps (step api abi) (Sharing api view) txs s) :
    ∀ t ∈ states (step api abi) txs s, ∀ sending burning recipient v,
      Leaves api abi sending burning recipient v t → Withdrawable api view v t →
      ∃ u w x, call (sending.api api) abi sending.callData t = .ok (toBeBytes 1) u ∧
        call (burning.api api) abi burning.callData u = .ok (toBeBytes x.1 ++ toBeBytes x.2) w ∧
        view w.world = paidOut (token0 api s) (token1 api s) api.address recipient x (view t.world) ∧
        v.toNat ^ 2 * ((stored api s).1 * (stored api s).2) ≤
          (x.1.toNat + 1) * (x.2.toNat + 1) * (totalSupply api s).toNat ^ 2 := by
  intro t ht sending burning recipient v hl hw
  have std := (paying_of_exact exact).toStandardTokens
  have hkept := shareKept_states std hne sep keeps hset hs txs h t ht
  obtain ⟨h0, h1⟩ := tokens_of_slots hkept.token0 hkept.token1
  have hopen := unlocked_states sep keeps hu txs t ht
  have exact' : ExactTokens api view {x | x = token0 api t ∨ x = token1 api t} := by rwa [h0, h1]
  have hne' : token0 api t ≠ token1 api t := by rwa [h0, h1]
  obtain ⟨u, w, x, hsend, hburn, hpaid, hx0, hx1⟩ := leaves_paid exact' hne' sep hopen hl hw
  refine ⟨u, w, x, hsend, hburn, by rw [hpaid, h0, h1], ?_⟩
  rw [hx0, hx1]
  have hparts := parts_worth (a := (held api view t).balance0.toNat) (b := (held api view t).balance1.toNat)
    hw.supply_pos (Nat.le_add_left v.toNat (lp api t api.address).toNat)
  have hback := Nat.mul_le_mul hkept.backed.balance0 hkept.backed.balance1
  have hvalue := hkept.value
  generalize (lp api t api.address).toNat + v.toNat = l at hparts ⊢
  generalize (l * (held api view t).balance0.toNat / (totalSupply api t).toNat + 1) = p at hparts ⊢
  generalize (l * (held api view t).balance1.toNat / (totalSupply api t).toNat + 1) = q at hparts ⊢
  apply Nat.le_of_mul_le_mul_right _ (Nat.pow_pos (n := 2) hw.supply_pos)
  calc v.toNat ^ 2 * ((stored api s).1 * (stored api s).2) * (totalSupply api t).toNat ^ 2
      = v.toNat ^ 2 * ((stored api s).1 * (stored api s).2 * (totalSupply api t).toNat ^ 2) := by ring
    _ ≤ v.toNat ^ 2 * ((stored api t).1 * (stored api t).2 * (totalSupply api s).toNat ^ 2) :=
        Nat.mul_le_mul_left _ hvalue
    _ ≤ v.toNat ^ 2 * ((held api view t).balance0.toNat * (held api view t).balance1.toNat *
          (totalSupply api s).toNat ^ 2) := Nat.mul_le_mul_left _ (Nat.mul_le_mul_right _ hback)
    _ = v.toNat ^ 2 * ((held api view t).balance0.toNat * (held api view t).balance1.toNat) *
          (totalSupply api s).toNat ^ 2 := by ring
    _ ≤ p * q * (totalSupply api t).toNat ^ 2 * (totalSupply api s).toNat ^ 2 :=
        Nat.mul_le_mul_right _ hparts
    _ = p * q * (totalSupply api s).toNat ^ 2 * (totalSupply api t).toNat ^ 2 := by ring

end Run

theorem exit_keeps_value_sample :
    let api := ledgerApi 5 9
    let s : State Key Ledger := mintedPair (2 ^ 20) (2 ^ 20)
    let t := [Trades.sellTx 61000].foldl (fun s tx => step api standardAbi tx s) s
    let sending := ledgerTx 5 (encodeCall PairFn.transfer.selector [padAddress 9, 500])
    let burning := ledgerTx 5 (burnData 5)
    ∃ u w x, call (sending.api api) standardAbi sending.callData t = .ok (toBeBytes 1) u ∧
      call (burning.api api) standardAbi burning.callData u = .ok (toBeBytes x.1 ++ toBeBytes x.2) w ∧
      w.world = paidOut (token0 api s) (token1 api s) 9 5 x t.world ∧
      500 ^ 2 * (2 ^ 20 * 2 ^ 20) ≤ (x.1.toNat + 1) * (x.2.toNat + 1) * 1000 ^ 2 := by
  intro api s t sending burning
  have hsteps : Steps (step api standardAbi) (Sharing api id) [Trades.sellTx 61000] s := by
    refine ⟨?_, trivial⟩
    constructor <;> decide +kernel
  have hback : Backed api id s := ⟨by decide +kernel, by decide +kernel⟩
  have hleaves : Leaves api standardAbi sending burning 5 500 t := by
    constructor <;> decide +kernel
  have hcan : Withdrawable api id 500 t := by
    constructor <;> decide +kernel
  have exact : ExactTokens api id {x | x = token0 api s ∨ x = token1 api s} := exactTokens_ledger rfl _
  have keeps : KeepsSlots api := (noCallback_ledger rfl).keepsSlots
  have hstored : stored api s = (2 ^ 20, 2 ^ 20) := by decide +kernel
  have hsupply : totalSupply api s = 1000 := by decide +kernel
  have h := exit_keeps_value exact (by decide +kernel) (freeKeccak_ledgerApi 5 9).separated keeps
    (by decide +kernel) hback (by decide +kernel) [Trades.sellTx 61000] hsteps t (foldl_mem_states ..)
    sending burning 5 500 hleaves hcan
  rw [hstored, hsupply] at h
  exact h

end RiscVContracts.Exits
