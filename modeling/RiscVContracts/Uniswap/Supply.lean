import RiscVContracts.Lib.Totals
import RiscVContracts.Uniswap.Deposits
import Mathlib.Data.FinEnum

namespace RiscVContracts.Supply

open Programs Bytes Host Storage Math Pair PairView PairSpec PairSlots Calldata Symbolic Tokens Runs
  Deposits Totals

variable {κ W : Type} [DecidableEq κ] {api : Api κ W} {abi : PairAbi} {callData : Buffer}
  {s t : State κ W}

def Balanced (api : Api κ W) (s : State κ W) : Prop := total (lp api s) = (totalSupply api s).toNat

section Balances

omit [DecidableEq κ] in
theorem lp_of_storage (h : t.storage = s.storage) : lp api t = lp api s := by
  funext a
  exact congrFun h _

section Outside

variable (alone : NoCallback api)

include alone

omit [DecidableEq κ] in
theorem safeTransfer_storage {token recipient : Address} {v : U256} {x : Unit}
    (h : safeTransfer api token recipient v s = .ok x t) : t.storage = s.storage := by
  obtain ⟨output, h⟩ := safeTransfer_ok.mp h
  simpa only [h] using alone token (transferInput recipient v) s

omit [DecidableEq κ] in
theorem safeBalanceOf_storage {token account : Address} {v : U256}
    (h : safeBalanceOf api token account s = .ok v t) : t.storage = s.storage := by
  obtain ⟨output, h, -⟩ := safeBalanceOf_ok.mp h
  simpa only [h] using alone token (balanceOfInput account) s

omit [DecidableEq κ] in
theorem observeBalances_storage {a b : Address} {v : Balances}
    (h : observeBalances api a b s = .ok v t) : t.storage = s.storage := by
  obtain ⟨u, h0, h1⟩ := observeBalances_ok.mp h
  exact (safeBalanceOf_storage alone h1).trans (safeBalanceOf_storage alone h0)

omit [DecidableEq κ] in
theorem payout_storage {token recipient : Address} {v : U256} {x : Unit}
    (h : payout api token recipient v s = .ok x t) : t.storage = s.storage := by
  obtain ⟨-, rfl⟩ | ⟨-, h⟩ := payout_ok.mp h
  · rfl
  · exact safeTransfer_storage alone h

end Outside

variable (sep : Separated api)

include sep

theorem lp_moved (s : State κ W) (sender recipient : Address) (v : U256) :
    lp api (moved api s sender recipient (lp api s sender) v) =
      pay (lp api s) sender recipient v := by
  rw [moved, lp_set_balance sep, lp_set_balance sep, pay]

theorem lp_spent (s : State κ W) (o : Address) (v : U256) : lp api (spent api s o v) = lp api s := by
  simp only [spent]
  split
  · exact lp_set_allowance sep s _ _ _
  · rfl

theorem lp_unlocked (s : State κ W) : lp api (unlocked api s) = lp api s := lp_set_slot sep s _ _

theorem lp_updateReserves {b : Balances} {x : Unit} (h : updateReserves api b s = .ok x t) :
    lp api t = lp api s := by
  obtain ⟨-, -, -, rfl⟩ := updateReserves_ok.mp h
  exact lp_set_slot sep s _ _

theorem initializePair_lp {x : Unit} (h : initializePair api abi callData s = .ok x t) :
    lp api t = lp api s := by
  obtain ⟨-, decoded, -, -, rfl⟩ := initializePair_ok.mp h
  rw [lp_unlocked sep, lp_set_slot sep, lp_set_slot sep, lp_locked sep]

theorem approve_lp {x : Unit} (h : approve api abi callData s = .ok x t) : lp api t = lp api s := by
  obtain ⟨decoded, -, rfl⟩ := approve_ok.mp h
  exact lp_set_allowance sep s _ _ _

theorem transfer_lp {x : Unit} (h : transfer api abi callData s = .ok x t) :
    ∃ decoded, abi.transferCall callData = some decoded ∧ decoded.value ≤ lp api s api.caller ∧
      lp api t = pay (lp api s) api.caller decoded.recipient decoded.value := by
  obtain ⟨decoded, hd, hv, rfl⟩ := transfer_ok.mp h
  exact ⟨decoded, hd, BitVec.not_lt.mp hv, lp_moved sep s _ _ _⟩

theorem transferFrom_lp {x : Unit} (h : transferFrom api abi callData s = .ok x t) :
    ∃ decoded, abi.transferFromCall callData = some decoded ∧
      decoded.value ≤ lp api s decoded.sender ∧
      lp api t = pay (lp api s) decoded.sender decoded.recipient decoded.value := by
  obtain ⟨decoded, hd, -, hv, rfl⟩ := transferFrom_ok.mp h
  refine ⟨decoded, hd, BitVec.not_lt.mp hv, ?_⟩
  have h := lp_moved sep (spent api s decoded.sender decoded.value) decoded.sender decoded.recipient
    decoded.value
  rwa [lp_spent sep] at h

variable (alone : NoCallback api)

include alone

theorem mint_lp {l : U256} (h : mint api abi callData s = .ok l t) :
    ∃ recipient, abi.mintCall callData = some recipient ∧
    let issued := if totalSupply api s = 0 then Function.update (lp api s) 0 minimumLiquidity
      else lp api s
    lp api t = Function.update issued recipient (issued recipient + l) := by
  obtain ⟨-, recipient, b, u, v, hd, hm, hv, rfl⟩ := mint_ok.mp h
  obtain ⟨u', v', hobs, hl, rfl⟩ := mintSettle_ok.mp hm
  have hst := observeBalances_storage alone hobs
  have hlp : lp api u' = lp api s := (lp_of_storage hst).trans (lp_locked sep s)
  have hts : totalSupply api u' = totalSupply api s := (congrFun hst _).trans (totalSupply_locked s)
  refine ⟨recipient, hd, ?_⟩
  rw [lp_unlocked sep, lp_updateReserves sep hv, lp_set_balance sep]
  rw [mintLiquidity, hts] at hl
  dsimp only
  split
  · rw [if_pos ‹_›] at hl
    obtain ⟨liq, -, -, -, rfl⟩ := firstLiquidity_ok.mp hl
    rw [lp_set_balance sep, lp_set_slot sep, hlp]
  · rw [if_neg ‹_›] at hl
    obtain ⟨-, -, -, -, rfl⟩ := laterLiquidity_ok.mp hl
    rw [lp_set_slot sep, hlp]

theorem burn_lp {p : U256 × U256} (h : burn api abi callData s = .ok p t) :
    lp api s api.address ≠ 0 ∧ lp api t = Function.update (lp api s) api.address 0 := by
  obtain ⟨-, recipient, b, u, v, -, hb, hv, rfl⟩ := burn_ok.mp h
  obtain ⟨hne, -, -, -, b', u0, u1, u2, hobs, -, -, hp0, hp1, hleft⟩ := burnSettle_ok.mp hb
  rw [lp_locked sep] at hne
  refine ⟨hne, ?_⟩
  have h0 : lp api u0 = lp api s :=
    (lp_of_storage (observeBalances_storage alone hobs)).trans (lp_locked sep s)
  rw [lp_unlocked sep, lp_updateReserves sep hv, lp_of_storage (observeBalances_storage alone hleft),
    lp_of_storage (safeTransfer_storage alone hp1), lp_of_storage (safeTransfer_storage alone hp0),
    burned, lp_set_slot sep, lp_set_balance sep, h0]

theorem swap_lp {x : Unit} (h : swap api abi callData s = .ok x t) : lp api t = lp api s := by
  obtain ⟨-, decoded, b, u, v, -, hs, hv, rfl⟩ := swap_ok.mp h
  obtain ⟨-, -, -, -, -, u0, u1, hp0, hp1, hobs, -, -⟩ := swapSettle_ok.mp hs
  rw [lp_unlocked sep, lp_updateReserves sep hv, lp_of_storage (observeBalances_storage alone hobs),
    lp_of_storage (payout_storage alone hp1), lp_of_storage (payout_storage alone hp0), lp_locked sep]

theorem skim_lp {x : Unit} (h : skim api abi callData s = .ok x t) : lp api t = lp api s := by
  obtain ⟨-, recipient, b, u, v, w, -, hobs, hv, hw, rfl⟩ := skim_ok.mp h
  rw [lp_unlocked sep, lp_of_storage (safeTransfer_storage alone hw),
    lp_of_storage (safeTransfer_storage alone hv), lp_of_storage (observeBalances_storage alone hobs),
    lp_locked sep]

theorem sync_lp {x : Unit} (h : sync api s = .ok x t) : lp api t = lp api s := by
  obtain ⟨-, b, u, hs, -, -, rfl⟩ := sync_ok.mp h
  rw [lp_unlocked sep, withReserves, lp_set_slot sep,
    lp_of_storage (observeBalances_storage alone (syncSettle_ok.mp hs)), lp_locked sep]

end Balances

section Conservation

omit [DecidableEq κ] in
theorem balanced_of_eq (hb : Balanced api s) (hlp : lp api t = lp api s)
    (hts : totalSupply api t = totalSupply api s) : Balanced api t := by
  rw [Balanced, hlp, hts]
  exact hb

omit [DecidableEq κ] in
theorem balanced_of_move (hb : Balanced api s) (hts : totalSupply api t = totalSupply api s)
    {sender recipient : Address} {v : U256} (hv : v ≤ lp api s sender)
    (hlp : lp api t = pay (lp api s) sender recipient v) : Balanced api t := by
  rw [Balanced, hlp, pay, total_move hv (hb.trans_lt (BitVec.isLt _)), hts]
  exact hb

variable (sep : Separated api) (alone : NoCallback api)

include sep alone

theorem supply_of_executed {f : PairFn} (h : Executed api abi callData s t f) :
    (f = .mint ∧ ∃ l, mint api abi callData s = .ok l t) ∨ (∃ p, burn api abi callData s = .ok p t) ∨
      totalSupply api t = totalSupply api s := by
  have keeps := alone.keepsSlots
  cases h with
  | mint hm => exact .inl ⟨rfl, _, hm⟩
  | burn hu => exact .inr (.inl ⟨_, hu⟩)
  | view _ ht => exact .inr (.inr (by rw [ht]))
  | initializePair hi =>
      obtain ⟨decoded, -, -, -, hsl⟩ := initializePair_slots hi
      refine .inr (.inr ?_)
      rw [totalSupply, hsl, Function.update_of_ne (by decide), Function.update_of_ne (by decide),
        totalSupply]
  | swap hw =>
      obtain ⟨_, _, _, -, -, -, -, hsl⟩ := swap_slots keeps hw
      refine .inr (.inr ?_)
      rw [totalSupply, hsl, Function.update_of_ne (by decide), totalSupply]
  | sync hy =>
      obtain ⟨_, _, -, -, -, hsl⟩ := sync_slots keeps hy
      refine .inr (.inr ?_)
      rw [totalSupply, hsl, Function.update_of_ne (by decide), totalSupply]
  | skim hk => exact .inr (.inr (congrFun (skim_slots keeps hk) _))
  | approve ha => exact .inr (.inr (congrFun (approve_slots sep ha) _))
  | transfer ht => exact .inr (.inr (congrFun (transfer_slots sep ht) _))
  | transferFrom ht => exact .inr (.inr (congrFun (transferFrom_slots sep ht) _))

theorem balanced_mint {l : U256} (h : mint api abi callData s = .ok l t) (hb : Balanced api s)
    (hts : totalSupply api s ≠ 0) (hlt : (totalSupply api s).toNat + l.toNat < 2 ^ 256) :
    Balanced api t := by
  obtain ⟨recipient, -, hlp⟩ := mint_lp sep alone h
  rw [if_neg hts] at hlp
  rw [Balanced, hlp, supply_mint sep alone.keepsSlots h, supplyAfterMint, if_neg hts, BitVec.toNat_add_of_lt hlt,
    total_credit (hb ▸ hlt), hb]

theorem balanced_burn {p : U256 × U256} (h : burn api abi callData s = .ok p t)
    (hb : Balanced api s) : Balanced api t := by
  obtain ⟨-, hlp⟩ := burn_lp sep alone h
  have hle := le_total (lp api s) api.address
  have hu := total_update (lp api s) api.address 0
  rw [hb] at hle hu
  rw [show (0 : U256).toNat = 0 from rfl] at hu
  rw [Balanced, hlp, supply_burn sep alone.keepsSlots h, BitVec.toNat_sub_of_le (BitVec.le_def.mpr hle)]
  omega

theorem balanced_of_executed {f : PairFn} (h : Executed api abi callData s t f) (hb : Balanced api s)
    (hmint : f = .mint → ∀ l, mint api abi callData s = .ok l t →
      totalSupply api s ≠ 0 ∧ (totalSupply api s).toNat + l.toNat < 2 ^ 256) : Balanced api t := by
  obtain ⟨hf, l, hm⟩ | ⟨p, hu⟩ | hts := supply_of_executed sep alone h
  · exact balanced_mint sep alone hm hb (hmint hf l hm).1 (hmint hf l hm).2
  · exact balanced_burn sep alone hu hb
  cases h with
  | view _ ht => exact ht ▸ hb
  | initializePair hi => exact balanced_of_eq hb (initializePair_lp sep hi) hts
  | mint hm => exact balanced_mint sep alone hm hb (hmint rfl _ hm).1 (hmint rfl _ hm).2
  | burn hu => exact balanced_burn sep alone hu hb
  | swap hw => exact balanced_of_eq hb (swap_lp sep alone hw) hts
  | skim hk => exact balanced_of_eq hb (skim_lp sep alone hk) hts
  | sync hy => exact balanced_of_eq hb (sync_lp sep alone hy) hts
  | approve ha => exact balanced_of_eq hb (approve_lp sep ha) hts
  | transfer ht =>
      obtain ⟨decoded, -, hv, hlp⟩ := transfer_lp sep ht
      exact balanced_of_move hb hts hv hlp
  | transferFrom ht =>
      obtain ⟨decoded, -, hv, hlp⟩ := transferFrom_lp sep ht
      exact balanced_of_move hb hts hv hlp

end Conservation

section FirstMint

/-- The checks `mint` makes while there is no supply. -/
structure FirstMintPasses (api : Api κ W) (abi : PairAbi) (callData : Buffer) (s : State κ W)
    (b : Balances) (liq : U256) : Prop where
  unlocked : slots api s slotUnlocked = 1
  decodes : (abi.mintCall callData).isSome
  observes : value (mintObserves api (locked api s)) = some (b, 0)
  root : sqrtU256 ((b.balance0 - fromUint (reserves api s).reserve0) *
    (b.balance1 - fromUint (reserves api s).reserve1)) = some liq
  minimum : ¬ liq ≤ minimumLiquidity
  fits0 : b.balance0.toNat < 2 ^ 128
  fits1 : b.balance1.toNat < 2 ^ 128
  clock : (clock api).toNat < 2 ^ 32

/-- The call mints on an empty supply and none of the checks stops it. -/
def FirstMint (api : Api κ W) (abi : PairAbi) (callData : Buffer) (s : State κ W) : Prop :=
  pairFn callData = some .mint ∧ ∃ b liq, FirstMintPasses api abi callData s b liq

theorem firstMintPasses_of_mint {l : U256} {b : Balances} (h : mint api abi callData s = .ok l t)
    (hb : value (mintObserves api (locked api s)) = some (b, 0)) :
    ∃ liq, FirstMintPasses api abi callData s b liq ∧ l = liq - minimumLiquidity := by
  obtain ⟨hu, recipient, b', u, v, hd, hm, hv, -⟩ := mint_ok.mp h
  obtain ⟨u', v', hobs, hl, -⟩ := mintSettle_ok.mp hm
  have hb' := value_eq_some.mpr ⟨_, mintObserves_ok.mpr ⟨hobs, rfl⟩⟩
  obtain ⟨rfl, hts⟩ := Prod.mk.inj (Option.some.inj (hb'.symm.trans hb))
  rw [mintLiquidity, if_pos hts, firstLiquidity_ok, reserves_locked] at hl
  obtain ⟨liq, hroot, hmin, hliq, -⟩ := hl
  obtain ⟨hf0, hf1, hc, -⟩ := updateReserves_ok.mp hv
  exact ⟨liq, ⟨hu, hd ▸ rfl, hb, hroot, hmin, hf0, hf1, hc⟩, hliq.symm⟩

theorem FirstMintPasses.commits {b : Balances} {liq : U256}
    (h : FirstMintPasses api abi callData s b liq) :
    ∃ t, mint api abi callData s = .ok (liq - minimumLiquidity) t := by
  obtain ⟨u, hu⟩ := value_eq_some.mp h.observes
  obtain ⟨hobs, hsup⟩ := mintObserves_ok.mp hu
  obtain ⟨recipient, hd⟩ := Option.isSome_iff_exists.mp h.decodes
  obtain ⟨v, hl⟩ : ∃ v, firstLiquidity api 0 (b.balance0 - fromUint (reserves api s).reserve0)
      (b.balance1 - fromUint (reserves api s).reserve1) u = .ok (liq - minimumLiquidity) v :=
    ⟨_, firstLiquidity_ok.mpr ⟨liq, h.root, h.minimum, rfl, rfl⟩⟩
  obtain ⟨w, hs⟩ : ∃ w, mintSettle api recipient (locked api s) =
      .ok (b, liq - minimumLiquidity) w := by
    refine ⟨_, mintSettle_ok.mpr ⟨u, v, hobs, ?_, rfl⟩⟩
    rw [mintLiquidity, hsup, if_pos rfl, reserves_locked]
    exact hl
  exact ⟨_, mint_ok.mpr ⟨h.unlocked, recipient, b, _, _, hd, hs,
    updateReserves_ok.mpr ⟨h.fits0, h.fits1, h.clock, rfl⟩, rfl⟩⟩

variable (sep : Separated api) (alone : NoCallback api)

include alone

theorem firstMint_of_mint {l : U256} (h : mint api abi callData s = .ok l t)
    (hts : totalSupply api s = 0) :
    ∃ b liq, FirstMintPasses api abi callData s b liq ∧ l = liq - minimumLiquidity := by
  obtain ⟨-, recipient, b, u, v, -, hm, -, -⟩ := mint_ok.mp h
  obtain ⟨u', -, hobs, -, -⟩ := mintSettle_ok.mp hm
  have hb := value_eq_some.mpr ⟨_, mintObserves_ok.mpr ⟨hobs, rfl⟩⟩
  rw [mintObserves_supply alone.keepsSlots hb, hts] at hb
  exact ⟨b, firstMintPasses_of_mint h hb⟩

include sep

/-- The first mint issues `liq` shares with the locked minimum, but its supply
counts only the minimum. -/
theorem first_mint_unbalances {l : U256} (h : mint api abi callData s = .ok l t) (hb : Balanced api s)
    (hts : totalSupply api s = 0) : ¬ Balanced api t := by
  obtain ⟨recipient, -, hlp⟩ := mint_lp sep alone h
  obtain ⟨b, liq, hp, rfl⟩ := firstMint_of_mint alone h hts
  have hlt : (1000 : Nat) < liq.toNat := BitVec.lt_def.mp (BitVec.not_le.mp hp.minimum)
  have hl : (liq - minimumLiquidity).toNat = liq.toNat - 1000 :=
    BitVec.toNat_sub_of_le (BitVec.le_of_lt (BitVec.not_le.mp hp.minimum))
  have hzero : total (lp api s) = 0 := by rw [hb, hts]; rfl
  have hmin := total_update (lp api s) 0 minimumLiquidity
  rw [total_eq_zero.mp hzero 0, hzero, show (0 : U256).toNat = 0 from rfl,
    show minimumLiquidity.toNat = 1000 from rfl] at hmin
  rw [if_pos hts] at hlp
  have hliq := liq.isLt
  rw [Balanced, hlp, supply_mint sep alone.keepsSlots h, supplyAfterMint, if_pos hts, hts, total_credit (by omega),
    hl, show ((0 : U256) + minimumLiquidity).toNat = 1000 from rfl]
  omega

end FirstMint

section Run

variable (sep : Separated api) (alone : NoCallback api)

omit [DecidableEq κ] in
def Empty (api : Api κ W) (s : State κ W) : Prop := totalSupply api s = 0 ∧ Balanced api s

omit [DecidableEq κ] in
theorem Empty.lp_eq_zero (h : Empty api s) (a : Address) : lp api s a = 0 :=
  total_eq_zero.mp (h.2.trans (by rw [h.1]; rfl)) a

include sep

theorem empty_deployed (f : Address) (world : W) : Empty api (deployed api f world) := by
  have hts : totalSupply api (deployed api f world) = 0 := by
    rw [totalSupply, slots_deployed, Function.update_of_ne (by decide), Function.update_of_ne (by decide)]
  refine ⟨hts, ?_⟩
  rw [Balanced, hts, total_eq_zero.mpr (lp_deployed sep f world)]
  rfl

include alone

theorem empty_of_executed {f : PairFn} (h : Executed api abi callData s t f) (hs : Empty api s)
    (hno : f = .mint → ∀ l, ¬ mint api abi callData s = .ok l t) : Empty api t := by
  refine ⟨?_, balanced_of_executed sep alone h hs.2 fun hf l hm => absurd hm (hno hf l)⟩
  obtain ⟨hf, l, hm⟩ | ⟨p, hu⟩ | hts := supply_of_executed sep alone h
  · exact absurd hm (hno hf l)
  · exact absurd (hs.lp_eq_zero _) (burn_lp sep alone hu).1
  · exact hts.trans hs.1

theorem empty_step (tx : Tx W) (hs : Empty api s)
    (hno : ¬ FirstMint (tx.api api) abi tx.callData (tx.before s)) : Empty api (step api abi tx s) := by
  obtain ⟨f, hf, h⟩ | h := step_cases api abi tx s
  · have hs' : Empty (tx.api api) (tx.before s) := hs
    have ht : Empty (tx.api api) (step api abi tx s) := by
      refine empty_of_executed (separated_api sep tx) (noCallback_api alone tx) h hs' ?_
      rintro rfl l hm
      obtain ⟨b, liq, hp, -⟩ := firstMint_of_mint (noCallback_api alone tx) hm hs'.1
      exact hno ⟨hf, b, liq, hp⟩
    exact ht
  · rw [h]
    exact hs

theorem unbalanced_step (tx : Tx W) (hs : Empty api s)
    (h : FirstMint (tx.api api) abi tx.callData (tx.before s)) :
    ¬ Balanced api (step api abi tx s) := by
  obtain ⟨hf, b, liq, hp⟩ := h
  obtain ⟨t, ht⟩ := hp.commits
  have hrun : call (tx.api api) abi tx.callData (tx.before s) =
      .ok (toBeBytes (liq - minimumLiquidity)) t :=
    call_ok.mpr ⟨length_of_pairFn hf, .mint, hf, bind_pure_ok.mpr ⟨_, ht, rfl⟩⟩
  have hs' : Empty (tx.api api) (tx.before s) := hs
  have hu : ¬ Balanced (tx.api api) t :=
    first_mint_unbalances (separated_api sep tx) (noCallback_api alone tx) ht hs'.2 hs'.1
  rw [step, rollback_ok.mpr hrun, final_ok]
  exact hu

/-- From deployment the balances add up to the supply in every state reached,
exactly when no call of the run is a first mint that goes through. -/
theorem supply_conserved_iff (abi : PairAbi) (f : Address) (world : W) (txs : List (Tx W)) :
    (∀ s ∈ states (step api abi) txs (deployed api f world), Balanced api s) ↔
      Steps (step api abi) (fun tx s => ¬ FirstMint (tx.api api) abi tx.callData (tx.before s)) txs
        (deployed api f world) := by
  apply forall_states_iff (I := Empty api)
  · intro s hs
    exact hs.2
  · intro tx s hs hno
    exact empty_step sep alone tx hs hno
  · intro tx s hs hno
    exact unbalanced_step sep alone tx hs (not_not.mp hno)
  · exact empty_deployed sep f world

end Run

/-- The first deposit of `2 ^ 20` units of both tokens issues `2 ^ 20` shares on a supply of 1000. -/
theorem first_mint_breaks_run :
    ¬ ∀ s ∈ states (step (ledgerApi 7 9) standardAbi)
      [ledgerTx 7 (initializeData 1 2), ledgerTx 5 (mintData 5)]
      (deployed (ledgerApi 7 9) 7 (holding (2 ^ 20) (2 ^ 20))), Balanced (ledgerApi 7 9) s := by
  have sep := (freeKeccak_ledgerApi 7 9).separated
  have alone : NoCallback (ledgerApi 7 9) := noCallback_ledger rfl
  let s := step (ledgerApi 7 9) standardAbi (ledgerTx 7 (initializeData 1 2))
    (deployed (ledgerApi 7 9) 7 (holding (2 ^ 20) (2 ^ 20)))
  have hempty : Empty (ledgerApi 7 9) s :=
    empty_step sep alone _ (empty_deployed sep 7 _) fun h => absurd h.1 (by decide +kernel)
  have hmint : FirstMint ((ledgerTx 5 (mintData 5)).api (ledgerApi 7 9)) standardAbi (mintData 5) s :=
    ⟨by decide +kernel, { balance0 := 2 ^ 20, balance1 := 2 ^ 20 }, 2 ^ 20,
      by constructor <;> decide +kernel⟩
  intro h
  exact unbalanced_step sep alone (ledgerTx 5 (mintData 5)) hempty hmint (h _ (by simp [states, s]))

theorem supply_conserved_sample :
    let run := states (step (ledgerApi 7 9) standardAbi)
      [ledgerTx 7 (initializeData 1 2), ledgerTx 5 PairFn.sync.selector]
      (deployed (ledgerApi 7 9) 7 (holding (2 ^ 20) (2 ^ 20)))
    run.length = 3 ∧ ∀ s ∈ run, Balanced (ledgerApi 7 9) s := by
  have h := supply_conserved_iff (freeKeccak_ledgerApi 7 9).separated (noCallback_ledger rfl) standardAbi 7
    (holding (2 ^ 20) (2 ^ 20)) [ledgerTx 7 (initializeData 1 2), ledgerTx 5 PairFn.sync.selector]
  refine ⟨rfl, h.mpr ⟨?_, ?_, trivial⟩⟩
  · exact fun h => absurd h.1 (by decide +kernel)
  · exact fun h => absurd h.1 (by decide +kernel)

end RiscVContracts.Supply
