import RiscVContracts.Uniswap.PairSpec

namespace RiscVContracts.PairSlots

open Programs Bytes Host Storage Pair PairView PairSpec

variable {κ W : Type} [DecidableEq κ] {api : Api κ W} {abi : PairAbi} {callData : Buffer}
  {s t : State κ W}

omit [DecidableEq κ] in
/-- While the pair is locked, a token call leaves its fixed slots alone. Calls
back into the pair that only reach LP balances and allowances are allowed. -/
def KeepsSlots (api : Api κ W) : Prop :=
  ∀ callee input s, slots api s slotUnlocked ≠ 1 →
    slots api (api.callEvm callee input s).2 = slots api s

section Handed

/-- What a function passes to the reserve update, if it reaches that step. -/
def settle (api : Api κ W) (abi : PairAbi) (callData : Buffer) :
    PairFn → Program κ W (Option Balances)
  | .mint => do
    let recipient ← orRevert (abi.mintCall callData)
    let settled ← mintSettle api recipient
    return some settled.1
  | .burn => do
    let recipient ← orRevert (abi.burnCall callData)
    let settled ← burnSettle api recipient
    return some settled.1
  | .swap => do
    let decoded ← orRevert (abi.swapCall callData)
    let b ← swapSettle api decoded
    return some b
  | .sync => do
    let b ← syncSettle api
    return some b
  | _ => return none

/-- The balances that `mint`, `burn`, `swap` and `sync` pass to the reserve
update when they are called in `s`. -/
def handed (api : Api κ W) (abi : PairAbi) (callData : Buffer) (s : State κ W) : Option Balances :=
  match pairFn callData with
  | none => none
  | some f => match settle api abi callData f (locked api s) with
    | .ok b _ => b
    | .error _ _ => none

theorem handed_of_settle {f : PairFn} {o : Option Balances} {u : State κ W}
    (hf : pairFn callData = some f)
    (h : settle api abi callData f (locked api s) = .ok o u) : handed api abi callData s = o := by
  simp [handed, hf, h]

theorem handed_eq {f : PairFn} {b c : Balances} {u : State κ W} (hf : pairFn callData = some f)
    (h : settle api abi callData f (locked api s) = .ok (some b) u)
    (hc : handed api abi callData s = some c) : b = c :=
  Option.some.inj ((handed_of_settle hf h).symm.trans hc)

theorem settle_mint {recipient : Address} {m : Balances × U256}
    (hr : abi.mintCall callData = some recipient) (h : mintSettle api recipient s = .ok m t) :
    settle api abi callData .mint s = .ok (some m.1) t :=
  bind_ok.mpr ⟨recipient, s, orRevert_ok.mpr ⟨hr, rfl⟩, bind_ok.mpr ⟨m, t, h, rfl⟩⟩

theorem settle_burn {recipient : Address} {m : Balances × U256 × U256}
    (hr : abi.burnCall callData = some recipient) (h : burnSettle api recipient s = .ok m t) :
    settle api abi callData .burn s = .ok (some m.1) t :=
  bind_ok.mpr ⟨recipient, s, orRevert_ok.mpr ⟨hr, rfl⟩, bind_ok.mpr ⟨m, t, h, rfl⟩⟩

theorem settle_swap {decoded : SwapArgs} {b : Balances} (hr : abi.swapCall callData = some decoded)
    (h : swapSettle api decoded s = .ok b t) : settle api abi callData .swap s = .ok (some b) t :=
  bind_ok.mpr ⟨decoded, s, orRevert_ok.mpr ⟨hr, rfl⟩, bind_ok.mpr ⟨b, t, h, rfl⟩⟩

theorem settle_sync {b : Balances} (h : syncSettle api s = .ok b t) :
    settle api abi callData .sync s = .ok (some b) t := bind_ok.mpr ⟨b, t, h, rfl⟩

theorem settle_view {f : PairFn} (hf : f.isView = true) : settle api abi callData f s = .ok none s := by
  cases f <;> first | rfl | exact absurd hf (by decide)

end Handed

section Locks

theorem slots_locked (s : State κ W) :
    slots api (locked api s) = Function.update (slots api s) slotUnlocked 0 := slots_set_slot s _ _

theorem locked_slotUnlocked (s : State κ W) : slots api (locked api s) slotUnlocked ≠ 1 := by
  rw [slots_locked, Function.update_self]
  decide

theorem slots_locked_of_ne (s : State κ W) {n : U32} (hn : n ≠ slotUnlocked) :
    slots api (locked api s) n = slots api s n := by
  rw [slots_locked, Function.update_of_ne hn]

theorem reserves_locked (s : State κ W) : reserves api (locked api s) = reserves api s :=
  congrArg unpackReserves (slots_locked_of_ne s (by decide))

theorem totalSupply_locked (s : State κ W) : totalSupply api (locked api s) = totalSupply api s :=
  slots_locked_of_ne s (by decide)

theorem token0_locked (s : State κ W) : token0 api (locked api s) = token0 api s :=
  congrArg lowAddress (slots_locked_of_ne s (by decide))

theorem token1_locked (s : State κ W) : token1 api (locked api s) = token1 api s :=
  congrArg lowAddress (slots_locked_of_ne s (by decide))

theorem lp_locked (sep : Separated api) (s : State κ W) : lp api (locked api s) = lp api s := lp_set_slot sep s _ _

theorem slots_unlocked {u : State κ W} {f : U32 → U256} (hf : f slotUnlocked = 1)
    (hu : slots api u = Function.update f slotUnlocked 0) : slots api (unlocked api u) = f := by
  rw [unlocked, slots_set_slot, hu, Function.update_idem, ← hf, Function.update_eq_self]

theorem slots_withReserves (s : State κ W) (r0 r1 : U128) (ts : U32) :
    slots api (withReserves api s r0 r1 ts) =
      Function.update (slots api s) slotReserves (packReserves r0 r1 ts) := slots_set_slot s _ _

end Locks

section Calls

variable (keeps : KeepsSlots api)

include keeps

omit [DecidableEq κ] in
theorem safeTransfer_slots {token recipient : Address} {v : U256} {x : Unit}
    (hs : slots api s slotUnlocked ≠ 1) (h : safeTransfer api token recipient v s = .ok x t) :
    slots api t = slots api s := by
  obtain ⟨output, h⟩ := safeTransfer_ok.mp h
  simpa [h] using keeps token (transferInput recipient v) s hs

omit [DecidableEq κ] in
theorem safeBalanceOf_slots {token account : Address} {v : U256}
    (hs : slots api s slotUnlocked ≠ 1) (h : safeBalanceOf api token account s = .ok v t) :
    slots api t = slots api s := by
  obtain ⟨output, h, -⟩ := safeBalanceOf_ok.mp h
  simpa [h] using keeps token (balanceOfInput account) s hs

omit [DecidableEq κ] in
theorem observeBalances_slots {a b : Address} {v : Balances}
    (hs : slots api s slotUnlocked ≠ 1) (h : observeBalances api a b s = .ok v t) :
    slots api t = slots api s := by
  obtain ⟨u, h0, h1⟩ := observeBalances_ok.mp h
  have hu := safeBalanceOf_slots keeps hs h0
  rw [safeBalanceOf_slots keeps (hu ▸ hs) h1, hu]

omit [DecidableEq κ] in
theorem payout_slots {token recipient : Address} {v : U256} {x : Unit}
    (hs : slots api s slotUnlocked ≠ 1) (h : payout api token recipient v s = .ok x t) :
    slots api t = slots api s := by
  obtain ⟨-, rfl⟩ | ⟨-, h⟩ := payout_ok.mp h
  · rfl
  · exact safeTransfer_slots keeps hs h

end Calls

section Effects

theorem commit_slots {b : Balances} {u v : State κ W} {x : Unit} {f : U32 → U256}
    (hf : f slotUnlocked = 1) (hu : slots api u = Function.update f slotUnlocked 0)
    (h : updateReserves api b u = .ok x v) :
    slots api (unlocked api v) = Function.update f slotReserves
      (packReserves (b.balance0.setWidth 128) (b.balance1.setWidth 128) ((clock api).setWidth 32)) := by
  obtain ⟨-, -, -, rfl⟩ := updateReserves_ok.mp h
  apply slots_unlocked
  · rwa [Function.update_of_ne (by decide)]
  · rw [slots_set_slot, hu, Function.update_comm (by decide)]

theorem initializePair_slots {x : Unit} (h : initializePair api abi callData s = .ok x t) :
    ∃ decoded, abi.initializeCall callData = some decoded ∧ slots api s slotUnlocked = 1 ∧
      slots api s slotToken0 = 0 ∧
      slots api t = Function.update (Function.update (slots api s) slotToken0
        (padAddress decoded.token0)) slotToken1 (padAddress decoded.token1) := by
  obtain ⟨hs, decoded, hd, h0, rfl⟩ := initializePair_ok.mp h
  rw [slots_locked_of_ne s (by decide)] at h0
  refine ⟨decoded, hd, hs, h0, slots_unlocked ?_ ?_⟩
  · rwa [Function.update_of_ne (by decide), Function.update_of_ne (by decide)]
  · rw [slots_set_slot, slots_set_slot, slots_locked,
      Function.update_comm (show slotUnlocked ≠ slotToken0 by decide),
      Function.update_comm (show slotUnlocked ≠ slotToken1 by decide)]

section Calls

variable (keeps : KeepsSlots api)

include keeps

omit [DecidableEq κ] in
theorem syncSettle_slots {b : Balances} (hs : slots api s slotUnlocked ≠ 1)
    (h : syncSettle api s = .ok b t) : slots api t = slots api s :=
  observeBalances_slots keeps hs (syncSettle_ok.mp h)

theorem swapSettle_slots {decoded : SwapArgs} {b : Balances} (hs : slots api s slotUnlocked ≠ 1)
    (h : swapSettle api decoded s = .ok b t) : slots api t = slots api s := by
  obtain ⟨-, -, -, -, -, u, v, hu, hv, hb, -, -⟩ := swapSettle_ok.mp h
  have hu' := payout_slots keeps hs hu
  have hv' := (payout_slots keeps (hu' ▸ hs) hv).trans hu'
  exact (observeBalances_slots keeps (hv' ▸ hs) hb).trans hv'

theorem swap_slots {x : Unit} (h : swap api abi callData s = .ok x t) :
    ∃ decoded b u, abi.swapCall callData = some decoded ∧
      swapSettle api decoded (locked api s) = .ok b u ∧
      b.balance0.toNat < 2 ^ 128 ∧ b.balance1.toNat < 2 ^ 128 ∧
      slots api t = Function.update (slots api s) slotReserves (packReserves
          (b.balance0.setWidth 128) (b.balance1.setWidth 128) ((clock api).setWidth 32)) := by
  obtain ⟨hs, decoded, b, u, v, hr, hm, hv, rfl⟩ := swap_ok.mp h
  obtain ⟨h0, h1, -, -⟩ := updateReserves_ok.mp hv
  refine ⟨decoded, b, u, hr, hm, h0, h1, commit_slots hs ?_ hv⟩
  rw [swapSettle_slots keeps (locked_slotUnlocked s) hm, slots_locked]

theorem sync_slots {x : Unit} (h : sync api s = .ok x t) :
    ∃ b u, syncSettle api (locked api s) = .ok b u ∧
      b.balance0.toNat < 2 ^ 128 ∧ b.balance1.toNat < 2 ^ 128 ∧
      slots api t = Function.update (slots api s) slotReserves (packReserves
          (b.balance0.setWidth 128) (b.balance1.setWidth 128) (reserves api s).ts) := by
  obtain ⟨hs, b, u, hm, h0, h1, rfl⟩ := sync_ok.mp h
  have hu := (syncSettle_slots keeps (locked_slotUnlocked s) hm).trans (slots_locked s)
  have hr : reserves api u = reserves api s := by
    rw [reserves, hu, Function.update_of_ne (by decide), reserves]
  refine ⟨b, u, hm, h0, h1, ?_⟩
  apply slots_unlocked
  · rwa [Function.update_of_ne (by decide)]
  · rw [slots_withReserves, hu, hr, Function.update_comm (by decide)]

theorem skim_slots {x : Unit} (h : skim api abi callData s = .ok x t) : slots api t = slots api s := by
  obtain ⟨hs, recipient, b, u, v, w, -, hb, hv, hw, rfl⟩ := skim_ok.mp h
  have hlock : slots api (locked api s) slotUnlocked ≠ 1 := locked_slotUnlocked s
  have hu := observeBalances_slots keeps hlock hb
  have hv' := (safeTransfer_slots keeps (hu ▸ hlock) hv).trans hu
  have hw' := (safeTransfer_slots keeps (hv' ▸ hlock) hw).trans hv'
  exact slots_unlocked hs (hw'.trans (slots_locked s))

end Calls

variable (sep : Separated api)

include sep

/-- The supply a mint leaves: the first one writes only the locked minimum. -/
def supplyAfterMint (supply liquidity : U256) : U256 :=
  if supply = 0 then supply + minimumLiquidity else supply + liquidity

theorem mintLiquidity_slots {supply a0 a1 l : U256} {r : Reserves}
    (h : mintLiquidity api supply a0 a1 r s = .ok l t) :
    slots api t = Function.update (slots api s) slotTotalSupply (supplyAfterMint supply l) := by
  unfold mintLiquidity at h
  unfold supplyAfterMint
  split at h
  · obtain ⟨liq, -, -, -, rfl⟩ := firstLiquidity_ok.mp h
    rw [if_pos ‹_›, slots_set_balance sep, slots_set_slot]
  · obtain ⟨-, -, -, -, rfl⟩ := laterLiquidity_ok.mp h
    rw [if_neg ‹_›, slots_set_slot]

theorem moved_slots (s : State κ W) (a b : Address) (bal v : U256) :
    slots api (moved api s a b bal v) = slots api s := by
  rw [moved, slots_set_balance sep, slots_set_balance sep]

theorem spent_slots (s : State κ W) (o : Address) (v : U256) :
    slots api (spent api s o v) = slots api s := by
  simp only [spent]
  split
  · exact slots_set_allowance sep s _ _ _
  · rfl

theorem approve_slots {x : Unit} (h : approve api abi callData s = .ok x t) :
    slots api t = slots api s := by
  obtain ⟨decoded, -, rfl⟩ := approve_ok.mp h
  exact slots_set_allowance sep s _ _ _

theorem transfer_slots {x : Unit} (h : transfer api abi callData s = .ok x t) :
    slots api t = slots api s := by
  obtain ⟨decoded, -, -, rfl⟩ := transfer_ok.mp h
  exact moved_slots sep s _ _ _ _

theorem transferFrom_slots {x : Unit} (h : transferFrom api abi callData s = .ok x t) :
    slots api t = slots api s := by
  obtain ⟨decoded, -, -, -, rfl⟩ := transferFrom_ok.mp h
  rw [moved_slots sep, spent_slots sep]

variable (keeps : KeepsSlots api)

include keeps

theorem mintSettle_slots {recipient : Address} {m : Balances × U256}
    (hs : slots api s slotUnlocked ≠ 1) (h : mintSettle api recipient s = .ok m t) :
    slots api t = Function.update (slots api s) slotTotalSupply (supplyAfterMint (totalSupply api s) m.2) := by
  obtain ⟨u, v, hb, hl, rfl⟩ := mintSettle_ok.mp h
  have hu := observeBalances_slots keeps hs hb
  rw [slots_set_balance sep, mintLiquidity_slots sep hl, hu, totalSupply, totalSupply, hu]

theorem burnSettle_slots {recipient : Address} {m : Balances × U256 × U256}
    (hs : slots api s slotUnlocked ≠ 1) (h : burnSettle api recipient s = .ok m t) :
    slots api t = Function.update (slots api s) slotTotalSupply
      (totalSupply api s - lp api s api.address) := by
  obtain ⟨-, -, -, -, b, u, v, w, hb, -, -, hv, hw, ht⟩ := burnSettle_ok.mp h
  have hu := observeBalances_slots keeps hs hb
  have hburned : slots api (burned api u (totalSupply api s - lp api s api.address)) =
      Function.update (slots api s) slotTotalSupply (totalSupply api s - lp api s api.address) := by
    rw [burned, slots_set_slot, slots_set_balance sep, hu]
  have hlock : Function.update (slots api s) slotTotalSupply
      (totalSupply api s - lp api s api.address) slotUnlocked ≠ 1 := by
    rwa [Function.update_of_ne (by decide)]
  have hv' := (safeTransfer_slots keeps (hburned ▸ hlock) hv).trans hburned
  have hw' := (safeTransfer_slots keeps (hv' ▸ hlock) hw).trans hv'
  exact (observeBalances_slots keeps (hw' ▸ hlock) ht).trans hw'

theorem mint_slots {l : U256} (h : mint api abi callData s = .ok l t) :
    ∃ recipient b u, abi.mintCall callData = some recipient ∧
      mintSettle api recipient (locked api s) = .ok (b, l) u ∧
      b.balance0.toNat < 2 ^ 128 ∧ b.balance1.toNat < 2 ^ 128 ∧
      slots api t = Function.update (Function.update (slots api s) slotTotalSupply
        (supplyAfterMint (totalSupply api s) l)) slotReserves (packReserves
          (b.balance0.setWidth 128) (b.balance1.setWidth 128) ((clock api).setWidth 32)) := by
  obtain ⟨hs, recipient, b, u, v, hr, hm, hv, rfl⟩ := mint_ok.mp h
  obtain ⟨h0, h1, -, -⟩ := updateReserves_ok.mp hv
  refine ⟨recipient, b, u, hr, hm, h0, h1, commit_slots ?_ ?_ hv⟩
  · rwa [Function.update_of_ne (by decide)]
  · rw [mintSettle_slots sep keeps (locked_slotUnlocked s) hm, totalSupply_locked,
      slots_locked, Function.update_comm (by decide)]

theorem burn_slots {p : U256 × U256} (h : burn api abi callData s = .ok p t) :
    ∃ recipient b u, abi.burnCall callData = some recipient ∧
      burnSettle api recipient (locked api s) = .ok (b, p) u ∧
      b.balance0.toNat < 2 ^ 128 ∧ b.balance1.toNat < 2 ^ 128 ∧
      slots api t = Function.update (Function.update (slots api s) slotTotalSupply
        (totalSupply api s - lp api s api.address)) slotReserves (packReserves
          (b.balance0.setWidth 128) (b.balance1.setWidth 128) ((clock api).setWidth 32)) := by
  obtain ⟨hs, recipient, b, u, v, hr, hm, hv, rfl⟩ := burn_ok.mp h
  obtain ⟨h0, h1, -, -⟩ := updateReserves_ok.mp hv
  refine ⟨recipient, b, u, hr, hm, h0, h1, commit_slots ?_ ?_ hv⟩
  · rwa [Function.update_of_ne (by decide)]
  · rw [burnSettle_slots sep keeps (locked_slotUnlocked s) hm, totalSupply_locked,
      lp_locked sep, slots_locked, Function.update_comm (by decide)]

theorem supply_mint {l : U256} (h : mint api abi callData s = .ok l t) :
    totalSupply api t = supplyAfterMint (totalSupply api s) l := by
  obtain ⟨_, _, _, -, -, -, -, ht⟩ := mint_slots sep keeps h
  rw [totalSupply, ht, Function.update_of_ne (by decide), Function.update_self]

theorem supply_burn {p : U256 × U256} (h : burn api abi callData s = .ok p t) :
    totalSupply api t = totalSupply api s - lp api s api.address := by
  obtain ⟨_, _, _, -, -, -, -, ht⟩ := burn_slots sep keeps h
  rw [totalSupply, ht, Function.update_of_ne (by decide), Function.update_self]

/-- Apart from `initialize`, calls write no fixed slots but the supply and the reserves. -/
theorem slots_of_executed {f : PairFn} (h : Executed api abi callData s t f) (hf : f ≠ .initializePair)
    {n : U32} (hr : n ≠ slotReserves) (hts : n ≠ slotTotalSupply) : slots api t n = slots api s n := by
  cases h with
  | view _ ht => rw [ht]
  | initializePair _ => exact absurd rfl hf
  | mint hm =>
      obtain ⟨_, _, _, -, -, -, -, hsl⟩ := mint_slots sep keeps hm
      rw [hsl, Function.update_of_ne hr, Function.update_of_ne hts]
  | burn hb =>
      obtain ⟨_, _, _, -, -, -, -, hsl⟩ := burn_slots sep keeps hb
      rw [hsl, Function.update_of_ne hr, Function.update_of_ne hts]
  | swap hw =>
      obtain ⟨_, _, _, -, -, -, -, hsl⟩ := swap_slots keeps hw
      rw [hsl, Function.update_of_ne hr]
  | skim hk => rw [skim_slots keeps hk]
  | sync hy =>
      obtain ⟨_, _, -, -, -, hsl⟩ := sync_slots keeps hy
      rw [hsl, Function.update_of_ne hr]
  | approve ha => rw [approve_slots sep ha]
  | transfer htr => rw [transfer_slots sep htr]
  | transferFrom htr => rw [transferFrom_slots sep htr]

end Effects

end RiscVContracts.PairSlots
