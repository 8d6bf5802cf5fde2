import RiscVContracts.Uniswap.PairView

namespace RiscVContracts.PairSpec

open Programs Bytes Host Storage Math Pair PairView

variable {κ W : Type} [DecidableEq κ] {api : Api κ W} {abi : PairAbi} {callData : Buffer}
  {s t : State κ W}

def locked (api : Api κ W) (s : State κ W) : State κ W := s.set (slotKey api slotUnlocked) 0

def unlocked (api : Api κ W) (s : State κ W) : State κ W := s.set (slotKey api slotUnlocked) 1

def withReserves (api : Api κ W) (s : State κ W) (r0 r1 : U128) (ts : U32) : State κ W :=
  s.set (slotKey api slotReserves) (packReserves r0 r1 ts)

def mintShare (totalSupply amount0 amount1 : U256) (r : Reserves) : U256 :=
  let l0 := amount0 * totalSupply / fromUint r.reserve0
  let l1 := amount1 * totalSupply / fromUint r.reserve1
  if l0 < l1 then l0 else l1

def feeCheck (r : Reserves) (decoded : SwapArgs) (b : Balances) : Prop :=
  let adj0 := adjusted b.balance0 (amountIn b.balance0 (fromUint r.reserve0) decoded.amount0Out)
  let adj1 := adjusted b.balance1 (amountIn b.balance1 (fromUint r.reserve1) decoded.amount1Out)
  ¬ adj0 * adj1 < fromUint r.reserve0 * fromUint r.reserve1 * 1000 * 1000

theorem firstLiquidity_ok {ts a0 a1 l : U256} :
    firstLiquidity api ts a0 a1 s = .ok l t ↔ ∃ liq, sqrtU256 (a0 * a1) = some liq ∧
      ¬ liq ≤ minimumLiquidity ∧ liq - minimumLiquidity = l ∧
      (s.set (slotKey api slotTotalSupply) (ts + minimumLiquidity)).set
        (mappingKey1 api slotBalanceOf 0) minimumLiquidity = t := by
  unfold firstLiquidity
  cases h : sqrtU256 (a0 * a1) with
  | none => simp [trap_ok]
  | some liq =>
      simp only [bind_ok, rejectIf_ok, storageSetU256_ok, setBalance_ok, pure_ok, exists_and_left,
        exists_eq_left', and_assoc, exists_unit, Option.some.injEq]

theorem laterLiquidity_ok {ts a0 a1 l : U256} {r : Reserves} :
    laterLiquidity api ts a0 a1 r s = .ok l t ↔ fromUint r.reserve0 ≠ 0 ∧ fromUint r.reserve1 ≠ 0 ∧
      mintShare ts a0 a1 r ≠ 0 ∧ mintShare ts a0 a1 r = l ∧
      s.set (slotKey api slotTotalSupply) (ts + l) = t := by
  simp only [laterLiquidity, bind_ok, divU256_ok, rejectIf_ok, storageSetU256_ok, pure_ok,
    exists_and_left, exists_eq_left', exists_const, and_assoc]
  constructor
  · rintro ⟨h0, h1, hl, rfl, rfl⟩
    exact ⟨h0, h1, hl, rfl, rfl⟩
  · rintro ⟨h0, h1, hl, rfl, rfl⟩
    exact ⟨h0, h1, hl, rfl, rfl⟩

theorem mintSettle_ok {recipient : Address} {m : Balances × U256} :
    mintSettle api recipient s = .ok m t ↔ ∃ u v,
      observeBalances api (token0 api s) (token1 api s) s = .ok m.1 u ∧
      mintLiquidity api (totalSupply api u) (m.1.balance0 - fromUint (reserves api s).reserve0)
        (m.1.balance1 - fromUint (reserves api s).reserve1) (reserves api s) u = .ok m.2 v ∧
      v.set (mappingKey1 api slotBalanceOf recipient) (lp api v recipient + m.2) = t := by
  simp only [mintSettle, bind_ok, getReserves_ok, getToken0_ok, getToken1_ok, storageGetU256_ok,
    getBalance_ok, setBalance_ok, pure_ok, exists_and_left, exists_eq_left', and_assoc, exists_unit]
  constructor
  · rintro ⟨b, u, hb, l, v, hl, rfl, rfl⟩
    exact ⟨u, hb, v, hl, rfl⟩
  · rintro ⟨u, hb, v, hl, rfl⟩
    exact ⟨m.1, u, hb, m.2, v, hl, rfl, rfl⟩

def burned (api : Api κ W) (s : State κ W) (supply : U256) : State κ W :=
  (s.set (mappingKey1 api slotBalanceOf api.address) 0).set (slotKey api slotTotalSupply) supply

theorem burnSettle_ok {recipient : Address} {m : Balances × U256 × U256} :
    burnSettle api recipient s = .ok m t ↔
      lp api s api.address ≠ 0 ∧ totalSupply api s ≠ 0 ∧ m.2.1 ≠ 0 ∧ m.2.2 ≠ 0 ∧ ∃ b u v w,
      observeBalances api (token0 api s) (token1 api s) s = .ok b u ∧
      lp api s api.address * b.balance0 / totalSupply api s = m.2.1 ∧
      lp api s api.address * b.balance1 / totalSupply api s = m.2.2 ∧
      safeTransfer api (token0 api s) recipient m.2.1
        (burned api u (totalSupply api s - lp api s api.address)) = .ok () v ∧
      safeTransfer api (token1 api s) recipient m.2.2 v = .ok () w ∧
      observeBalances api (token0 api s) (token1 api s) w = .ok m.1 t := by
  simp only [burnSettle, bind_ok, getBalance_ok, rejectIf_ok, storageGetU256_ok, getToken0_ok,
    getToken1_ok, divU256_ok, setBalance_ok, storageSetU256_ok, pure_ok, exists_and_left,
    exists_eq_left', and_assoc, not_or, exists_unit]
  constructor
  · rintro ⟨hl, b, u, hb, hts, -, h0, h1, v, hv, w, hw, left, _, hleft, rfl, rfl⟩
    exact ⟨hl, hts, h0, h1, b, u, hb, rfl, rfl, v, hv, w, hw, hleft⟩
  · rintro ⟨hl, hts, h0, h1, b, u, hb, e0, e1, v, hv, w, hw, hleft⟩
    rw [← e0] at h0 hv
    rw [← e1] at h1 hw
    exact ⟨hl, b, u, hb, hts, hts, h0, h1, v, hv, w, hw, _, t, hleft,
      Prod.ext rfl (Prod.ext e0 e1), rfl⟩

theorem swapSettle_ok {decoded : SwapArgs} {b : Balances} :
    swapSettle api decoded s = .ok b t ↔
      ¬ (decoded.amount0Out = 0 ∧ decoded.amount1Out = 0) ∧
      decoded.amount0Out < fromUint (reserves api s).reserve0 ∧
      decoded.amount1Out < fromUint (reserves api s).reserve1 ∧
      decoded.recipient ≠ token0 api s ∧ decoded.recipient ≠ token1 api s ∧ ∃ u v,
      payout api (token0 api s) decoded.recipient decoded.amount0Out s = .ok () u ∧
      payout api (token1 api s) decoded.recipient decoded.amount1Out u = .ok () v ∧
      observeBalances api (token0 api s) (token1 api s) v = .ok b t ∧
      ¬ (amountIn b.balance0 (fromUint (reserves api s).reserve0) decoded.amount0Out = 0 ∧
        amountIn b.balance1 (fromUint (reserves api s).reserve1) decoded.amount1Out = 0) ∧
      feeCheck (reserves api s) decoded b := by
  simp only [swapSettle, bind_ok, getReserves_ok, rejectIf_ok, getToken0_ok, getToken1_ok, pure_ok,
    exists_and_left, exists_eq_left', and_assoc, not_or, exists_unit, ge_iff_le, BitVec.not_le]
  constructor
  · rintro ⟨h0, hr0, hr1, hr, hr', u, hu, v, hv, b, w, hb, hin, hfee, rfl, rfl⟩
    exact ⟨h0, hr0, hr1, hr, hr', u, hu, v, hv, hb, hin, hfee⟩
  · rintro ⟨h0, hr0, hr1, hr, hr', u, hu, v, hv, hb, hin, hfee⟩
    exact ⟨h0, hr0, hr1, hr, hr', u, hu, v, hv, b, t, hb, hin, hfee, rfl, rfl⟩

theorem initializePair_ok {u : Unit} :
    initializePair api abi callData s = .ok u t ↔ slots api s slotUnlocked = 1 ∧ ∃ decoded,
      abi.initializeCall callData = some decoded ∧ slots api (locked api s) slotToken0 = 0 ∧
      unlocked api (((locked api s).set (slotKey api slotToken0) (padAddress decoded.token0)).set
        (slotKey api slotToken1) (padAddress decoded.token1)) = t := by
  simp only [initializePair, bind_ok, requireUnlocked_ok, orRevert_ok, storageGetU256_ok, rejectIf_ok,
    storageSetU256_ok, setUnlocked_ok, exists_and_left, exists_eq_left', and_assoc, exists_unit,
    ne_eq, not_not, locked, unlocked]

theorem mint_ok {l : U256} :
    mint api abi callData s = .ok l t ↔ slots api s slotUnlocked = 1 ∧ ∃ recipient b u v,
      abi.mintCall callData = some recipient ∧
      mintSettle api recipient (locked api s) = .ok (b, l) u ∧
      updateReserves api b u = .ok () v ∧ unlocked api v = t := by
  simp only [mint, bind_ok, requireUnlocked_ok, orRevert_ok, setUnlocked_ok, pure_ok, exists_and_left,
    exists_eq_left', and_assoc, exists_unit, locked, unlocked]
  constructor
  · rintro ⟨hu, recipient, hr, m, u, hm, v, hv, rfl, rfl⟩
    exact ⟨hu, recipient, hr, m.1, u, hm, v, hv, rfl⟩
  · rintro ⟨hu, recipient, hr, b, u, hm, v, hv, rfl⟩
    exact ⟨hu, recipient, hr, _, u, hm, v, hv, rfl, rfl⟩

theorem burn_ok {p : U256 × U256} :
    burn api abi callData s = .ok p t ↔ slots api s slotUnlocked = 1 ∧ ∃ recipient b u v,
      abi.burnCall callData = some recipient ∧
      burnSettle api recipient (locked api s) = .ok (b, p) u ∧
      updateReserves api b u = .ok () v ∧ unlocked api v = t := by
  simp only [burn, bind_ok, requireUnlocked_ok, orRevert_ok, setUnlocked_ok, pure_ok, exists_and_left,
    exists_eq_left', and_assoc, exists_unit, locked, unlocked]
  constructor
  · rintro ⟨hu, recipient, hr, m, u, hm, v, hv, rfl, rfl⟩
    exact ⟨hu, recipient, hr, m.1, u, hm, v, hv, rfl⟩
  · rintro ⟨hu, recipient, hr, b, u, hm, v, hv, rfl⟩
    exact ⟨hu, recipient, hr, _, u, hm, v, hv, rfl, rfl⟩

theorem swap_ok {u : Unit} :
    swap api abi callData s = .ok u t ↔ slots api s slotUnlocked = 1 ∧ ∃ decoded b u v,
      abi.swapCall callData = some decoded ∧
      swapSettle api decoded (locked api s) = .ok b u ∧
      updateReserves api b u = .ok () v ∧ unlocked api v = t := by
  simp only [swap, bind_ok, requireUnlocked_ok, orRevert_ok, setUnlocked_ok, exists_and_left,
    exists_eq_left', and_assoc, exists_unit, locked, unlocked]

theorem skim_ok {u : Unit} :
    skim api abi callData s = .ok u t ↔ slots api s slotUnlocked = 1 ∧ ∃ recipient b u v w,
      abi.skimCall callData = some recipient ∧
      observeBalances api (token0 api (locked api s)) (token1 api (locked api s)) (locked api s) = .ok b u ∧
      safeTransfer api (token0 api (locked api s)) recipient
        (b.balance0 - fromUint (reserves api (locked api s)).reserve0) u = .ok () v ∧
      safeTransfer api (token1 api (locked api s)) recipient
        (b.balance1 - fromUint (reserves api (locked api s)).reserve1) v = .ok () w ∧
      unlocked api w = t := by
  simp only [skim, bind_ok, requireUnlocked_ok, orRevert_ok, getReserves_ok, getToken0_ok,
    getToken1_ok, setUnlocked_ok, exists_and_left, exists_eq_left', and_assoc, exists_unit, locked,
    unlocked]

omit [DecidableEq κ] in
theorem syncSettle_ok {b : Balances} :
    syncSettle api s = .ok b t ↔ observeBalances api (token0 api s) (token1 api s) s = .ok b t := by
  simp only [syncSettle, bind_ok, getToken0_ok, getToken1_ok, exists_eq_left', and_assoc,
    exists_and_left]

theorem sync_ok {u : Unit} :
    sync api s = .ok u t ↔ slots api s slotUnlocked = 1 ∧ ∃ b u,
      syncSettle api (locked api s) = .ok b u ∧
      b.balance0.toNat < 2 ^ 128 ∧ b.balance1.toNat < 2 ^ 128 ∧
      unlocked api (withReserves api u (b.balance0.setWidth 128) (b.balance1.setWidth 128)
        (reserves api u).ts) = t := by
  simp only [sync, bind_ok, requireUnlocked_ok, getReserves_ok, toUint_ok, setReserves_ok,
    setUnlocked_ok, exists_and_left, exists_eq_left', and_assoc, exists_unit, locked, unlocked,
    withReserves]

section Erc20

theorem approve_ok {u : Unit} :
    approve api abi callData s = .ok u t ↔ ∃ decoded, abi.approveCall callData = some decoded ∧
      s.set (mappingKey2 api slotAllowance api.caller decoded.spender) decoded.value = t := by
  simp only [approve, bind_ok, orRevert_ok, setAllowance_ok, exists_and_left, exists_eq_left', and_assoc]

def moved (api : Api κ W) (s : State κ W) (sender recipient : Address) (bal value : U256) : State κ W :=
  let debited := s.set (mappingKey1 api slotBalanceOf sender) (bal - value)
  debited.set (mappingKey1 api slotBalanceOf recipient) (lp api debited recipient + value)

theorem move_ok {sender recipient : Address} {bal value : U256} {u : Unit} :
    move api sender recipient bal value s = .ok u t ↔ moved api s sender recipient bal value = t := by
  simp only [move, bind_ok, setBalance_ok, getBalance_ok, exists_eq_left', exists_and_left, and_assoc,
    exists_unit, moved]

theorem transfer_ok {u : Unit} :
    transfer api abi callData s = .ok u t ↔ ∃ decoded, abi.transferCall callData = some decoded ∧
      ¬ lp api s api.caller < decoded.value ∧
      moved api s api.caller decoded.recipient (lp api s api.caller) decoded.value = t := by
  simp only [transfer, bind_ok, orRevert_ok, getBalance_ok, exists_and_left, exists_eq_left', and_assoc]
  refine exists_congr fun decoded => and_congr_right fun _ => ?_
  by_cases h : lp api s api.caller < decoded.value
  · simp only [h, if_true, revert_ok, not_true_eq_false, false_and]
  · simp only [h, if_false, move_ok, not_false_eq_true, true_and]

/-- The allowance after it was spent; the largest one is never lowered. -/
def spent (api : Api κ W) (s : State κ W) (owner : Address) (value : U256) : State κ W :=
  let allow := allowance api s owner api.caller
  if allow ≠ BitVec.allOnes 256 then
    s.set (mappingKey2 api slotAllowance owner api.caller) (allow - value) else s

theorem transferFrom_ok {u : Unit} :
    transferFrom api abi callData s = .ok u t ↔ ∃ decoded, abi.transferFromCall callData = some decoded ∧
      ¬ (allowance api s decoded.sender api.caller ≠ BitVec.allOnes 256 ∧
        allowance api s decoded.sender api.caller < decoded.value) ∧
      ¬ lp api s decoded.sender < decoded.value ∧
      moved api (spent api s decoded.sender decoded.value) decoded.sender decoded.recipient
        (lp api s decoded.sender) decoded.value = t := by
  simp only [transferFrom, bind_ok, orRevert_ok, getAllowance_ok, exists_and_left, exists_eq_left', and_assoc]
  refine exists_congr fun decoded => and_congr_right fun _ => ?_
  split
  · rename_i h
    exact ⟨fun hr => absurd hr revert_ok, fun hr => absurd h hr.1⟩
  · rename_i h
    simp only [bind_ok, getBalance_ok, exists_and_left, exists_eq_left', and_assoc, h,
      not_false_eq_true, true_and]
    split
    · rename_i hb
      simp only [hb, revert_ok, not_true_eq_false, false_and]
    · rename_i hb
      simp only [bind_ok, spendAllowance, spent, hb, not_false_eq_true, true_and, move_ok, exists_unit]
      split <;> simp only [setAllowance_ok, pure_ok, exists_eq_left', true_and]

end Erc20

section Dispatch

theorem call_ok {out : Buffer} :
    call api abi callData s = .ok out t ↔ 4 ≤ callData.length ∧ ∃ f, pairFn callData = some f ∧
      run api abi callData f s = .ok out t := by
  unfold call
  split
  · rename_i h
    exact ⟨fun hr => absurd hr revert_ok, fun hr => absurd hr.1 (Nat.not_le.mpr h)⟩
  · rename_i h
    rw [Nat.not_lt] at h
    cases hf : pairFn callData with
    | none => simp [revert_ok]
    | some f => simp [h]

theorem callOnHeap_ok {allocates : List Nat → Bool} {out : Buffer} :
    callOnHeap api abi callData allocates s = .ok out t ↔
      HasRoom abi callData allocates ∧ call api abi callData s = .ok out t := by
  rw [callOnHeap]
  split
  · rename_i h
    exact (and_iff_right h).symm
  · rename_i h
    exact ⟨fun hr => absurd hr trap_ok, fun hr => absurd hr.1 h⟩

theorem run_view {f : PairFn} (hf : f.isView = true) {out : Buffer}
    (h : run api abi callData f s = .ok out t) : t = s := by
  cases f <;> simp only [PairFn.isView, Bool.false_eq_true] at hf <;>
    simp only [run, bind_ok, pure_ok, getFactory_ok, getToken0_ok, getToken1_ok, getReserves_ok,
      storageGetU256_ok, getBalance_ok, getAllowance_ok, orRevert_ok, exists_and_left,
      exists_eq_left', and_assoc] at h
  case balanceOf | allowance =>
    obtain ⟨_, -, -, rfl⟩ := h
    rfl
  all_goals exact h.2.symm

inductive Executed (api : Api κ W) (abi : PairAbi) (callData : Buffer) (s t : State κ W) : PairFn → Prop
  | view {f : PairFn} (hf : f.isView = true) (h : t = s) : Executed api abi callData s t f
  | initializePair (h : initializePair api abi callData s = .ok () t) :
    Executed api abi callData s t .initializePair
  | mint {l : U256} (h : mint api abi callData s = .ok l t) : Executed api abi callData s t .mint
  | burn {p : U256 × U256} (h : burn api abi callData s = .ok p t) : Executed api abi callData s t .burn
  | swap (h : swap api abi callData s = .ok () t) : Executed api abi callData s t .swap
  | skim (h : skim api abi callData s = .ok () t) : Executed api abi callData s t .skim
  | sync (h : sync api s = .ok () t) : Executed api abi callData s t .sync
  | approve (h : approve api abi callData s = .ok () t) : Executed api abi callData s t .approve
  | transfer (h : transfer api abi callData s = .ok () t) : Executed api abi callData s t .transfer
  | transferFrom (h : transferFrom api abi callData s = .ok () t) :
    Executed api abi callData s t .transferFrom

theorem executed_of_run {f : PairFn} {out : Buffer} (h : run api abi callData f s = .ok out t) :
    Executed api abi callData s t f := by
  cases f
  case initializePair =>
    obtain ⟨_, h, -⟩ := bind_pure_ok.mp h
    exact .initializePair h
  case mint =>
    obtain ⟨l, h, -⟩ := bind_pure_ok.mp h
    exact .mint h
  case burn =>
    obtain ⟨p, h, -⟩ := bind_pure_ok.mp h
    exact .burn h
  case swap =>
    obtain ⟨_, h, -⟩ := bind_pure_ok.mp h
    exact .swap h
  case skim =>
    obtain ⟨_, h, -⟩ := bind_pure_ok.mp h
    exact .skim h
  case sync =>
    obtain ⟨_, h, -⟩ := bind_pure_ok.mp h
    exact .sync h
  case approve =>
    obtain ⟨_, h, -⟩ := bind_pure_ok.mp h
    exact .approve h
  case transfer =>
    obtain ⟨_, h, -⟩ := bind_pure_ok.mp h
    exact .transfer h
  case transferFrom =>
    obtain ⟨_, h, -⟩ := bind_pure_ok.mp h
    exact .transferFrom h
  all_goals exact .view rfl (run_view rfl h)

theorem executed_of_call {out : Buffer} (h : call api abi callData s = .ok out t) :
    ∃ f, pairFn callData = some f ∧ Executed api abi callData s t f := by
  obtain ⟨-, f, hf, hr⟩ := call_ok.mp h
  exact ⟨f, hf, executed_of_run hr⟩

end Dispatch

end RiscVContracts.PairSpec
