import RiscVContracts.Uniswap.PairSpec

namespace RiscVContracts.PairInvariants

open Programs Bytes Host Storage Math Pair PairView PairSpec

variable {κ W : Type} {J E : State κ W → Prop}

section Pure

variable (failed : ∀ s, J s → E s)

include failed

theorem keeps_revert {α : Type} : Keeps J E (revert : Program κ W α) := .throw failed

theorem keeps_trap {α : Type} : Keeps J E (trap : Program κ W α) := .throw failed

theorem keeps_orRevert {α : Type} (o : Option α) : Keeps J E (orRevert o : Program κ W α) := by
  cases o with
  | none => exact keeps_revert failed
  | some a => exact .pure a

theorem keeps_toUint (n : Nat) (x : U256) : Keeps J E (toUint n x : Program κ W (BitVec n)) :=
  .ite (.pure _) (keeps_trap failed)

theorem keeps_divU256 (x y : U256) : Keeps J E (divU256 x y : Program κ W U256) :=
  .ite (keeps_trap failed) (.pure _)

end Pure

section Reads

variable {api : Api κ W}

theorem keeps_storageGet (slot : U32) : Keeps J E (storageGetU256 api slot) := fun _ h => h

theorem keeps_getBalance (a : Address) : Keeps J E (getBalance api a) := fun _ h => h

theorem keeps_getAllowance (o p : Address) : Keeps J E (getAllowance api o p) := fun _ h => h

theorem keeps_getFactory : Keeps J E (getFactory api) := .bind (keeps_storageGet _) fun _ => .pure _

theorem keeps_getToken0 : Keeps J E (getToken0 api) := .bind (keeps_storageGet _) fun _ => .pure _

theorem keeps_getToken1 : Keeps J E (getToken1 api) := .bind (keeps_storageGet _) fun _ => .pure _

theorem keeps_getReserves (failed : ∀ s, J s → E s) : Keeps J E (getReserves api) := by
  refine .bind (keeps_storageGet _) fun _ => .bind (keeps_toUint failed 32 _) fun _ => ?_
  exact .bind (keeps_toUint failed 128 _) fun _ => .bind (keeps_toUint failed 128 _) fun _ => .pure _

end Reads

variable [DecidableEq κ]

/-- A property of states that the functions without the lock cannot break. -/
structure Unaffected (api : Api κ W) (J E : State κ W → Prop) : Prop where
  balance : ∀ s a v, J s → J (s.set (mappingKey1 api slotBalanceOf a) v)
  allowance : ∀ s o p v, J s → J (s.set (mappingKey2 api slotAllowance o p) v)
  failed : ∀ s, J s → E s

/-- A property that no function but `initialize` can break while it holds the
lock, whatever the tokens do in their calls. -/
structure Stable (api : Api κ W) (J E : State κ W → Prop) : Prop extends Unaffected api J E where
  supply : ∀ s v, J s → J (s.set (slotKey api slotTotalSupply) v)
  reserves : ∀ s v, J s → J (s.set (slotKey api slotReserves) v)
  token : ∀ callee input s, J s → J (api.callEvm callee input s).2
  rejected : ∀ s, J s → E (unlocked api s)

/-- What the functions under the lock other than `initialize` need to keep a
property. They write no allowance. -/
structure Guarded (api : Api κ W) (J E : State κ W → Prop) : Prop where
  balance : ∀ s a v, J s → J (s.set (mappingKey1 api slotBalanceOf a) v)
  supply : ∀ s v, J s → J (s.set (slotKey api slotTotalSupply) v)
  reserves : ∀ s v, J s → J (s.set (slotKey api slotReserves) v)
  safeTransfer : ∀ token recipient v, Keeps J E (safeTransfer api token recipient v)
  safeBalanceOf : ∀ token account, Keeps J E (safeBalanceOf api token account)
  failed : ∀ s, J s → E s
  rejected : ∀ s, J s → E (unlocked api s)

variable {api : Api κ W} {abi : PairAbi} {callData : Buffer}

namespace Unaffected

variable (un : Unaffected api J E)

include un

theorem setBalance (a : Address) (v : U256) : Keeps J E (setBalance api a v) :=
  fun s h => un.balance s a v h

theorem setAllowance (o p : Address) (v : U256) : Keeps J E (setAllowance api o p v) :=
  fun s h => un.allowance s o p v h

theorem move (sender recipient : Address) (bal v : U256) : Keeps J E (move api sender recipient bal v) :=
  .bind (un.setBalance _ _) fun _ => .bind (keeps_getBalance _) fun _ => un.setBalance _ _

theorem approve : Keeps J E (approve api abi callData) :=
  .bind (keeps_orRevert un.failed _) fun _ => un.setAllowance _ _ _

theorem transfer : Keeps J E (transfer api abi callData) := by
  refine .bind (keeps_orRevert un.failed _) fun _ => .bind (keeps_getBalance _) fun _ => ?_
  exact .ite (keeps_revert un.failed) (un.move _ _ _ _)

theorem transferFrom : Keeps J E (transferFrom api abi callData) := by
  refine .bind (keeps_orRevert un.failed _) fun _ => .bind (keeps_getAllowance _ _) fun _ => ?_
  refine .ite (keeps_revert un.failed) (.bind (keeps_getBalance _) fun _ => ?_)
  refine .ite (keeps_revert un.failed) (.bind ?_ fun _ => un.move _ _ _ _)
  exact .ite (un.setAllowance _ _ _) (.pure _)

theorem run {f : PairFn} (hf : f.guarded = false) : Keeps J E (run api abi callData f) := by
  cases f with
  | factory => exact .bind keeps_getFactory fun _ => .pure _
  | token0 => exact .bind keeps_getToken0 fun _ => .pure _
  | token1 => exact .bind keeps_getToken1 fun _ => .pure _
  | getReserves => exact .bind (keeps_getReserves un.failed) fun _ => .pure _
  | totalSupply | price0CumulativeLast | price1CumulativeLast | kLast =>
      exact .bind (keeps_storageGet _) fun _ => .pure _
  | balanceOf =>
      exact .bind (keeps_orRevert un.failed _) fun _ => .bind (keeps_getBalance _) fun _ => .pure _
  | allowance =>
      exact .bind (keeps_orRevert un.failed _) fun _ => .bind (keeps_getAllowance _ _) fun _ => .pure _
  | minimumLiquidity => exact .pure _
  | approve => exact .bind un.approve fun _ => .pure _
  | transfer => exact .bind un.transfer fun _ => .pure _
  | transferFrom => exact .bind un.transferFrom fun _ => .pure _
  | initializePair | mint | burn | swap | skim | sync => exact absurd hf (by decide)

end Unaffected

/-- `initialize` calls no token: it keeps what no write of its slots can break. -/
theorem initializePair_keeps (hset : ∀ s slot v, slot ∈ [slotToken0, slotToken1, slotUnlocked] →
      J s → J (s.set (slotKey api slot) v)) :
    Triple J (run api abi callData .initializePair) (fun _ t => ∃ u, J u ∧ t = unlocked api u) J := by
  have hset' {slot : U32} (hslot : slot ∈ [slotToken0, slotToken1, slotUnlocked]) (v : U256) :
      Keeps J J (storageSetU256 api slot v) := fun s h => hset s slot v hslot h
  have hlock : Keeps J J (requireUnlocked api) :=
    .bind (keeps_storageGet _) fun _ => .ite (keeps_revert fun _ h => h) (hset' (by decide) _)
  have hreject (c : Prop) [Decidable c] : Keeps J J (rejectIf api c) :=
    .ite (.bind (hset' (by decide) _) fun _ => keeps_revert fun _ h => h) (.pure ())
  refine .bind (.bind hlock fun _ => .bind (keeps_orRevert (fun _ h => h) _) fun _ => ?_)
    fun _ => .pure fun _ h => h
  refine .bind (keeps_storageGet _) fun _ => .bind (hreject _) fun _ => ?_
  exact .bind (hset' (by decide) _) fun _ => .bind (hset' (by decide) _) fun _ s h => ⟨s, h, rfl⟩

section Calls

variable (failed : ∀ s, J s → E s) (token : ∀ callee input s, J s → J (api.callEvm callee input s).2)

include token

omit [DecidableEq κ] in
theorem keeps_callEvm (callee : Address) (input : Buffer) : Keeps J E (callEvm api callee input) :=
  fun s h => token callee input s h

include failed

omit [DecidableEq κ] in
theorem keeps_safeTransfer (callee recipient : Address) (v : U256) :
    Keeps J E (safeTransfer api callee recipient v) :=
  .bind (keeps_callEvm token _ _) fun o => by cases o <;> [exact keeps_revert failed; exact .pure ()]

omit [DecidableEq κ] in
theorem keeps_safeBalanceOf (callee account : Address) : Keeps J E (safeBalanceOf api callee account) :=
  .bind (keeps_callEvm token _ _) fun o => by cases o <;> [exact keeps_revert failed; exact .pure _]

end Calls

namespace Guarded

variable (st : Guarded api J E)

include st

section Steps

theorem rejectIf (c : Prop) [Decidable c] : Keeps J E (rejectIf api c) := by
  unfold Pair.rejectIf
  split
  · intro s h
    exact st.rejected s h
  · exact .pure ()

theorem setBalance (a : Address) (v : U256) : Keeps J E (setBalance api a v) :=
  fun s h => st.balance s a v h

theorem setSupply (v : U256) : Keeps J E (storageSetU256 api slotTotalSupply v) :=
  fun s h => st.supply s v h

theorem setReserves (r0 r1 : U128) (ts : U32) : Keeps J E (setReserves api r0 r1 ts) :=
  fun s h => st.reserves s _ h

theorem observeBalances (token0 token1 : Address) : Keeps J E (observeBalances api token0 token1) :=
  .bind (st.safeBalanceOf _ _) fun _ => .bind (st.safeBalanceOf _ _) fun _ => .pure _

theorem payout (token recipient : Address) (v : U256) : Keeps J E (payout api token recipient v) :=
  .ite (st.safeTransfer _ _ _) (.pure ())

theorem updateReserves (b : Balances) : Keeps J E (updateReserves api b) := by
  refine .bind (keeps_toUint st.failed 128 _) fun _ => .bind (keeps_toUint st.failed 128 _) fun _ => ?_
  exact .bind (keeps_toUint st.failed 32 _) fun _ => st.setReserves _ _ _

end Steps

section Bodies

theorem mintLiquidity (supply a0 a1 : U256) (r : Reserves) :
    Keeps J E (mintLiquidity api supply a0 a1 r) := by
  refine .ite ?_ ?_
  · unfold firstLiquidity
    split
    · exact keeps_trap st.failed
    · refine .bind (st.rejectIf _) fun _ => .bind (st.setSupply _) fun _ => ?_
      exact .bind (st.setBalance _ _) fun _ => .pure _
  · refine .bind (keeps_divU256 st.failed _ _) fun _ => .bind (keeps_divU256 st.failed _ _) fun _ => ?_
    exact .bind (st.rejectIf _) fun _ => .bind (st.setSupply _) fun _ => .pure _

theorem mintSettle (recipient : Address) : Keeps J E (mintSettle api recipient) := by
  refine .bind (keeps_getReserves st.failed) fun _ => .bind keeps_getToken0 fun _ => ?_
  refine .bind keeps_getToken1 fun _ => .bind (st.observeBalances _ _) fun _ => ?_
  refine .bind (keeps_storageGet _) fun _ => .bind (st.mintLiquidity _ _ _ _) fun _ => ?_
  exact .bind (keeps_getBalance _) fun _ => .bind (st.setBalance _ _) fun _ => .pure _

theorem burnSettle (recipient : Address) : Keeps J E (burnSettle api recipient) := by
  refine .bind (keeps_getBalance _) fun _ => .bind (st.rejectIf _) fun _ => ?_
  refine .bind (keeps_storageGet _) fun _ => .bind keeps_getToken0 fun _ => ?_
  refine .bind keeps_getToken1 fun _ => .bind (st.observeBalances _ _) fun _ => ?_
  refine .bind (keeps_divU256 st.failed _ _) fun _ => .bind (keeps_divU256 st.failed _ _) fun _ => ?_
  refine .bind (st.rejectIf _) fun _ => .bind (st.setBalance _ _) fun _ => ?_
  refine .bind (st.setSupply _) fun _ => .bind (st.safeTransfer _ _ _) fun _ => ?_
  refine .bind (st.safeTransfer _ _ _) fun _ => .bind (st.observeBalances _ _) fun _ => .pure _

theorem swapSettle (decoded : SwapArgs) : Keeps J E (swapSettle api decoded) := by
  refine .bind (st.rejectIf _) fun _ => .bind (keeps_getReserves st.failed) fun _ => ?_
  refine .bind (st.rejectIf _) fun _ => .bind keeps_getToken0 fun _ => ?_
  refine .bind keeps_getToken1 fun _ => .bind (st.rejectIf _) fun _ => ?_
  refine .bind (st.payout _ _ _) fun _ => .bind (st.payout _ _ _) fun _ => ?_
  refine .bind (st.observeBalances _ _) fun _ => .bind (st.rejectIf _) fun _ => ?_
  exact .bind (st.rejectIf _) fun _ => .pure _

theorem syncSettle : Keeps J E (syncSettle api) :=
  .bind keeps_getToken0 fun _ => .bind keeps_getToken1 fun _ => st.observeBalances _ _

end Bodies

section Run

omit st in
theorem requireUnlocked : Triple (fun s => E s ∧ (slots api s slotUnlocked = 1 → J (locked api s)))
    (requireUnlocked api) (fun _ => J) E := by
  intro s hs
  by_cases h : slots api s slotUnlocked = 1
  · have hr : Pair.requireUnlocked api s = .ok () (locked api s) := requireUnlocked_ok.mpr ⟨h, rfl⟩
    rw [hr]
    exact hs.2 h
  · rw [requireUnlocked_error h]
    exact hs.1

omit st in
theorem setUnlocked : Triple J (setUnlocked api) (fun _ t => ∃ u, J u ∧ t = unlocked api u) E :=
  fun s h => ⟨s, h, rfl⟩

/-- A guarded function other than `initialize` that returns gives the lock
back in a state of `J`. -/
theorem run {f : PairFn} (hf : f.guarded = true) (hne : f ≠ .initializePair) :
    Triple (fun s => E s ∧ (slots api s slotUnlocked = 1 → J (locked api s)))
      (run api abi callData f) (fun _ t => ∃ u, J u ∧ t = unlocked api u) E := by
  cases f with
  | mint =>
      refine .bind (.bind requireUnlocked fun _ => .bind (keeps_orRevert st.failed _) fun _ => ?_)
        fun _ => .pure fun _ h => h
      refine .bind (st.mintSettle _) fun _ => .bind (st.updateReserves _) fun _ => ?_
      exact .bind setUnlocked fun _ => .pure fun _ h => h
  | burn =>
      refine .bind (.bind requireUnlocked fun _ => .bind (keeps_orRevert st.failed _) fun _ => ?_)
        fun _ => .pure fun _ h => h
      refine .bind (st.burnSettle _) fun _ => .bind (st.updateReserves _) fun _ => ?_
      exact .bind setUnlocked fun _ => .pure fun _ h => h
  | swap =>
      refine .bind (.bind requireUnlocked fun _ => .bind (keeps_orRevert st.failed _) fun _ => ?_)
        fun _ => .pure fun _ h => h
      exact .bind (st.swapSettle _) fun _ => .bind (st.updateReserves _) fun _ => setUnlocked
  | skim =>
      refine .bind (.bind requireUnlocked fun _ => .bind (keeps_orRevert st.failed _) fun _ => ?_)
        fun _ => .pure fun _ h => h
      refine .bind (keeps_getReserves st.failed) fun _ => .bind keeps_getToken0 fun _ => ?_
      refine .bind keeps_getToken1 fun _ => .bind (st.observeBalances _ _) fun _ => ?_
      exact .bind (st.safeTransfer _ _ _) fun _ => .bind (st.safeTransfer _ _ _) fun _ => setUnlocked
  | sync =>
      refine .bind (.bind requireUnlocked fun _ => .bind st.syncSettle fun _ => ?_)
        fun _ => .pure fun _ h => h
      refine .bind (keeps_getReserves st.failed) fun _ => .bind (keeps_toUint st.failed 128 _) fun _ => ?_
      refine .bind (keeps_toUint st.failed 128 _) fun _ => .bind (st.setReserves _ _ _) fun _ => ?_
      exact setUnlocked
  | initializePair => exact absurd rfl hne
  | factory | token0 | token1 | getReserves | totalSupply | balanceOf | allowance
  | minimumLiquidity | price0CumulativeLast | price1CumulativeLast | kLast
  | approve | transfer | transferFrom => exact absurd hf (by decide)

end Run

end Guarded

namespace Stable

variable (st : Stable api J E)

include st

theorem guarded : Guarded api J E where
  balance := st.balance
  supply := st.supply
  reserves := st.reserves
  safeTransfer := keeps_safeTransfer st.failed st.token
  safeBalanceOf := keeps_safeBalanceOf st.failed st.token
  failed := st.failed
  rejected := st.rejected

theorem run {f : PairFn} (hf : f.guarded = true) (hne : f ≠ .initializePair) :
    Triple (fun s => E s ∧ (slots api s slotUnlocked = 1 → J (locked api s)))
      (run api abi callData f) (fun _ t => ∃ u, J u ∧ t = unlocked api u) E :=
  st.guarded.run hf hne

end Stable

end RiscVContracts.PairInvariants
