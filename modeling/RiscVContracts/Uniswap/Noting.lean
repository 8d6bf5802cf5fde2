import RiscVContracts.Uniswap.Pair

namespace RiscVContracts.Noting

open Programs Bytes Host Storage Math Pair

variable {κ W L : Type}

/-- The host, which notes each call of another contract and its answer. Nothing
it is asked for depends on the notes. -/
def noting (note : Buffer → Option Buffer → L → L) (api : Api κ W) : Api κ (W × L) where
  word := api.word
  word_injective := api.word_injective
  hashKeccak256 := api.hashKeccak256
  caller := api.caller
  address := api.address
  now := api.now
  callEvm callee input s :=
    let r := api.callEvm callee input { storage := s.storage, world := s.world.1 }
    (r.1, { storage := r.2.storage, world := (r.2.world, note input r.1 s.world.2) })

def forget (s : State κ (W × L)) : State κ W where
  storage := s.storage
  world := s.world.1

def blank (l : L) (s : State κ W) : State κ (W × L) where
  storage := s.storage
  world := (s.world, l)

@[simp] theorem forget_blank (l : L) (s : State κ W) : forget (blank l s) = s := rfl

variable {note : Buffer → Option Buffer → L → L} {api : Api κ W} {abi : PairAbi} {callData : Buffer}

section Pure

variable {α : Type}

theorem revert_noting :
    Projects (forget : State κ (W × L) → State κ W) (revert : Program κ W α) revert :=
  .throw _

theorem trap_noting : Projects (forget : State κ (W × L) → State κ W) (trap : Program κ W α) trap :=
  .throw _

theorem orRevert_noting (o : Option α) :
    Projects (forget : State κ (W × L) → State κ W) (orRevert o : Program κ W α) (orRevert o) := by
  cases o with
  | none => exact revert_noting
  | some a => exact .pure a

theorem toUint_noting (n : Nat) (x : U256) :
    Projects (forget : State κ (W × L) → State κ W) (toUint n x : Program κ W _) (toUint n x) :=
  .ite (.pure _) trap_noting

theorem divU256_noting (x y : U256) :
    Projects (forget : State κ (W × L) → State κ W) (divU256 x y : Program κ W _) (divU256 x y) :=
  .ite trap_noting (.pure _)

end Pure

section Reads

theorem storageGet_noting (slot : U32) :
    Projects forget (storageGetU256 api slot) (storageGetU256 (noting note api) slot) := fun _ => rfl

theorem getBalance_noting (a : Address) :
    Projects forget (getBalance api a) (getBalance (noting note api) a) := fun _ => rfl

theorem getAllowance_noting (o p : Address) :
    Projects forget (getAllowance api o p) (getAllowance (noting note api) o p) := fun _ => rfl

theorem getToken0_noting : Projects forget (getToken0 api) (getToken0 (noting note api)) :=
  .bind (storageGet_noting _) fun _ => .pure _

theorem getToken1_noting : Projects forget (getToken1 api) (getToken1 (noting note api)) :=
  .bind (storageGet_noting _) fun _ => .pure _

theorem getReserves_noting : Projects forget (getReserves api) (getReserves (noting note api)) := by
  refine .bind (storageGet_noting _) fun _ => .bind (toUint_noting 32 _) fun _ => ?_
  exact .bind (toUint_noting 128 _) fun _ => .bind (toUint_noting 128 _) fun _ => .pure _

end Reads

section Tokens

theorem callEvm_noting (callee : Address) (input : Buffer) :
    Projects forget (callEvm api callee input) (callEvm (noting note api) callee input) := fun _ => rfl

theorem safeTransfer_noting (token recipient : Address) (v : U256) :
    Projects forget (safeTransfer api token recipient v) (safeTransfer (noting note api) token recipient v) :=
  .bind (callEvm_noting _ _) fun o => by cases o <;> [exact revert_noting; exact .pure ()]

theorem safeBalanceOf_noting (token account : Address) :
    Projects forget (safeBalanceOf api token account) (safeBalanceOf (noting note api) token account) :=
  .bind (callEvm_noting _ _) fun o => by cases o <;> [exact revert_noting; exact .pure _]

theorem observeBalances_noting (token0 token1 : Address) :
    Projects forget (observeBalances api token0 token1) (observeBalances (noting note api) token0 token1) :=
  .bind (safeBalanceOf_noting _ _) fun _ => .bind (safeBalanceOf_noting _ _) fun _ => .pure _

theorem payout_noting (token recipient : Address) (v : U256) :
    Projects forget (payout api token recipient v) (payout (noting note api) token recipient v) :=
  .ite (safeTransfer_noting _ _ _) (.pure ())

end Tokens

variable [DecidableEq κ]

section Writes

theorem storageSet_noting (slot : U32) (v : U256) :
    Projects forget (storageSetU256 api slot v) (storageSetU256 (noting note api) slot v) := fun _ => rfl

theorem setBalance_noting (a : Address) (v : U256) :
    Projects forget (setBalance api a v) (setBalance (noting note api) a v) := fun _ => rfl

theorem setAllowance_noting (o p : Address) (v : U256) :
    Projects forget (setAllowance api o p v) (setAllowance (noting note api) o p v) := fun _ => rfl

theorem setReserves_noting (r0 r1 : U128) (ts : U32) :
    Projects forget (setReserves api r0 r1 ts) (setReserves (noting note api) r0 r1 ts) :=
  storageSet_noting _ _

theorem requireUnlocked_noting : Projects forget (requireUnlocked api) (requireUnlocked (noting note api)) :=
  .bind (storageGet_noting _) fun _ => .ite revert_noting (storageSet_noting _ _)

theorem setUnlocked_noting : Projects forget (setUnlocked api) (setUnlocked (noting note api)) :=
  storageSet_noting _ _

theorem rejectIf_noting (c : Prop) [Decidable c] :
    Projects forget (rejectIf api c) (rejectIf (noting note api) c) :=
  .ite (.bind setUnlocked_noting fun _ => revert_noting) (.pure ())

theorem updateReserves_noting (b : Balances) :
    Projects forget (updateReserves api b) (updateReserves (noting note api) b) := by
  refine .bind (toUint_noting 128 _) fun _ => .bind (toUint_noting 128 _) fun _ => ?_
  exact .bind (toUint_noting 32 _) fun _ => setReserves_noting _ _ _

theorem move_noting (sender recipient : Address) (bal v : U256) :
    Projects forget (move api sender recipient bal v) (move (noting note api) sender recipient bal v) :=
  .bind (setBalance_noting _ _) fun _ => .bind (getBalance_noting _) fun _ => setBalance_noting _ _

end Writes

section Functions

theorem initializePair_noting :
    Projects forget (initializePair api abi callData) (initializePair (noting note api) abi callData) := by
  refine .bind requireUnlocked_noting fun _ => .bind (orRevert_noting _) fun _ => ?_
  refine .bind (storageGet_noting _) fun _ => .bind (rejectIf_noting _) fun _ => ?_
  exact .bind (storageSet_noting _ _) fun _ => .bind (storageSet_noting _ _) fun _ => setUnlocked_noting

theorem mintLiquidity_noting (supply a0 a1 : U256) (r : Reserves) :
    Projects forget (mintLiquidity api supply a0 a1 r) (mintLiquidity (noting note api) supply a0 a1 r) := by
  refine .ite ?_ ?_
  · unfold firstLiquidity
    split
    · exact trap_noting
    · refine .bind (rejectIf_noting _) fun _ => .bind (storageSet_noting _ _) fun _ => ?_
      exact .bind (setBalance_noting _ _) fun _ => .pure _
  · refine .bind (divU256_noting _ _) fun _ => .bind (divU256_noting _ _) fun _ => ?_
    exact .bind (rejectIf_noting _) fun _ => .bind (storageSet_noting _ _) fun _ => .pure _

theorem mintSettle_noting (recipient : Address) :
    Projects forget (mintSettle api recipient) (mintSettle (noting note api) recipient) := by
  refine .bind getReserves_noting fun _ => .bind getToken0_noting fun _ => ?_
  refine .bind getToken1_noting fun _ => .bind (observeBalances_noting _ _) fun _ => ?_
  refine .bind (storageGet_noting _) fun _ => .bind (mintLiquidity_noting _ _ _ _) fun _ => ?_
  exact .bind (getBalance_noting _) fun _ => .bind (setBalance_noting _ _) fun _ => .pure _

theorem mint_noting : Projects forget (mint api abi callData) (mint (noting note api) abi callData) := by
  refine .bind requireUnlocked_noting fun _ => .bind (orRevert_noting _) fun _ => ?_
  refine .bind (mintSettle_noting _) fun _ => .bind (updateReserves_noting _) fun _ => ?_
  exact .bind setUnlocked_noting fun _ => .pure _

theorem burnSettle_noting (recipient : Address) :
    Projects forget (burnSettle api recipient) (burnSettle (noting note api) recipient) := by
  refine .bind (getBalance_noting _) fun _ => .bind (rejectIf_noting _) fun _ => ?_
  refine .bind (storageGet_noting _) fun _ => .bind getToken0_noting fun _ => ?_
  refine .bind getToken1_noting fun _ => .bind (observeBalances_noting _ _) fun _ => ?_
  refine .bind (divU256_noting _ _) fun _ => .bind (divU256_noting _ _) fun _ => ?_
  refine .bind (rejectIf_noting _) fun _ => .bind (setBalance_noting _ _) fun _ => ?_
  refine .bind (storageSet_noting _ _) fun _ => .bind (safeTransfer_noting _ _ _) fun _ => ?_
  exact .bind (safeTransfer_noting _ _ _) fun _ => .bind (observeBalances_noting _ _) fun _ => .pure _

theorem burn_noting : Projects forget (burn api abi callData) (burn (noting note api) abi callData) := by
  refine .bind requireUnlocked_noting fun _ => .bind (orRevert_noting _) fun _ => ?_
  refine .bind (burnSettle_noting _) fun _ => .bind (updateReserves_noting _) fun _ => ?_
  exact .bind setUnlocked_noting fun _ => .pure _

theorem swapSettle_noting (decoded : SwapArgs) :
    Projects forget (swapSettle api decoded) (swapSettle (noting note api) decoded) := by
  refine .bind (rejectIf_noting _) fun _ => .bind getReserves_noting fun _ => ?_
  refine .bind (rejectIf_noting _) fun _ => .bind getToken0_noting fun _ => ?_
  refine .bind getToken1_noting fun _ => .bind (rejectIf_noting _) fun _ => ?_
  refine .bind (payout_noting _ _ _) fun _ => .bind (payout_noting _ _ _) fun _ => ?_
  refine .bind (observeBalances_noting _ _) fun _ => .bind (rejectIf_noting _) fun _ => ?_
  exact .bind (rejectIf_noting _) fun _ => .pure _

theorem swap_noting : Projects forget (swap api abi callData) (swap (noting note api) abi callData) := by
  refine .bind requireUnlocked_noting fun _ => .bind (orRevert_noting _) fun _ => ?_
  exact .bind (swapSettle_noting _) fun _ => .bind (updateReserves_noting _) fun _ => setUnlocked_noting

theorem skim_noting : Projects forget (skim api abi callData) (skim (noting note api) abi callData) := by
  refine .bind requireUnlocked_noting fun _ => .bind (orRevert_noting _) fun _ => ?_
  refine .bind getReserves_noting fun _ => .bind getToken0_noting fun _ => ?_
  refine .bind getToken1_noting fun _ => .bind (observeBalances_noting _ _) fun _ => ?_
  refine .bind (safeTransfer_noting _ _ _) fun _ => .bind (safeTransfer_noting _ _ _) fun _ => ?_
  exact setUnlocked_noting

theorem sync_noting : Projects forget (sync api) (sync (noting note api)) := by
  refine .bind requireUnlocked_noting fun _ => .bind ?_ fun _ => .bind getReserves_noting fun _ => ?_
  · exact .bind getToken0_noting fun _ => .bind getToken1_noting fun _ => observeBalances_noting _ _
  · refine .bind (toUint_noting 128 _) fun _ => .bind (toUint_noting 128 _) fun _ => ?_
    exact .bind (setReserves_noting _ _ _) fun _ => setUnlocked_noting

theorem approve_noting :
    Projects forget (approve api abi callData) (approve (noting note api) abi callData) :=
  .bind (orRevert_noting _) fun _ => setAllowance_noting _ _ _

theorem transfer_noting :
    Projects forget (transfer api abi callData) (transfer (noting note api) abi callData) := by
  refine .bind (orRevert_noting _) fun _ => .bind (getBalance_noting _) fun _ => ?_
  exact .ite revert_noting (move_noting _ _ _ _)

theorem transferFrom_noting :
    Projects forget (transferFrom api abi callData) (transferFrom (noting note api) abi callData) := by
  refine .bind (orRevert_noting _) fun _ => .bind (getAllowance_noting _ _) fun _ => ?_
  refine .ite revert_noting (.bind (getBalance_noting _) fun _ => ?_)
  refine .ite revert_noting (.bind ?_ fun _ => move_noting _ _ _ _)
  exact .ite (setAllowance_noting _ _ _) (.pure _)

end Functions

theorem run_noting (f : PairFn) :
    Projects forget (run api abi callData f) (run (noting note api) abi callData f) := by
  cases f with
  | factory => exact .bind (.bind (storageGet_noting _) fun _ => .pure _) fun _ => .pure _
  | token0 => exact .bind getToken0_noting fun _ => .pure _
  | token1 => exact .bind getToken1_noting fun _ => .pure _
  | getReserves => exact .bind getReserves_noting fun _ => .pure _
  | totalSupply | price0CumulativeLast | price1CumulativeLast | kLast =>
      exact .bind (storageGet_noting _) fun _ => .pure _
  | balanceOf => exact .bind (orRevert_noting _) fun _ => .bind (getBalance_noting _) fun _ => .pure _
  | allowance => exact .bind (orRevert_noting _) fun _ => .bind (getAllowance_noting _ _) fun _ => .pure _
  | minimumLiquidity => exact .pure _
  | initializePair => exact .bind initializePair_noting fun _ => .pure _
  | mint => exact .bind mint_noting fun _ => .pure _
  | burn => exact .bind burn_noting fun _ => .pure _
  | swap => exact .bind swap_noting fun _ => .pure _
  | skim => exact .bind skim_noting fun _ => .pure _
  | sync => exact .bind sync_noting fun _ => .pure _
  | approve => exact .bind approve_noting fun _ => .pure _
  | transfer => exact .bind transfer_noting fun _ => .pure _
  | transferFrom => exact .bind transferFrom_noting fun _ => .pure _

/-- A call of the pair does the same on a host that notes its external calls. -/
theorem call_noting (note : Buffer → Option Buffer → L → L) (api : Api κ W) (abi : PairAbi)
    (callData : Buffer) : Projects forget (call api abi callData) (call (noting note api) abi callData) := by
  refine .ite revert_noting ?_
  cases pairFn callData with
  | none => exact revert_noting
  | some f => exact run_noting f

end RiscVContracts.Noting
