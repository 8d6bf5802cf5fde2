import RiscVContracts.Uniswap.Tokens

namespace RiscVContracts.Runs

open Programs Bytes Host Storage Pair PairView PairSpec PairSlots Calldata Symbolic Tokens

variable {κ W : Type}

/-- A call of the pair by an account: its calldata, the clock, and what has
happened outside the pair since the call before. -/
structure Tx (W : Type) where
  caller : Address
  now : Vector UInt8 32
  callData : Buffer
  outside : W → W

def Tx.api (tx : Tx W) (api : Api κ W) : Api κ W := { api with caller := tx.caller, now := tx.now }

def Tx.before (tx : Tx W) (s : State κ W) : State κ W := { s with world := tx.outside s.world }

variable [DecidableEq κ]

/-- One transaction; the host rolls a failing call back. -/
def step (api : Api κ W) (abi : PairAbi) (tx : Tx W) (s : State κ W) : State κ W :=
  final (rollback (call (tx.api api) abi tx.callData) (tx.before s))

def deployed (api : Api κ W) (f : Address) (world : W) : State κ W :=
  final (deploy { api with caller := f } (State.fresh world))

section Heap

variable (api : Api κ W) (abi : PairAbi) (allocates : List Nat → Bool)

def stepOnHeap (tx : Tx W) (s : State κ W) : State κ W :=
  final (rollback (callOnHeap (tx.api api) abi tx.callData allocates) (tx.before s))

omit [DecidableEq κ] in
/-- The transaction, or one without calldata when the heap has no room for it. -/
def Tx.fit (tx : Tx W) : Tx W := if HasRoom abi tx.callData allocates then tx else { tx with callData := [] }

theorem stepOnHeap_eq (tx : Tx W) (s : State κ W) :
    stepOnHeap api abi allocates tx s = step api abi (tx.fit abi allocates) s := by
  unfold stepOnHeap callOnHeap Tx.fit
  split
  · rfl
  · rfl

/-- A run on a heap is one without, in which the calls that find no room are left
out: a call without calldata reverts as they trap. -/
theorem run_on_heap (txs : List (Tx W)) (s : State κ W) :
    states (stepOnHeap api abi allocates) txs s =
      states (step api abi) (txs.map (Tx.fit abi allocates)) s :=
  states_map (stepOnHeap_eq api abi allocates) txs s

end Heap

omit [DecidableEq κ] in
@[simp] theorem slots_api (tx : Tx W) (api : Api κ W) : slots (tx.api api) = slots api := rfl

omit [DecidableEq κ] in
theorem separated_api {api : Api κ W} (sep : Separated api) (tx : Tx W) : Separated (tx.api api) :=
  ⟨sep.balance, sep.balance_slot, sep.allowance_slot, sep.allowance_balance⟩

omit [DecidableEq κ] in
theorem noCallback_api {api : Api κ W} (alone : NoCallback api) (tx : Tx W) : NoCallback (tx.api api) :=
  alone

theorem step_cases (api : Api κ W) (abi : PairAbi) (tx : Tx W) (s : State κ W) :
    (∃ f, pairFn tx.callData = some f ∧
      Executed (tx.api api) abi tx.callData (tx.before s) (step api abi tx s) f) ∨
    step api abi tx s = tx.before s := by
  obtain ⟨out, h⟩ | h := final_rollback (call (tx.api api) abi tx.callData) (tx.before s)
  · exact .inl (executed_of_call h)
  · exact .inr h

theorem slots_deployed (api : Api κ W) (f : Address) (world : W) :
    slots api (deployed api f world) =
      Function.update (Function.update (fun _ => 0) slotFactory (padAddress f)) slotUnlocked 1 := by
  change slots api (((State.fresh world).set (slotKey api slotFactory) (padAddress f)).set
    (slotKey api slotUnlocked) 1) = _
  rw [slots_set_slot, slots_set_slot]
  rfl

theorem lp_deployed {api : Api κ W} (sep : Separated api) (f : Address) (world : W) (a : Address) :
    lp api (deployed api f world) a = 0 := by
  change lp api (((State.fresh world).set (slotKey api slotFactory) (padAddress f)).set
    (slotKey api slotUnlocked) 1) a = _
  rw [lp_set_slot sep, lp_set_slot sep]
  rfl

def holding (b0 b1 : U256) : Ledger := fun token account =>
  if account = 9 then if token = 1 then b0 else if token = 2 then b1 else 0 else 0

def ledgerTx (caller : Address) (callData : Buffer) : Tx Ledger where
  caller := caller
  now := Vector.replicate 32 0
  callData := callData
  outside := id

def ledgerStep (caller : Address) (callData : Buffer) : State Key Ledger → State Key Ledger :=
  step (ledgerApi caller 9) standardAbi (ledgerTx caller callData)

/-- The pair 9 over the tokens 1 and 2, deployed and set up by the account 7. -/
def samplePair (b0 b1 : U256) : State Key Ledger :=
  ledgerStep 7 (initializeData 1 2) (deployed (ledgerApi 7 9) 7 (holding b0 b1))

def syncedPair (b0 b1 : U256) : State Key Ledger :=
  ledgerStep 7 PairFn.sync.selector (samplePair b0 b1)

def mintData (recipient : Address) : Buffer :=
  encodeCall PairFn.mint.selector [padAddress recipient]

def burnData (recipient : Address) : Buffer :=
  encodeCall PairFn.burn.selector [padAddress recipient]

def mintedPair (b0 b1 : U256) : State Key Ledger := ledgerStep 5 (mintData 5) (samplePair b0 b1)

def swapData (amount0Out amount1Out : U256) (recipient : Address) : Buffer :=
  encodeCall PairFn.swap.selector [amount0Out, amount1Out, padAddress recipient, 128, 0]

end RiscVContracts.Runs
