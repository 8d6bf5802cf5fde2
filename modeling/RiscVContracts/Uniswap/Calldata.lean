import RiscVContracts.Uniswap.Factory

namespace RiscVContracts.Calldata

open Bytes Host Pair Factory

/-- The ABI layout of a call: a selector and one 32-byte word for each argument. -/
def encodeCall (selector : Buffer) (args : List U256) : Buffer := selector ++ args.flatMap toBeBytes

def initializeData (token0 token1 : Address) : Buffer :=
  encodeCall PairFn.initializePair.selector [padAddress token0, padAddress token1]

def createPairData (tokenA tokenB : Address) : Buffer :=
  encodeCall FactoryFn.createPair.selector [padAddress tokenA, padAddress tokenB]

def wordAt (callData : Buffer) (i : Nat) : Option U256 :=
  if 4 + 32 * (i + 1) ≤ callData.length then
    some (fromBeSlice ((callData.drop (4 + 32 * i)).take 32))
  else none

def addressAt (callData : Buffer) (i : Nat) : Option Address := (wordAt callData i).map lowAddress

def bytesAt (callData : Buffer) (i : Nat) : Option Buffer := do
  let offset ← wordAt callData i
  let args := callData.drop 4
  if offset.toNat + 32 ≤ args.length then
    let length := (fromBeSlice ((args.drop offset.toNat).take 32)).toNat
    if offset.toNat + 32 + length ≤ args.length then
      some ((args.drop (offset.toNat + 32)).take length)
    else none
  else none

def standardAbi : PairAbi where
  balanceOfCall d := addressAt d 0
  allowanceCall d := do return (← addressAt d 0, ← addressAt d 1)
  initializeCall d := do return { token0 := ← addressAt d 0, token1 := ← addressAt d 1 }
  mintCall d := addressAt d 0
  burnCall d := addressAt d 0
  swapCall d := do
    return {
      amount0Out := ← wordAt d 0
      amount1Out := ← wordAt d 1
      recipient := ← addressAt d 2
      data := ← bytesAt d 3 }
  skimCall d := addressAt d 0
  approveCall d := do return { spender := ← addressAt d 0, value := ← wordAt d 1 }
  transferCall d := do return { recipient := ← addressAt d 0, value := ← wordAt d 1 }
  transferFromCall d := do
    return { sender := ← addressAt d 0, recipient := ← addressAt d 1, value := ← wordAt d 2 }

def standardFactoryAbi : FactoryAbi where
  getPairCall d := do return (← addressAt d 0, ← addressAt d 1)
  allPairsCall d := wordAt d 0
  createPairCall d := do return (← addressAt d 0, ← addressAt d 1)
  setFeeToCall d := addressAt d 0
  setFeeToSetterCall d := addressAt d 0

@[simp] theorem toBeBytes_length (x : U256) : (toBeBytes x).length = 32 := beBytes_length 32 x.toNat

theorem flatMap_toBeBytes_length (args : List U256) : (args.flatMap toBeBytes).length = 32 * args.length := by
  induction args with
  | nil => rfl
  | cons a args ih =>
      rw [List.flatMap_cons, List.length_append, toBeBytes_length, ih, List.length_cons]
      omega

theorem drop_flatMap_toBeBytes (args : List U256) (i : Nat) :
    (args.flatMap toBeBytes).drop (32 * i) = (args.drop i).flatMap toBeBytes := by
  induction i generalizing args with
  | zero => rfl
  | succ i ih =>
      cases args with
      | nil => simp
      | cons a args =>
          rw [List.flatMap_cons, Nat.mul_succ, Nat.add_comm, ← List.drop_drop, List.drop_left'
            (toBeBytes_length a), ih, List.drop_succ_cons]

theorem wordAt_encodeCall {selector : Buffer} (hs : selector.length = 4) {args : List U256} {i : Nat}
    {x : U256} (hx : args[i]? = some x) : wordAt (encodeCall selector args) i = some x := by
  obtain ⟨hi, rfl⟩ := List.getElem?_eq_some_iff.mp hx
  have hlen : 4 + 32 * (i + 1) ≤ (encodeCall selector args).length := by
    rw [encodeCall, List.length_append, hs, flatMap_toBeBytes_length]
    omega
  have hdrop : (encodeCall selector args).drop (4 + 32 * i) = toBeBytes args[i] ++
      (args.drop (i + 1)).flatMap toBeBytes := by
    rw [encodeCall, ← List.drop_drop, List.drop_left' hs, drop_flatMap_toBeBytes,
      List.drop_eq_getElem_cons hi, List.flatMap_cons]
  rw [wordAt, if_pos hlen, hdrop, List.take_left' (toBeBytes_length _), fromBeSlice_toBeBytes]

theorem addressAt_encodeCall {selector : Buffer} (hs : selector.length = 4) {args : List U256} {i : Nat}
    {a : Address} (ha : args[i]? = some (padAddress a)) :
    addressAt (encodeCall selector args) i = some a := by
  rw [addressAt, wordAt_encodeCall hs ha, Option.map_some, lowAddress_padAddress]

theorem take_encodeCall {selector : Buffer} (hs : selector.length = 4) (args : List U256) :
    (encodeCall selector args).take 4 = selector := List.take_left' hs

theorem selector_length (f : PairFn) : f.selector.length = 4 := by cases f <;> rfl

/-- Distinct functions have distinct selectors, so the encoding names its function. -/
theorem pairFn_encodeCall (f : PairFn) (args : List U256) :
    pairFn (encodeCall f.selector args) = some f := by
  rw [pairFn, take_encodeCall (selector_length f)]
  cases f <;> rfl

theorem length_of_pairFn {callData : Buffer} {f : PairFn} (h : pairFn callData = some f) :
    4 ≤ callData.length := by
  have hsel := List.find?_some h
  have hlen := congrArg List.length (of_decide_eq_true hsel)
  rw [selector_length, List.length_take] at hlen
  omega

theorem call_eq_run {κ W : Type} [DecidableEq κ] {api : Api κ W} {abi : PairAbi} {callData : Buffer}
    {f : PairFn} {s : State κ W} (hf : pairFn callData = some f) :
    Pair.call api abi callData s = Pair.run api abi callData f s := by
  rw [Pair.call, if_neg (Nat.not_lt.mpr (length_of_pairFn hf)), hf]

end RiscVContracts.Calldata
