import RiscVContracts.Uniswap.Pair

namespace RiscVContracts.Factory

open Programs Bytes Host Storage Pair

def slotFeeTo : U32 := 0
def slotFeeToSetter : U32 := 1
def slotGetPair : U32 := 2
def slotAllPairs : U32 := 3
def slotPairCodeHash : U32 := 4

variable {κ W : Type}

def arraySlot (api : Api κ W) (base : U32) (index : U256) : κ :=
  api.hashKeccak256 (slotKey api base) (api.word index)

def addressBytes (a : Address) : Buffer := beBytes 20 a.toNat

def sortTokens (a b : Address) : Address × Address :=
  if addressBytes a < addressBytes b then (a, b) else (b, a)

def encodeInitialize (token0 token1 : Address) : Buffer :=
  let data := zeros (4 + 32 + 32)
  let data := copyFromSlice data 0 [0x48, 0x5c, 0xc9, 0x55]
  let data := copyFromSlice data 16 (addressBytes token0)
  copyFromSlice data 48 (addressBytes token1)

section Storage

variable [DecidableEq κ] (api : Api κ W)

def getPairInternal (token0 token1 : Address) : Program κ W Address := do
  return lowAddress (← getStorageOrZero (mappingKey2 api slotGetPair token0 token1))

def setPair (token0 token1 pair : Address) : Program κ W Unit :=
  setStorageOrClear (mappingKey2 api slotGetPair token0 token1) (padAddress pair)

def allPairsLength : Program κ W U256 := storageGetU256 api slotAllPairs

def allPairsGet (index : U256) : Program κ W Address := do
  return lowAddress (← getStorageOrZero (arraySlot api slotAllPairs index))

def allPairsPush (pair : Address) : Program κ W Unit := do
  let len ← allPairsLength api
  setStorageOrClear (arraySlot api slotAllPairs len) (padAddress pair)
  storageSetU256 api slotAllPairs (len + 1)

end Storage

structure FactoryAbi where
  getPairCall : Buffer → Option (Address × Address)
  allPairsCall : Buffer → Option U256
  createPairCall : Buffer → Option (Address × Address)
  setFeeToCall : Buffer → Option Address
  setFeeToSetterCall : Buffer → Option Address

inductive FactoryFn
  | feeTo | feeToSetter | getPair | allPairs | allPairsLength | createPair | setFeeTo | setFeeToSetter
  deriving DecidableEq, Repr

def FactoryFn.selector : FactoryFn → Buffer
  | feeTo => [0x01, 0x7e, 0x7e, 0x58]
  | feeToSetter => [0x09, 0x4b, 0x74, 0x15]
  | getPair => [0xe6, 0xa4, 0x39, 0x05]
  | allPairs => [0x1e, 0x3d, 0xd1, 0x8b]
  | allPairsLength => [0x57, 0x4f, 0x2b, 0xa3]
  | createPair => [0xc9, 0xc6, 0x53, 0x96]
  | setFeeTo => [0xf4, 0x69, 0x01, 0xed]
  | setFeeToSetter => [0xa2, 0xe7, 0x4a, 0xf6]

def FactoryFn.all : List FactoryFn :=
  [feeTo, feeToSetter, getPair, allPairs, allPairsLength, createPair, setFeeTo, setFeeToSetter]

def factoryFn (callData : Buffer) : Option FactoryFn :=
  FactoryFn.all.find? (fun f => f.selector = callData.take 4)

section Functions

variable [DecidableEq κ] (api : Api κ W) (abi : FactoryAbi) (callData : Buffer)

/-- The constructor: it does nothing on less than two words, else takes the
fee setter from the first and the code hash from the second. -/
def deploy : Program κ W Unit :=
  if callData.length < 64 then pure ()
  else do
    storageSetU256 api slotFeeToSetter (fromBeSlice ((callData.drop 12).take 20))
    setStorageOrClear (slotKey api slotPairCodeHash) (fromBeSlice ((callData.drop 32).take 32))

def getPair : Program κ W Address := do
  let decoded ← orRevert (abi.getPairCall callData)
  let tokens := sortTokens decoded.1 decoded.2
  getPairInternal api tokens.1 tokens.2

def instantiate (input : Buffer) : Program κ W (Option Address) :=
  fun s => .ok (api.instantiate input s).1 (api.instantiate input s).2

def callContract (callee : Address) (input : Buffer) : Program κ W (Option Buffer) :=
  fun s => .ok (api.call callee input s).1 (api.call callee input s).2

def revertIf (c : Prop) [Decidable c] : Program κ W Unit := if c then revert else pure ()

def deployPair (token0 token1 : Address) (codeHash : U256) : Program κ W Address := do
  let pairAddr ← orRevert (← instantiate api (toBeBytes codeHash))
  let _ ← orRevert (← callContract api pairAddr (encodeInitialize token0 token1))
  setPair api token0 token1 pairAddr
  setPair api token1 token0 pairAddr
  allPairsPush api pairAddr
  return pairAddr

def createPair : Program κ W Address := do
  let decoded ← orRevert (abi.createPairCall callData)
  revertIf (decoded.1 = decoded.2)
  let tokens := sortTokens decoded.1 decoded.2
  revertIf (tokens.1 = 0)
  revertIf ((← getPairInternal api tokens.1 tokens.2) ≠ 0)
  let codeHash ← getStorageOrZero (slotKey api slotPairCodeHash)
  revertIf (codeHash = 0)
  deployPair api tokens.1 tokens.2 codeHash

/-- The two setters check the caller before they decode. -/
def requireSetter : Program κ W Unit := do
  let setter ← storageGetU256 api slotFeeToSetter
  revertIf (api.caller ≠ lowAddress setter)

def setFeeTo : Program κ W Unit := do
  requireSetter api
  let newFeeTo ← orRevert (abi.setFeeToCall callData)
  storageSetU256 api slotFeeTo (padAddress newFeeTo)

def setFeeToSetter : Program κ W Unit := do
  requireSetter api
  let newSetter ← orRevert (abi.setFeeToSetterCall callData)
  storageSetU256 api slotFeeToSetter (padAddress newSetter)

def run : FactoryFn → Program κ W Buffer
  | .feeTo => do return toBeBytes (← storageGetU256 api slotFeeTo)
  | .feeToSetter => do return toBeBytes (← storageGetU256 api slotFeeToSetter)
  | .getPair => do return toBeBytes (padAddress (← getPair api abi callData))
  | .allPairs => do
    let index ← orRevert (abi.allPairsCall callData)
    return toBeBytes (padAddress (← allPairsGet api index))
  | .allPairsLength => do return toBeBytes (← allPairsLength api)
  | .createPair => do return toBeBytes (padAddress (← createPair api abi callData))
  | .setFeeTo => do
    setFeeTo api abi callData
    return []
  | .setFeeToSetter => do
    setFeeToSetter api abi callData
    return []

def call : Program κ W Buffer :=
  if callData.length < 4 then revert
  else match factoryFn callData with
    | some f => run api abi callData f
    | none => revert

/-- The blocks beside the calldata when a function has most on the heap: the
code hash that `create_pair` instantiates, and then the calldata of `initialize`. -/
def FactoryFn.peaks : FactoryFn → List (List Nat)
  | .createPair => [[32], [32, 4 + 32 + 32]]
  | _ => [[]]

omit [DecidableEq κ] in
def HasRoom (allocates : List Nat → Bool) : Prop :=
  ∀ blocks ∈ (factoryFn callData).elim [[]] FactoryFn.peaks, allocates (callData.length :: blocks) = true

instance (allocates : List Nat → Bool) : Decidable (HasRoom callData allocates) :=
  inferInstanceAs (Decidable (∀ blocks ∈ _, _))

def callOnHeap (allocates : List Nat → Bool) : Program κ W Buffer :=
  if HasRoom callData allocates then call api abi callData else trap

end Functions

end RiscVContracts.Factory
