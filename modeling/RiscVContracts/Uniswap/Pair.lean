import RiscVContracts.Uniswap.Math
import RiscVContracts.Uniswap.Storage

namespace RiscVContracts.Pair

open Programs Bytes Host Storage Math

def minimumLiquidity : U256 := 1000

def slotFactory : U32 := 0
def slotToken0 : U32 := 1
def slotToken1 : U32 := 2
def slotReserves : U32 := 3
def slotPrice0Cumulative : U32 := 4
def slotPrice1Cumulative : U32 := 5
def slotKLast : U32 := 6
def slotUnlocked : U32 := 7
def slotTotalSupply : U32 := 8
def slotBalanceOf : U32 := 9
def slotAllowance : U32 := 10

def fromUint {n : Nat} (x : BitVec n) : U256 := x.setWidth 256

structure Reserves where
  reserve0 : U128
  reserve1 : U128
  ts : U32
  deriving DecidableEq, Repr

structure Balances where
  balance0 : U256
  balance1 : U256
  deriving DecidableEq, Repr

variable {κ W : Type} [DecidableEq κ]

section Accessors

variable (api : Api κ W)

def getFactory : Program κ W Address := do
  return lowAddress (← storageGetU256 api slotFactory)

def getToken0 : Program κ W Address := do
  return lowAddress (← storageGetU256 api slotToken0)

def getToken1 : Program κ W Address := do
  return lowAddress (← storageGetU256 api slotToken1)

def getReserves : Program κ W Reserves := do
  let packed ← storageGetU256 api slotReserves
  let r0 := (packed >>> 144) &&& fromUint (BitVec.allOnes 128)
  let r1 := (packed >>> 32) &&& fromUint (BitVec.allOnes 128)
  let ts ← toUint 32 (packed &&& fromUint (BitVec.allOnes 32))
  let reserve0 ← toUint 128 r0
  let reserve1 ← toUint 128 r1
  return { reserve0, reserve1, ts }

def packReserves (r0 r1 : U128) (ts : U32) : U256 :=
  fromUint r0 <<< 144 ||| fromUint r1 <<< 32 ||| fromUint ts

def setReserves (r0 r1 : U128) (ts : U32) : Program κ W Unit :=
  storageSetU256 api slotReserves (packReserves r0 r1 ts)

def getBalance (owner : Address) : Program κ W U256 :=
  getStorageOrZero (mappingKey1 api slotBalanceOf owner)

def setBalance (owner : Address) (value : U256) : Program κ W Unit :=
  setStorageOrClear (mappingKey1 api slotBalanceOf owner) value

def getAllowance (owner spender : Address) : Program κ W U256 :=
  getStorageOrZero (mappingKey2 api slotAllowance owner spender)

def setAllowance (owner spender : Address) (value : U256) : Program κ W Unit :=
  setStorageOrClear (mappingKey2 api slotAllowance owner spender) value

end Accessors

section Tokens

variable (api : Api κ W)

/-- The calldata of a payout: the first four bytes of the hash of
`transfer(address,uint256)`, the recipient and the amount. -/
def transferInput (recipient : Address) (value : U256) : Buffer :=
  let data := zeros (4 + 32 + 32)
  let data := copyFromSlice data 0 [0xa9, 0x05, 0x9c, 0xbb]
  let data := copyFromSlice data 16 (beBytes 20 recipient.toNat)
  copyFromSlice data 36 (toBeBytes value)

/-- The calldata of a balance query: the first four bytes of the hash of
`balanceOf(address)` and the account. -/
def balanceOfInput (account : Address) : Buffer :=
  let data := zeros (4 + 32)
  let data := copyFromSlice data 0 [0x70, 0xa0, 0x82, 0x31]
  copyFromSlice data 16 (beBytes 20 account.toNat)

/-- The 32-byte output buffer after the host copied the callee's output into it. -/
def readOutput (output : Buffer) : U256 :=
  fromBeSlice (copyFromSlice (zeros 32) 0 (output.take 32))

def safeTransfer (token recipient : Address) (value : U256) : Program κ W Unit := do
  match ← callEvm api token (transferInput recipient value) with
  | none => revert
  | some _ => pure ()

def safeBalanceOf (token account : Address) : Program κ W U256 := do
  match ← callEvm api token (balanceOfInput account) with
  | none => revert
  | some output => return readOutput output

def observeBalances (token0 token1 : Address) : Program κ W Balances := do
  let balance0 ← safeBalanceOf api token0 api.address
  let balance1 ← safeBalanceOf api token1 api.address
  return { balance0, balance1 }

def payout (token recipient : Address) (amount : U256) : Program κ W Unit :=
  if 0 < amount then safeTransfer api token recipient amount else pure ()

end Tokens

section Lock

variable (api : Api κ W)

def setUnlocked : Program κ W Unit := storageSetU256 api slotUnlocked 1

def requireUnlocked : Program κ W Unit := do
  let unlocked ← storageGetU256 api slotUnlocked
  if unlocked ≠ 1 then revert else storageSetU256 api slotUnlocked 0

/-- The early exits of the guarded functions: `set_unlocked(); revert();`. -/
def rejectIf (c : Prop) [Decidable c] : Program κ W Unit :=
  if c then do
    setUnlocked api
    revert
  else pure ()

def nowSecs : Program κ W U32 := toUint 32 (fromBeSlice api.now.toList)

/-- `set_reserves(balance0.to(), balance1.to(), now_secs())`. -/
def updateReserves (b : Balances) : Program κ W Unit := do
  let reserve0 ← toUint 128 b.balance0
  let reserve1 ← toUint 128 b.balance1
  let ts ← nowSecs api
  setReserves api reserve0 reserve1 ts

end Lock

section Calldata

structure InitializeArgs where
  token0 : Address
  token1 : Address
  deriving DecidableEq, Repr

structure SwapArgs where
  amount0Out : U256
  amount1Out : U256
  recipient : Address
  data : Buffer
  deriving DecidableEq, Repr

structure TransferArgs where
  recipient : Address
  value : U256
  deriving DecidableEq, Repr

structure TransferFromArgs where
  sender : Address
  recipient : Address
  value : U256
  deriving DecidableEq, Repr

structure ApproveArgs where
  spender : Address
  value : U256
  deriving DecidableEq, Repr

/-- The `abi_decode` functions generated from the interface, one for each
function with arguments. -/
structure PairAbi where
  balanceOfCall : Buffer → Option Address
  allowanceCall : Buffer → Option (Address × Address)
  initializeCall : Buffer → Option InitializeArgs
  mintCall : Buffer → Option Address
  burnCall : Buffer → Option Address
  swapCall : Buffer → Option SwapArgs
  skimCall : Buffer → Option Address
  approveCall : Buffer → Option ApproveArgs
  transferCall : Buffer → Option TransferArgs
  transferFromCall : Buffer → Option TransferFromArgs

end Calldata

section Guarded

variable (api : Api κ W) (abi : PairAbi) (callData : Buffer)

def initializePair : Program κ W Unit := do
  requireUnlocked api
  let decoded ← orRevert (abi.initializeCall callData)
  let token0 ← storageGetU256 api slotToken0
  rejectIf api (token0 ≠ 0)
  storageSetU256 api slotToken0 (padAddress decoded.token0)
  storageSetU256 api slotToken1 (padAddress decoded.token1)
  setUnlocked api

def firstLiquidity (totalSupply amount0 amount1 : U256) : Program κ W U256 := do
  match sqrtU256 (amount0 * amount1) with
  | none => trap
  | some liq => do
    rejectIf api (liq ≤ minimumLiquidity)
    storageSetU256 api slotTotalSupply (totalSupply + minimumLiquidity)
    setBalance api 0 minimumLiquidity
    return liq - minimumLiquidity

def laterLiquidity (totalSupply amount0 amount1 : U256) (r : Reserves) : Program κ W U256 := do
  let l0 ← divU256 (amount0 * totalSupply) (fromUint r.reserve0)
  let l1 ← divU256 (amount1 * totalSupply) (fromUint r.reserve1)
  let liq := if l0 < l1 then l0 else l1
  rejectIf api (liq = 0)
  storageSetU256 api slotTotalSupply (totalSupply + liq)
  return liq

def mintLiquidity (totalSupply amount0 amount1 : U256) (r : Reserves) : Program κ W U256 :=
  if totalSupply = 0 then firstLiquidity api totalSupply amount0 amount1
  else laterLiquidity api totalSupply amount0 amount1 r

/-- The body of `mint` up to the reserve update: the balances it hands on and
the liquidity it issued. -/
def mintSettle (recipient : Address) : Program κ W (Balances × U256) := do
  let r ← getReserves api
  let token0 ← getToken0 api
  let token1 ← getToken1 api
  let b ← observeBalances api token0 token1
  let amount0 := b.balance0 - fromUint r.reserve0
  let amount1 := b.balance1 - fromUint r.reserve1
  let totalSupply ← storageGetU256 api slotTotalSupply
  let liquidity ← mintLiquidity api totalSupply amount0 amount1 r
  let balance ← getBalance api recipient
  setBalance api recipient (balance + liquidity)
  return (b, liquidity)

def mint : Program κ W U256 := do
  requireUnlocked api
  let recipient ← orRevert (abi.mintCall callData)
  let settled ← mintSettle api recipient
  updateReserves api settled.1
  setUnlocked api
  return settled.2

/-- The body of `burn` up to the reserve update: the balances left and the two
amounts paid. -/
def burnSettle (recipient : Address) : Program κ W (Balances × U256 × U256) := do
  let liquidity ← getBalance api api.address
  rejectIf api (liquidity = 0)
  let totalSupply ← storageGetU256 api slotTotalSupply
  let token0 ← getToken0 api
  let token1 ← getToken1 api
  let b ← observeBalances api token0 token1
  let amount0 ← divU256 (liquidity * b.balance0) totalSupply
  let amount1 ← divU256 (liquidity * b.balance1) totalSupply
  rejectIf api (amount0 = 0 ∨ amount1 = 0)
  setBalance api api.address 0
  storageSetU256 api slotTotalSupply (totalSupply - liquidity)
  safeTransfer api token0 recipient amount0
  safeTransfer api token1 recipient amount1
  let left ← observeBalances api token0 token1
  return (left, amount0, amount1)

def burn : Program κ W (U256 × U256) := do
  requireUnlocked api
  let recipient ← orRevert (abi.burnCall callData)
  let settled ← burnSettle api recipient
  updateReserves api settled.1
  setUnlocked api
  return settled.2

def amountIn (balance reserve amountOut : U256) : U256 :=
  if balance > reserve - amountOut then balance - (reserve - amountOut) else 0

def adjusted (balance amountIn : U256) : U256 := balance * 1000 - amountIn * 3

/-- The body of `swap` up to the reserve update: the balances after the payout.
The calldata of the flash callback is ignored. -/
def swapSettle (decoded : SwapArgs) : Program κ W Balances := do
  rejectIf api (decoded.amount0Out = 0 ∧ decoded.amount1Out = 0)
  let r ← getReserves api
  let reserve0 := fromUint r.reserve0
  let reserve1 := fromUint r.reserve1
  rejectIf api (decoded.amount0Out ≥ reserve0 ∨ decoded.amount1Out ≥ reserve1)
  let token0 ← getToken0 api
  let token1 ← getToken1 api
  rejectIf api (decoded.recipient = token0 ∨ decoded.recipient = token1)
  payout api token0 decoded.recipient decoded.amount0Out
  payout api token1 decoded.recipient decoded.amount1Out
  let b ← observeBalances api token0 token1
  let amount0In := amountIn b.balance0 reserve0 decoded.amount0Out
  let amount1In := amountIn b.balance1 reserve1 decoded.amount1Out
  rejectIf api (amount0In = 0 ∧ amount1In = 0)
  let adj0 := adjusted b.balance0 amount0In
  let adj1 := adjusted b.balance1 amount1In
  rejectIf api (adj0 * adj1 < reserve0 * reserve1 * 1000 * 1000)
  return b

def swap : Program κ W Unit := do
  requireUnlocked api
  let decoded ← orRevert (abi.swapCall callData)
  let b ← swapSettle api decoded
  updateReserves api b
  setUnlocked api

def skim : Program κ W Unit := do
  requireUnlocked api
  let recipient ← orRevert (abi.skimCall callData)
  let r ← getReserves api
  let token0 ← getToken0 api
  let token1 ← getToken1 api
  let b ← observeBalances api token0 token1
  safeTransfer api token0 recipient (b.balance0 - fromUint r.reserve0)
  safeTransfer api token1 recipient (b.balance1 - fromUint r.reserve1)
  setUnlocked api

/-- `sync` decodes no arguments and keeps the timestamp it finds. -/
def syncSettle : Program κ W Balances := do
  let token0 ← getToken0 api
  let token1 ← getToken1 api
  observeBalances api token0 token1

def sync : Program κ W Unit := do
  requireUnlocked api
  let b ← syncSettle api
  let r ← getReserves api
  let reserve0 ← toUint 128 b.balance0
  let reserve1 ← toUint 128 b.balance1
  setReserves api reserve0 reserve1 r.ts
  setUnlocked api

end Guarded

section Erc20

variable (api : Api κ W) (abi : PairAbi) (callData : Buffer)

def approve : Program κ W Unit := do
  let decoded ← orRevert (abi.approveCall callData)
  setAllowance api api.caller decoded.spender decoded.value

/-- Both transfers move the value through two separate writes, reading the
credited balance after the debit. -/
def move (sender recipient : Address) (bal value : U256) : Program κ W Unit := do
  setBalance api sender (bal - value)
  let balance ← getBalance api recipient
  setBalance api recipient (balance + value)

def transfer : Program κ W Unit := do
  let decoded ← orRevert (abi.transferCall callData)
  let bal ← getBalance api api.caller
  if bal < decoded.value then revert
  else move api api.caller decoded.recipient bal decoded.value

def spendAllowance (owner : Address) (allow value : U256) : Program κ W Unit :=
  if allow ≠ BitVec.allOnes 256 then setAllowance api owner api.caller (allow - value) else pure ()

def transferFrom : Program κ W Unit := do
  let decoded ← orRevert (abi.transferFromCall callData)
  let allow ← getAllowance api decoded.sender api.caller
  if allow ≠ BitVec.allOnes 256 ∧ allow < decoded.value then revert
  else do
    let bal ← getBalance api decoded.sender
    if bal < decoded.value then revert
    else do
      spendAllowance api decoded.sender allow decoded.value
      move api decoded.sender decoded.recipient bal decoded.value

end Erc20

section Dispatch

/-- The functions of the interface that `call` dispatches, in the order of its tests. -/
inductive PairFn
  | factory | token0 | token1 | getReserves | totalSupply | balanceOf | allowance
  | minimumLiquidity | price0CumulativeLast | price1CumulativeLast | kLast
  | initializePair | mint | burn | swap | skim | sync
  | approve | transfer | transferFrom
  deriving DecidableEq, Repr

def PairFn.selector : PairFn → Buffer
  | factory => [0xc4, 0x5a, 0x01, 0x55]
  | token0 => [0x0d, 0xfe, 0x16, 0x81]
  | token1 => [0xd2, 0x12, 0x20, 0xa7]
  | getReserves => [0x09, 0x02, 0xf1, 0xac]
  | totalSupply => [0x18, 0x16, 0x0d, 0xdd]
  | balanceOf => [0x70, 0xa0, 0x82, 0x31]
  | allowance => [0xdd, 0x62, 0xed, 0x3e]
  | minimumLiquidity => [0xba, 0x9a, 0x7a, 0x56]
  | price0CumulativeLast => [0x59, 0x09, 0xc0, 0xd5]
  | price1CumulativeLast => [0x5a, 0x3d, 0x54, 0x93]
  | kLast => [0x74, 0x64, 0xfc, 0x3d]
  | initializePair => [0x48, 0x5c, 0xc9, 0x55]
  | mint => [0x6a, 0x62, 0x78, 0x42]
  | burn => [0x89, 0xaf, 0xcb, 0x44]
  | swap => [0x02, 0x2c, 0x0d, 0x9f]
  | skim => [0xbc, 0x25, 0xcf, 0x77]
  | sync => [0xff, 0xf6, 0xca, 0xe9]
  | approve => [0x09, 0x5e, 0xa7, 0xb3]
  | transfer => [0xa9, 0x05, 0x9c, 0xbb]
  | transferFrom => [0x23, 0xb8, 0x72, 0xdd]

def PairFn.all : List PairFn :=
  [factory, token0, token1, getReserves, totalSupply, balanceOf, allowance, minimumLiquidity,
    price0CumulativeLast, price1CumulativeLast, kLast, initializePair, mint, burn, swap, skim, sync,
    approve, transfer, transferFrom]

def PairFn.isView : PairFn → Bool
  | .factory | .token0 | .token1 | .getReserves | .totalSupply | .balanceOf | .allowance
  | .minimumLiquidity | .price0CumulativeLast | .price1CumulativeLast | .kLast => true
  | _ => false

def PairFn.guarded : PairFn → Bool
  | .initializePair | .mint | .burn | .swap | .skim | .sync => true
  | _ => false

def pairFn (callData : Buffer) : Option PairFn :=
  PairFn.all.find? (fun f => f.selector = callData.take 4)

variable (api : Api κ W) (abi : PairAbi) (callData : Buffer)

def returnTuple (r : Reserves) : Buffer :=
  let buf := zeros 96
  let buf := copyFromSlice buf 0 (toBeBytes (fromUint r.reserve0))
  let buf := copyFromSlice buf 32 (toBeBytes (fromUint r.reserve1))
  copyFromSlice buf 64 (toBeBytes (fromUint r.ts))

def run : PairFn → Program κ W Buffer
  | .factory => do return toBeBytes (padAddress (← getFactory api))
  | .token0 => do return toBeBytes (padAddress (← getToken0 api))
  | .token1 => do return toBeBytes (padAddress (← getToken1 api))
  | .getReserves => do return returnTuple (← getReserves api)
  | .totalSupply => do return toBeBytes (← storageGetU256 api slotTotalSupply)
  | .balanceOf => do
    let owner ← orRevert (abi.balanceOfCall callData)
    return toBeBytes (← getBalance api owner)
  | .allowance => do
    let decoded ← orRevert (abi.allowanceCall callData)
    return toBeBytes (← getAllowance api decoded.1 decoded.2)
  | .minimumLiquidity => return toBeBytes minimumLiquidity
  | .price0CumulativeLast => do return toBeBytes (← storageGetU256 api slotPrice0Cumulative)
  | .price1CumulativeLast => do return toBeBytes (← storageGetU256 api slotPrice1Cumulative)
  | .kLast => do return toBeBytes (← storageGetU256 api slotKLast)
  | .initializePair => do
    initializePair api abi callData
    return []
  | .mint => do return toBeBytes (← mint api abi callData)
  | .burn => do
    let amounts ← burn api abi callData
    return toBeBytes amounts.1 ++ toBeBytes amounts.2
  | .swap => do
    swap api abi callData
    return []
  | .skim => do
    skim api abi callData
    return []
  | .sync => do
    sync api
    return []
  | .approve => do
    approve api abi callData
    return toBeBytes 1
  | .transfer => do
    transfer api abi callData
    return toBeBytes 1
  | .transferFrom => do
    transferFrom api abi callData
    return toBeBytes 1

def call : Program κ W Buffer :=
  if callData.length < 4 then revert
  else match pairFn callData with
    | some f => run api abi callData f
    | none => revert

def transferBuffers : List Nat := [4 + 32 + 32]

def balanceOfBuffers : List Nat := [4 + 32, 32]

/-- The blocks beside the calldata when a function has most on the heap: the
decoded bytes of `swap` stay, the buffers of a token call go when it returns. -/
def PairFn.peaks : PairFn → List (List Nat)
  | .mint | .sync => [balanceOfBuffers]
  | .burn | .skim => [balanceOfBuffers, transferBuffers]
  | .swap =>
    let data := ((abi.swapCall callData).map fun decoded => decoded.data.length).toList
    [data ++ transferBuffers, data ++ balanceOfBuffers]
  | _ => [[]]

/-- The allocator, which says which blocks the heap holds together, has room
for all that a call allocates which returns. -/
def HasRoom (allocates : List Nat → Bool) : Prop :=
  ∀ blocks ∈ (pairFn callData).elim [[]] (PairFn.peaks abi callData),
    allocates (callData.length :: blocks) = true

instance (allocates : List Nat → Bool) : Decidable (HasRoom abi callData allocates) :=
  inferInstanceAs (Decidable (∀ blocks ∈ _, _))

/-- `call` on a heap of its own. Wherever an allocation fails, the trap undoes
the whole call, so one check at the start stands for them all. -/
def callOnHeap (allocates : List Nat → Bool) : Program κ W Buffer :=
  if HasRoom abi callData allocates then call api abi callData else trap

def deploy : Program κ W Unit := do
  storageSetU256 api slotFactory (padAddress api.caller)
  storageSetU256 api slotUnlocked 1

end Dispatch

end RiscVContracts.Pair
