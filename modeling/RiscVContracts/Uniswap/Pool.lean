import RiscVContracts.Uniswap.FirstMints
import RiscVContracts.Uniswap.ReserveCodec
import RiscVContracts.Lib.Outcomes

namespace RiscVContracts.Pools

open Bytes Host Pair PairSpec PairSlots Tokens FirstMints Outcomes

/-- What a pair is for: it holds two tokens for those who have shares in it,
and exchanges them within the reserves it has noted. -/
structure Pool where
  account : Address
  factory : Address
  token0 : Address
  token1 : Address
  reserves : Reserves
  supply : U256
  shares : Address → U256
  allowed : Address → Address → U256
  ledger : Ledger

def Pool.opened (account factory token0 token1 : Address) (ledger : Ledger) : Pool where
  account := account
  factory := factory
  token0 := token0
  token1 := token1
  reserves := { reserve0 := 0, reserve1 := 0, ts := 0 }
  supply := 0
  shares _ := 0
  allowed _ _ := 0
  ledger := ledger

section Tokens

variable (p : Pool)

def Pool.held : Balances where
  balance0 := p.ledger p.token0 p.account
  balance1 := p.ledger p.token1 p.account

def Pool.surplus : U256 × U256 :=
  (p.held.balance0 - fromUint p.reserves.reserve0, p.held.balance1 - fromUint p.reserves.reserve1)

def Pool.paying (token recipient : Address) (v : U256) : Pool :=
  { p with ledger := Function.update p.ledger token (pay (p.ledger token) p.account recipient v) }

theorem Pool.paying_ledger (token recipient : Address) (v : U256) :
    (p.paying token recipient v).ledger =
      Function.update p.ledger token (pay (p.ledger token) p.account recipient v) := rfl

def Pool.pays (token recipient : Address) (v : U256) : Option Pool :=
  if v ≤ p.ledger token p.account then some (p.paying token recipient v) else none

theorem Pool.pays_eq_some {p : Pool} {token recipient : Address} {v : U256} {q : Pool} :
    p.pays token recipient v = some q ↔ v ≤ p.ledger token p.account ∧ p.paying token recipient v = q := by
  rw [Pool.pays, Option.ite_none_right_eq_some, Option.some.injEq]

theorem pay_zero (balances : Address → U256) (sender recipient : Address) :
    pay balances sender recipient 0 = balances := by
  have hdebit : Function.update balances sender (balances sender - 0) = balances := by
    rw [show balances sender - 0 = balances sender from BitVec.sub_zero _, Function.update_eq_self]
  simp only [pay, hdebit]
  rw [show balances recipient + 0 = balances recipient from BitVec.add_zero _, Function.update_eq_self]

theorem Pool.pays_zero (token recipient : Address) : p.pays token recipient 0 = some p := by
  rw [Pool.pays, if_pos (BitVec.le_def.mpr (Nat.zero_le _)), Pool.paying, pay_zero, Function.update_eq_self]

/-- Reserves as the pool notes them: the first keeps no more than 112 bits and
the extra bits of the second, which is noted below the low bits of the first. -/
def noted (r0 r1 : U128) (ts : U32) : Reserves where
  reserve0 := (r0.setWidth 112).setWidth 128 ||| r1 >>> 112
  reserve1 := r1 ||| r0 <<< 112
  ts := ts

def Pool.noting (ts : U32) : Pool :=
  { p with reserves := noted (p.held.balance0.setWidth 128) (p.held.balance1.setWidth 128) ts }

def Pool.Fits : Prop := p.held.balance0.toNat < 2 ^ 128 ∧ p.held.balance1.toNat < 2 ^ 128

instance : Decidable p.Fits := inferInstanceAs (Decidable (_ ∧ _))

def Pool.settles (clock : U256) : Option Pool :=
  if p.Fits ∧ clock.toNat < 2 ^ 32 then some (p.noting (clock.setWidth 32)) else none

end Tokens

section Shares

variable (p : Pool)

/-- The supply after `l` shares were issued. The first time the minimum is set
aside, and is all that counts. -/
def Pool.growing (l : U256) : Pool :=
  { p with
    shares := if p.supply = 0 then Function.update p.shares 0 minimumLiquidity else p.shares
    supply := supplyAfterMint p.supply l }

def Pool.crediting (account : Address) (v : U256) : Pool :=
  { p with shares := Function.update p.shares account (p.shares account + v) }

def Pool.worth : U256 × U256 :=
  (p.shares p.account * p.held.balance0 / p.supply, p.shares p.account * p.held.balance1 / p.supply)

def Pool.redeeming : Pool :=
  { p with
    shares := Function.update p.shares p.account 0
    supply := p.supply - p.shares p.account }

def Pool.moving (sender recipient : Address) (v : U256) : Pool :=
  { p with shares := pay p.shares sender recipient v }

def Pool.allowing (owner spender : Address) (v : U256) : Pool :=
  { p with allowed := Function.update p.allowed owner (Function.update (p.allowed owner) spender v) }

/-- The pool after an allowance was used; the largest one is never lowered. -/
def Pool.spending (owner spender : Address) (v : U256) : Pool :=
  if p.allowed owner spender = BitVec.allOnes 256 then p
  else p.allowing owner spender (p.allowed owner spender - v)

theorem Pool.spending_shares (owner spender : Address) (v : U256) :
    (p.spending owner spender v).shares = p.shares := by
  rw [Pool.spending]
  split <;> rfl

end Shares

section Requests

variable (p : Pool)

def Pool.mint (recipient : Address) (clock : U256) : Option (U256 × Pool) := do
  let l ← issue p.supply p.surplus p.reserves
  let q ← ((p.growing l).crediting recipient l).settles clock
  return (l, q)

def Pool.Worthless : Prop := p.shares p.account = 0 ∨ p.supply = 0 ∨ p.worth.1 = 0 ∨ p.worth.2 = 0

instance : Decidable p.Worthless := inferInstanceAs (Decidable (_ ∨ _))

def Pool.burn (recipient : Address) (clock : U256) : Option ((U256 × U256) × Pool) :=
  if p.Worthless then none
  else do
    let q ← p.redeeming.pays p.token0 recipient p.worth.1
    let q ← q.pays p.token1 recipient p.worth.2
    let q ← q.settles clock
    return (p.worth, q)

/-- What an order may take: something, of no token all there is, and not for the tokens themselves. -/
def Pool.Takes (order : SwapArgs) : Prop :=
  ¬ (order.amount0Out = 0 ∧ order.amount1Out = 0) ∧
    order.amount0Out < fromUint p.reserves.reserve0 ∧ order.amount1Out < fromUint p.reserves.reserve1 ∧
    order.recipient ≠ p.token0 ∧ order.recipient ≠ p.token1

/-- What must be left of both tokens: something came in, and the product for which the fee is taken off. -/
def Pool.Leaves (order : SwapArgs) (b : Balances) : Prop :=
  ¬ (amountIn b.balance0 (fromUint p.reserves.reserve0) order.amount0Out = 0 ∧
    amountIn b.balance1 (fromUint p.reserves.reserve1) order.amount1Out = 0) ∧
    feeCheck p.reserves order b

instance (order : SwapArgs) : Decidable (p.Takes order) := inferInstanceAs (Decidable (_ ∧ _))

instance (order : SwapArgs) (b : Balances) : Decidable (p.Leaves order b) :=
  inferInstanceAs (Decidable (_ ∧ ¬ (_ < _)))

def Pool.swap (order : SwapArgs) (clock : U256) : Option Pool :=
  if p.Takes order then do
    let q ← p.pays p.token0 order.recipient order.amount0Out
    let q ← q.pays p.token1 order.recipient order.amount1Out
    if p.Leaves order q.held then q.settles clock else none
  else none

def Pool.skim (recipient : Address) : Option Pool := do
  let q ← p.pays p.token0 recipient p.surplus.1
  q.pays p.token1 recipient p.surplus.2

def Pool.sync : Option Pool := if p.Fits then some (p.noting p.reserves.ts) else none

def Pool.transfer (sender recipient : Address) (v : U256) : Option Pool :=
  if v ≤ p.shares sender then some (p.moving sender recipient v) else none

def Pool.transferFrom (spender sender recipient : Address) (v : U256) : Option Pool :=
  if p.allowed sender spender = BitVec.allOnes 256 ∨ v ≤ p.allowed sender spender then
    (p.spending sender spender v).transfer sender recipient v
  else none

inductive Request
  | factory
  | token0
  | token1
  | reserves
  | supply
  | shares (owner : Address)
  | allowed (owner spender : Address)
  | minimum
  | dormant
  | setUp
  | mint (recipient : Address)
  | burn (recipient : Address)
  | swap (order : SwapArgs)
  | skim (recipient : Address)
  | sync
  | approve (spender : Address) (v : U256)
  | transfer (recipient : Address) (v : U256)
  | transferFrom (sender recipient : Address) (v : U256)

/-- The pool and the words it says, if it serves the request of the caller. -/
def Pool.serve (caller : Address) (clock : U256) : Request → Option (List U256 × Pool)
  | .factory => some ([padAddress p.factory], p)
  | .token0 => some ([padAddress p.token0], p)
  | .token1 => some ([padAddress p.token1], p)
  | .reserves =>
    some ([fromUint p.reserves.reserve0, fromUint p.reserves.reserve1, fromUint p.reserves.ts], p)
  | .supply => some ([p.supply], p)
  | .shares owner => some ([p.shares owner], p)
  | .allowed owner spender => some ([p.allowed owner spender], p)
  | .minimum => some ([minimumLiquidity], p)
  | .dormant => some ([0], p)
  | .setUp => none
  | .mint recipient => (p.mint recipient clock).map fun a => ([a.1], a.2)
  | .burn recipient => (p.burn recipient clock).map fun a => ([a.1.1, a.1.2], a.2)
  | .swap order => (p.swap order clock).map (Prod.mk [])
  | .skim recipient => (p.skim recipient).map (Prod.mk [])
  | .sync => p.sync.map (Prod.mk [])
  | .approve spender v => some ([1], p.allowing caller spender v)
  | .transfer recipient v => (p.transfer caller recipient v).map (Prod.mk [1])
  | .transferFrom sender recipient v => (p.transferFrom caller sender recipient v).map (Prod.mk [1])

/-- Somebody comes to the pool with a request, if it can be read, and the
tokens are by then as the ledger says. -/
structure Visit where
  caller : Address
  clock : U256
  request : Option Request
  ledger : Ledger

def attend (v : Visit) (p : Pool) : Option (List U256) × Pool :=
  let q := { p with ledger := v.ledger }
  attempt (v.request.bind (q.serve v.caller v.clock)) q

end Requests

end RiscVContracts.Pools
