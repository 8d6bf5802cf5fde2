import RiscVContracts.Uniswap.Supply

namespace RiscVContracts.Debits

open Programs Bytes Host Storage Pair PairView PairSpec PairSlots Calldata Symbolic Tokens Runs Supply

structure Credit where
  account : Address
  balance : U256
  amount : U256
  deriving DecidableEq

def Credit.Fits (c : Credit) : Prop := c.balance.toNat + c.amount.toNat < 2 ^ 256

instance (c : Credit) : Decidable c.Fits := inferInstanceAs (Decidable (_ < _))

def payCredit (balances : Address → U256) (sender recipient : Address) (v : U256) : Credit where
  account := recipient
  balance := Function.update balances sender (balances sender - v) recipient
  amount := v

variable {κ W : Type} [DecidableEq κ]

/-- The balances a mint adds its liquidity to: the first one overwrites the zero account's. -/
def mintBase (api : Api κ W) (s : State κ W) : Address → U256 :=
  if totalSupply api s = 0 then Function.update (lp api s) 0 minimumLiquidity else lp api s

/-- The addition a call makes when it returns. -/
def credit (api : Api κ W) (abi : PairAbi) (callData : Buffer) (s : State κ W) : Option Credit :=
  match pairFn callData with
  | some .mint => do
    let recipient ← abi.mintCall callData
    let liquidity ← value (mint api abi callData s)
    return { account := recipient, balance := mintBase api s recipient, amount := liquidity }
  | some .transfer => do
    let decoded ← abi.transferCall callData
    let _ ← value (transfer api abi callData s)
    return payCredit (lp api s) api.caller decoded.recipient decoded.value
  | some .transferFrom => do
    let decoded ← abi.transferFromCall callData
    let _ ← value (transferFrom api abi callData s)
    return payCredit (lp api s) decoded.sender decoded.recipient decoded.value
  | _ => none

variable {api : Api κ W} {abi : PairAbi} {callData : Buffer} {s t : State κ W} {x : Address}

section Credits

theorem credit_mint {recipient : Address} {l : U256} (hf : pairFn callData = some .mint)
    (hd : abi.mintCall callData = some recipient) (h : mint api abi callData s = .ok l t) :
    credit api abi callData s =
      some { account := recipient, balance := mintBase api s recipient, amount := l } := by
  simp [credit, hf, hd, h, value]

theorem credit_transfer {decoded : TransferArgs} (hf : pairFn callData = some .transfer)
    (hd : abi.transferCall callData = some decoded) (h : transfer api abi callData s = .ok () t) :
    credit api abi callData s =
      some (payCredit (lp api s) api.caller decoded.recipient decoded.value) := by
  simp [credit, hf, hd, h, value]

theorem credit_transferFrom {decoded : TransferFromArgs} (hf : pairFn callData = some .transferFrom)
    (hd : abi.transferFromCall callData = some decoded)
    (h : transferFrom api abi callData s = .ok () t) :
    credit api abi callData s =
      some (payCredit (lp api s) decoded.sender decoded.recipient decoded.value) := by
  simp [credit, hf, hd, h, value]

theorem credit_none {f : PairFn} (hf : pairFn callData = some f) (hm : f ≠ .mint) (ht : f ≠ .transfer)
    (htf : f ≠ .transferFrom) : credit api abi callData s = none := by
  rw [credit, hf]
  cases f with
  | mint => exact absurd rfl hm
  | transfer => exact absurd rfl ht
  | transferFrom => exact absurd rfl htf
  | factory | token0 | token1 | getReserves | totalSupply | balanceOf | allowance
  | minimumLiquidity | price0CumulativeLast | price1CumulativeLast | kLast
  | initializePair | burn | swap | skim | sync | approve => rfl

end Credits

section Debit

/-- The caller may take up to `v` from the account `x` by this call. -/
def MayDebit (api : Api κ W) (abi : PairAbi) (callData : Buffer) (s : State κ W) (x : Address)
    (v : U256) : Prop :=
  (pairFn callData = some .transfer ∧ x = api.caller ∧
    ∃ decoded, abi.transferCall callData = some decoded ∧ decoded.value = v) ∨
  (pairFn callData = some .transferFrom ∧
    (allowance api s x api.caller = BitVec.allOnes 256 ∨ v ≤ allowance api s x api.caller) ∧
    ∃ decoded, abi.transferFromCall callData = some decoded ∧ decoded.sender = x ∧ decoded.value = v)

theorem transferFrom_allowed {decoded : TransferFromArgs}
    (hd : abi.transferFromCall callData = some decoded) (h : transferFrom api abi callData s = .ok () t) :
    allowance api s decoded.sender api.caller = BitVec.allOnes 256 ∨
      decoded.value ≤ allowance api s decoded.sender api.caller := by
  obtain ⟨decoded', hd', hallow, -, -⟩ := transferFrom_ok.mp h
  obtain rfl : decoded' = decoded := Option.some.inj (hd'.symm.trans hd)
  by_contra hno
  obtain ⟨hne, hlt⟩ := not_or.mp hno
  exact hallow ⟨hne, BitVec.not_le.mp hlt⟩

variable (sep : Separated api) (alone : NoCallback api)

include sep alone

theorem le_mint (hzero : x ≠ 0) (hfits : ∀ c ∈ credit api abi callData s, c.Fits)
    (hf : pairFn callData = some .mint) {l : U256} (h : mint api abi callData s = .ok l t) :
    (lp api s x).toNat ≤ (lp api t x).toNat := by
  obtain ⟨recipient, hd, hlp⟩ := mint_lp sep alone h
  have hfit := hfits _ (credit_mint hf hd h)
  have hbase : mintBase api s x = lp api s x := by
    rw [mintBase]
    split
    · exact Function.update_of_ne hzero ..
    · rfl
  change lp api t = Function.update (mintBase api s) recipient (mintBase api s recipient + l) at hlp
  by_cases hx : x = recipient
  · subst x
    rw [hlp, Function.update_self, BitVec.toNat_add_of_lt hfit, hbase]
    exact Nat.le_add_right ..
  · rw [hlp, Function.update_of_ne hx, hbase]

theorem le_of_executed (hpair : x ≠ api.address) (hzero : x ≠ 0) {f : PairFn}
    (hf : pairFn callData = some f) (h : Executed api abi callData s t f)
    (hfits : ∀ c ∈ credit api abi callData s, c.Fits) :
    (lp api s x).toNat ≤ (lp api t x).toNat ∨
      ∃ v, MayDebit api abi callData s x v ∧ (lp api s x).toNat ≤ (lp api t x).toNat + v.toNat := by
  cases h with
  | view _ ht => exact .inl (by rw [ht])
  | initializePair hi => exact .inl (by rw [initializePair_lp sep hi])
  | mint hm => exact .inl (le_mint sep alone hzero hfits hf hm)
  | burn hb => exact .inl (by rw [(burn_lp sep alone hb).2, Function.update_of_ne hpair])
  | swap hw => exact .inl (by rw [swap_lp sep alone hw])
  | skim hk => exact .inl (by rw [skim_lp sep alone hk])
  | sync hy => exact .inl (by rw [sync_lp sep alone hy])
  | approve ha => exact .inl (by rw [approve_lp sep ha])
  | transfer ht =>
      obtain ⟨decoded, hd, hv, hlp⟩ := transfer_lp sep ht
      have hle := le_pay_add hv (hfits _ (credit_transfer hf hd ht)) x
      rw [← hlp] at hle
      by_cases hx : x = api.caller
      · rw [if_pos hx] at hle
        exact .inr ⟨_, .inl ⟨hf, hx, decoded, hd, rfl⟩, hle⟩
      · rw [if_neg hx] at hle
        exact .inl hle
  | transferFrom ht =>
      obtain ⟨decoded, hd, hv, hlp⟩ := transferFrom_lp sep ht
      have hle := le_pay_add hv (hfits _ (credit_transferFrom hf hd ht)) x
      rw [← hlp] at hle
      by_cases hx : x = decoded.sender
      · rw [if_pos hx] at hle
        refine .inr ⟨_, .inr ⟨hf, ?_, decoded, hd, hx.symm, rfl⟩, hle⟩
        rw [hx]
        exact transferFrom_allowed hd ht
      · rw [if_neg hx] at hle
        exact .inl hle

/-- Only the owner or an approved spender debits LP tokens, by no more than
the value of the call. -/
theorem debited_by_holder (hpair : x ≠ api.address) (hzero : x ≠ 0)
    (hfits : ∀ c ∈ credit api abi callData s, c.Fits)
    (hlt : lp api (final (rollback (call api abi callData) s)) x < lp api s x) :
    ∃ v, MayDebit api abi callData s x v ∧ (lp api s x).toNat ≤
      (lp api (final (rollback (call api abi callData) s)) x).toNat + v.toNat := by
  rw [BitVec.lt_def] at hlt
  obtain ⟨out, h⟩ | h := final_rollback (call api abi callData) s
  · obtain ⟨f, hf, hx⟩ := executed_of_call h
    obtain hle | hdebit := le_of_executed sep alone hpair hzero hf hx hfits
    · exact absurd hlt (Nat.not_lt.mpr hle)
    · exact hdebit
  · rw [h] at hlt
    exact absurd hlt (lt_irrefl _)

end Debit

theorem debited_by_holder_sample :
    let api := ledgerApi 6 9
    let s := ledgerStep 5 (encodeCall PairFn.approve.selector [6, 400]) (mintedPair (2 ^ 20) (2 ^ 20))
    let callData := encodeCall PairFn.transferFrom.selector [5, 7, 300]
    ∃ v, MayDebit api standardAbi callData s 5 v ∧ (lp api s 5).toNat ≤
      (lp api (final (rollback (call api standardAbi callData) s)) 5).toNat + v.toNat := by
  intro api s callData
  refine debited_by_holder (freeKeccak_ledgerApi 6 9).separated (noCallback_ledger rfl) (by decide)
    (by decide) ?_ (by decide +kernel)
  intro c hc
  have hc' : credit api standardAbi callData s = some { account := 7, balance := 0, amount := 300 } := by
    decide +kernel
  obtain rfl := Option.some.inj (hc'.symm.trans hc)
  decide

end RiscVContracts.Debits
