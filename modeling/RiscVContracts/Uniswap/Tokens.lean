import RiscVContracts.Uniswap.Calldata
import RiscVContracts.Uniswap.PairSlots
import RiscVContracts.Uniswap.Symbolic

namespace RiscVContracts.Tokens

open Programs Bytes Host Storage Pair PairView PairSpec PairSlots Calldata Symbolic

section Encoding

theorem toBeBytes_padAddress (a : Address) : toBeBytes (padAddress a) = zeros 12 ++ beBytes 20 a.toNat := by
  have ha : (padAddress a).toNat = a.toNat := toNat_fromUint a (by decide)
  have hlt : a.toNat < 256 ^ 20 := a.isLt.trans_eq (by norm_num)
  rw [toBeBytes, ha, show 32 = 12 + 20 from rfl, beBytes_of_lt 12 hlt]

/-- The hand-written payout calldata is the ABI layout of the call. -/
theorem transferInput_eq (recipient : Address) (v : U256) :
    transferInput recipient v = encodeCall PairFn.transfer.selector [padAddress recipient, v] := by
  let head : Buffer := PairFn.transfer.selector ++ zeros 12
  have h0 : copyFromSlice (zeros (4 + 32 + 32)) 0 PairFn.transfer.selector =
      head ++ (zeros 20 ++ zeros 32) := rfl
  have h1 : copyFromSlice (head ++ (zeros 20 ++ zeros 32)) 16 (beBytes 20 recipient.toNat) =
      head ++ (beBytes 20 recipient.toNat ++ zeros 32) := copyFromSlice_append rfl (by simp)
  have h2 : copyFromSlice ((head ++ beBytes 20 recipient.toNat) ++ (zeros 32 ++ [])) 36 (toBeBytes v) =
      (head ++ beBytes 20 recipient.toNat) ++ (toBeBytes v ++ []) :=
    copyFromSlice_append (by simp [head, selector_length]) (by simp)
  change copyFromSlice (copyFromSlice (copyFromSlice (zeros (4 + 32 + 32)) 0 PairFn.transfer.selector)
    16 (beBytes 20 recipient.toNat)) 36 (toBeBytes v) = _
  rw [h0, h1, ← List.append_assoc, ← List.append_nil (zeros 32), h2]
  simp [head, encodeCall, toBeBytes_padAddress]

theorem balanceOfInput_eq (account : Address) :
    balanceOfInput account = encodeCall PairFn.balanceOf.selector [padAddress account] := by
  let head : Buffer := PairFn.balanceOf.selector ++ zeros 12
  have h0 : copyFromSlice (zeros (4 + 32)) 0 PairFn.balanceOf.selector = head ++ (zeros 20 ++ []) := rfl
  have h1 : copyFromSlice (head ++ (zeros 20 ++ [])) 16 (beBytes 20 account.toNat) =
      head ++ (beBytes 20 account.toNat ++ []) := copyFromSlice_append rfl (by simp)
  change copyFromSlice (copyFromSlice (zeros (4 + 32)) 0 PairFn.balanceOf.selector) 16
    (beBytes 20 account.toNat) = _
  rw [h0, h1]
  simp [head, encodeCall, toBeBytes_padAddress]

theorem pairFn_transferInput (recipient : Address) (v : U256) :
    pairFn (transferInput recipient v) = some .transfer := by
  rw [transferInput_eq]
  exact pairFn_encodeCall ..

theorem pairFn_balanceOfInput (account : Address) :
    pairFn (balanceOfInput account) = some .balanceOf := by
  rw [balanceOfInput_eq]
  exact pairFn_encodeCall ..

theorem encodeInitialize_eq (token0 token1 : Address) :
    Factory.encodeInitialize token0 token1 = initializeData token0 token1 := by
  let selector : Buffer := PairFn.initializePair.selector
  let first : Buffer := selector ++ (zeros 12 ++ beBytes 20 token0.toNat)
  have h0 : copyFromSlice (zeros (4 + 32 + 32)) 0 selector =
      (selector ++ zeros 12) ++ (zeros 20 ++ zeros 32) := rfl
  have h1 : copyFromSlice ((selector ++ zeros 12) ++ (zeros 20 ++ zeros 32)) 16 (beBytes 20 token0.toNat) =
      (selector ++ zeros 12) ++ (beBytes 20 token0.toNat ++ zeros 32) := copyFromSlice_append rfl (by simp)
  have h2 : copyFromSlice ((first ++ zeros 12) ++ (zeros 20 ++ [])) 48 (beBytes 20 token1.toNat) =
      (first ++ zeros 12) ++ (beBytes 20 token1.toNat ++ []) :=
    copyFromSlice_append (by simp [first, selector, selector_length]) (by simp)
  have hfirst : (selector ++ zeros 12) ++ (beBytes 20 token0.toNat ++ zeros 32) =
      (first ++ zeros 12) ++ (zeros 20 ++ []) := by
    rw [show zeros 32 = zeros 12 ++ zeros 20 from rfl]
    simp [first]
  change copyFromSlice (copyFromSlice (copyFromSlice (zeros (4 + 32 + 32)) 0 selector)
    16 (beBytes 20 token0.toNat)) 48 (beBytes 20 token1.toNat) = _
  rw [h0, h1, hfirst, h2]
  simp [first, selector, initializeData, encodeCall, toBeBytes_padAddress]

theorem readOutput_toBeBytes (v : U256) : readOutput (toBeBytes v) = v := by
  have h : copyFromSlice ([] ++ (zeros 32 ++ [])) 0 (toBeBytes v) = [] ++ (toBeBytes v ++ []) :=
    copyFromSlice_append rfl (by simp)
  rw [readOutput, List.take_of_length_le (by simp)]
  simpa [fromBeSlice_toBeBytes] using congrArg fromBeSlice h

end Encoding

section Standard

variable {κ W : Type}

def NoCallback (api : Api κ W) : Prop :=
  ∀ callee input s, (api.callEvm callee input s).2.storage = s.storage

theorem NoCallback.keepsSlots {api : Api κ W} (h : NoCallback api) : KeepsSlots api := by
  intro callee input s _
  funext n
  exact congrFun (h callee input s) _

def pay (balances : Address → U256) (sender recipient : Address) (v : U256) : Address → U256 :=
  let debited := Function.update balances sender (balances sender - v)
  Function.update debited recipient (debited recipient + v)

abbrev Ledger := Address → Address → U256

/-- A payment of `v` in one token, the balances of all other tokens standing. -/
structure Paid (before after : Ledger) (token sender recipient : Address) (v : U256) : Prop where
  covered : v ≤ before token sender
  paid : after token = pay (before token) sender recipient v
  others : ∀ other, other ≠ token → after other = before other

/-- Standard tokens: `balanceOf` is honest, and a transfer that does not fail
moves exactly the amount, unless it reports false and moves nothing. -/
structure StandardTokens (api : Api κ W) (view : W → Ledger) (tokens : Set Address) : Prop where
  balanceOf : ∀ token ∈ tokens, ∀ account s output t,
    api.callEvm token (balanceOfInput account) s = (some output, t) →
      readOutput output = view s.world token account ∧ view t.world = view s.world
  transfer : ∀ token ∈ tokens, ∀ recipient v s output t,
    api.callEvm token (transferInput recipient v) s = (some output, t) →
      Paid (view s.world) (view t.world) token api.address recipient v ∨
        (readOutput output = 0 ∧ view t.world = view s.world)

theorem pay_sender (balances : Address → U256) (sender recipient : Address) (v : U256) :
    pay balances sender recipient v sender =
      if recipient = sender then balances sender else balances sender - v := by
  by_cases h : recipient = sender
  · subst recipient
    simp only [pay, Function.update_self, BitVec.sub_add_cancel, if_true]
  · simp [pay, h, Function.update_of_ne (Ne.symm h)]

theorem le_pay_add {balances : Address → U256} {sender recipient : Address} {v : U256}
    (hv : v ≤ balances sender)
    (hfit : (Function.update balances sender (balances sender - v) recipient).toNat + v.toNat < 2 ^ 256)
    (x : Address) : (balances x).toNat ≤
      (pay balances sender recipient v x).toNat + if x = sender then v.toNat else 0 := by
  have hdebit : (balances x).toNat ≤ (Function.update balances sender (balances sender - v) x).toNat +
      if x = sender then v.toNat else 0 := by
    by_cases hx : x = sender
    · subst x
      have hle := BitVec.le_def.mp hv
      rw [Function.update_self, if_pos rfl, BitVec.toNat_sub_of_le hv]
      omega
    · rw [Function.update_of_ne hx, if_neg hx]
      exact Nat.le_add_right ..
  by_cases hx : x = recipient
  · subst x
    rw [pay, Function.update_self, BitVec.toNat_add_of_lt hfit]
    omega
  · rw [pay, Function.update_of_ne hx]
    exact hdebit

end Standard

section LedgerTokens

variable {κ : Type}

/-- Token contracts that keep their balances in the world and answer the two
calls of the pair `self`; every other call fails. -/
def ledgerCall (self callee : Address) (input : Buffer) (s : State κ Ledger) :
    Option Buffer × State κ Ledger :=
  match pairFn input with
  | some .transfer => match addressAt input 0, wordAt input 1 with
    | some recipient, some v =>
      if v ≤ s.world callee self then
        (some (toBeBytes 1),
          { s with world := Function.update s.world callee (pay (s.world callee) self recipient v) })
      else (none, s)
    | _, _ => (none, s)
  | some .balanceOf => match addressAt input 0 with
    | some account => (some (toBeBytes (s.world callee account)), s)
    | none => (none, s)
  | _ => (none, s)

theorem ledgerCall_transfer (self callee recipient : Address) (v : U256) (s : State κ Ledger) :
    ledgerCall self callee (transferInput recipient v) s =
      if v ≤ s.world callee self then
        (some (toBeBytes 1),
          { s with world := Function.update s.world callee (pay (s.world callee) self recipient v) })
      else (none, s) := by
  have hs := selector_length .transfer
  rw [ledgerCall, transferInput_eq, pairFn_encodeCall, addressAt_encodeCall hs rfl,
    wordAt_encodeCall hs rfl]

theorem ledgerCall_balanceOf (self callee account : Address) (s : State κ Ledger) :
    ledgerCall self callee (balanceOfInput account) s = (some (toBeBytes (s.world callee account)), s) := by
  rw [ledgerCall, balanceOfInput_eq, pairFn_encodeCall, addressAt_encodeCall (selector_length _) rfl]

variable {api : Api κ Ledger}

theorem standardTokens_ledger (h : api.callEvm = ledgerCall api.address) (tokens : Set Address) :
    StandardTokens api id tokens where
  balanceOf token _ account s output t hc := by
    rw [h, ledgerCall_balanceOf, Prod.mk.injEq, Option.some.injEq] at hc
    obtain ⟨rfl, rfl⟩ := hc
    exact ⟨readOutput_toBeBytes _, rfl⟩
  transfer token _ recipient v s output t hc := by
    rw [h, ledgerCall_transfer] at hc
    split at hc
    · obtain ⟨-, rfl⟩ := Prod.mk.inj hc
      refine .inl ⟨‹_›, Function.update_self .., fun other ho => Function.update_of_ne ho ..⟩
    · simp at hc

theorem noCallback_ledger (h : api.callEvm = ledgerCall api.address) : NoCallback api := by
  intro callee input s
  rw [h]
  unfold ledgerCall
  repeat' split
  all_goals rfl

def ledgerApi (caller address : Address) : Api Key Ledger where
  word := .word
  word_injective _ _ h := Key.word.inj h
  hashKeccak256 := .hash
  caller := caller
  address := address
  now := Vector.replicate 32 0
  callEvm := ledgerCall address

theorem freeKeccak_ledgerApi (caller address : Address) : FreeKeccak (ledgerApi caller address) :=
  freeKeccak_key rfl rfl

end LedgerTokens

end RiscVContracts.Tokens
