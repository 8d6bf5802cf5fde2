import RiscVContracts.Uniswap.Allowances
import RiscVContracts.Uniswap.Supply

namespace RiscVContracts.Transfers

open Programs Bytes Host Storage Pair PairView PairSpec PairSlots Calldata Symbolic Tokens Totals Supply
  Runs Allowances

/-- A table of balances after a value was moved in it: nothing is created or
lost, and nobody else's balance changes. -/
structure Conserves (f f' : Address → U256) (sender recipient : Address) (v : U256) : Prop where
  total : total f' = total f
  same : sender = recipient → f' = f
  debit : sender ≠ recipient → (f' sender).toNat + v.toNat = (f sender).toNat
  credit : sender ≠ recipient → (f' recipient).toNat = (f recipient).toNat + v.toNat
  others : ∀ a, a ≠ sender → a ≠ recipient → f' a = f a

/-- The spender's allowance after it took a value; the largest one stands. -/
structure Draws (f f' : Address → Address → U256) (owner spender : Address) (v : U256) : Prop where
  unlimited : f owner spender = BitVec.allOnes 256 → f' = f
  lowered : f owner spender ≠ BitVec.allOnes 256 →
    (f' owner spender).toNat + v.toNat = (f owner spender).toNat
  others : ∀ o p, ¬ (o = owner ∧ p = spender) → f' o p = f o p

section Balances

variable {f : Address → U256} {sender recipient : Address} {v : U256}

theorem pay_self (f : Address → U256) (a : Address) (v : U256) : pay f a a v = f := by
  rw [pay, Function.update_self, BitVec.sub_add_cancel, Function.update_idem, Function.update_eq_self]

theorem add_le_total (hne : sender ≠ recipient) (hv : v ≤ f sender) :
    (f recipient).toNat + v.toNat ≤ total f := by
  have hdebit := total_debit hv
  have hle := le_total (Function.update f sender (f sender - v)) recipient
  rw [Function.update_of_ne hne.symm] at hle
  omega

theorem conserves_pay (hv : v ≤ f sender) (hf : total f < 2 ^ 256) :
    Conserves f (pay f sender recipient v) sender recipient v where
  total := total_move hv hf
  same := by
    rintro rfl
    exact pay_self f sender v
  debit hne := by
    have hle := BitVec.le_def.mp hv
    rw [pay, Function.update_of_ne hne, Function.update_self, BitVec.toNat_sub_of_le hv]
    exact Nat.sub_add_cancel hle
  credit hne := by
    have hfit := add_le_total hne hv
    rw [pay, Function.update_self, Function.update_of_ne hne.symm,
      BitVec.toNat_add_of_lt (hfit.trans_lt hf)]
  others a hs hr := by rw [pay, Function.update_of_ne hr, Function.update_of_ne hs]

end Balances

section Spending

variable {f f' : Address → Address → U256} {owner spender : Address} {v : U256}

theorem draws_of_eq (hv : f owner spender = BitVec.allOnes 256 ∨ v ≤ f owner spender)
    (h : ∀ o p, f' o p =
      if (o = owner ∧ p = spender) ∧ f o p ≠ BitVec.allOnes 256 then f o p - v else f o p) :
    Draws f f' owner spender v where
  unlimited hmax := by
    funext o p
    rw [h, if_neg]
    rintro ⟨⟨rfl, rfl⟩, hne⟩
    exact hne hmax
  lowered hne := by
    have hle := hv.resolve_left hne
    rw [h, if_pos ⟨⟨rfl, rfl⟩, hne⟩, BitVec.toNat_sub_of_le hle]
    exact Nat.sub_add_cancel (BitVec.le_def.mp hle)
  others o p hop := by rw [h, if_neg fun hh => hop hh.1]

end Spending

section Calls

variable {κ W : Type} [DecidableEq κ] {api : Api κ W} {abi : PairAbi} {callData : Buffer}
  {s t : State κ W}

theorem move_eq (sender recipient : Address) (bal v : U256) (s : State κ W) :
    move api sender recipient bal v s = .ok () (moved api s sender recipient bal v) := move_ok.mpr rfl

theorem transfer_eq {decoded : TransferArgs} (hd : abi.transferCall callData = some decoded) :
    transfer api abi callData s =
      if lp api s api.caller < decoded.value then .error .revert s
      else .ok () (moved api s api.caller decoded.recipient (lp api s api.caller) decoded.value) := by
  have hread : getBalance api api.caller s = .ok (lp api s api.caller) s := getBalance_ok.mpr ⟨rfl, rfl⟩
  rw [transfer, hd, bind_of_ok (orRevert_ok.mpr ⟨rfl, rfl⟩), bind_of_ok hread]
  split
  · rfl
  · exact move_eq ..

theorem transferFrom_eq {decoded : TransferFromArgs}
    (hd : abi.transferFromCall callData = some decoded) :
    transferFrom api abi callData s =
      if allowance api s decoded.sender api.caller ≠ BitVec.allOnes 256 ∧
          allowance api s decoded.sender api.caller < decoded.value then .error .revert s
      else if lp api s decoded.sender < decoded.value then .error .revert s
      else .ok () (moved api (spent api s decoded.sender decoded.value) decoded.sender
        decoded.recipient (lp api s decoded.sender) decoded.value) := by
  have hallow : getAllowance api decoded.sender api.caller s =
      .ok (allowance api s decoded.sender api.caller) s := getAllowance_ok.mpr ⟨rfl, rfl⟩
  have hread : getBalance api decoded.sender s = .ok (lp api s decoded.sender) s :=
    getBalance_ok.mpr ⟨rfl, rfl⟩
  by_cases hlow : allowance api s decoded.sender api.caller ≠ BitVec.allOnes 256 ∧
      allowance api s decoded.sender api.caller < decoded.value
  · rw [if_pos hlow, transferFrom, hd, bind_of_ok (orRevert_ok.mpr ⟨rfl, rfl⟩), bind_of_ok hallow,
      if_pos hlow]
    rfl
  rw [if_neg hlow]
  by_cases hshort : lp api s decoded.sender < decoded.value
  · rw [if_pos hshort, transferFrom, hd, bind_of_ok (orRevert_ok.mpr ⟨rfl, rfl⟩), bind_of_ok hallow,
      if_neg hlow, bind_of_ok hread, if_pos hshort]
    rfl
  · rw [if_neg hshort]
    exact transferFrom_ok.mpr ⟨decoded, hd, hlow, hshort, rfl⟩

variable (cells : Distinct api) (hsum : total (lp api s) < 2 ^ 256)

include cells hsum

theorem transfer_settles (hf : pairFn callData = some .transfer) {decoded : TransferArgs}
    (hd : abi.transferCall callData = some decoded) :
    Settles (call api abi callData) s (decoded.value ≤ lp api s api.caller) fun t =>
      Conserves (lp api s) (lp api t) api.caller decoded.recipient decoded.value ∧
        slots api t = slots api s ∧ allowance api t = allowance api s ∧ t.world = s.world := by
  have sep := cells.toSeparated
  by_cases hv : lp api s api.caller < decoded.value
  · have h : transfer api abi callData s = .error .revert s := by rw [transfer_eq hd, if_pos hv]
    exact settles_of_error (BitVec.not_le.mpr hv) ((call_eq_run hf).trans (bind_of_error h))
  · have hle := BitVec.not_lt.mp hv
    have h : transfer api abi callData s =
        .ok () (moved api s api.caller decoded.recipient (lp api s api.caller) decoded.value) := by
      rw [transfer_eq hd, if_neg hv]
    refine settles_of_ok hle ⟨?_, moved_slots sep s _ _ _ _, allowance_moved sep s _ _ _ _, rfl⟩
      ((call_eq_run hf).trans (bind_of_ok h))
    rw [lp_moved sep]
    exact conserves_pay hle hsum

theorem transferFrom_settles (hf : pairFn callData = some .transferFrom) {decoded : TransferFromArgs}
    (hd : abi.transferFromCall callData = some decoded) :
    Settles (call api abi callData) s (decoded.value ≤ lp api s decoded.sender ∧
        (allowance api s decoded.sender api.caller = BitVec.allOnes 256 ∨
          decoded.value ≤ allowance api s decoded.sender api.caller)) fun t =>
      Conserves (lp api s) (lp api t) decoded.sender decoded.recipient decoded.value ∧
        slots api t = slots api s ∧
        Draws (allowance api s) (allowance api t) decoded.sender api.caller decoded.value ∧
        t.world = s.world := by
  have sep := cells.toSeparated
  by_cases hlow : allowance api s decoded.sender api.caller ≠ BitVec.allOnes 256 ∧
      allowance api s decoded.sender api.caller < decoded.value
  · have h : transferFrom api abi callData s = .error .revert s := by
      rw [transferFrom_eq hd, if_pos hlow]
    refine settles_of_error ?_ ((call_eq_run hf).trans (bind_of_error h))
    rintro ⟨-, hmax | hle⟩
    · exact hlow.1 hmax
    · exact BitVec.not_le.mpr hlow.2 hle
  by_cases hv : lp api s decoded.sender < decoded.value
  · have h : transferFrom api abi callData s = .error .revert s := by
      rw [transferFrom_eq hd, if_neg hlow, if_pos hv]
    exact settles_of_error (fun hc => BitVec.not_le.mpr hv hc.1) ((call_eq_run hf).trans (bind_of_error h))
  · have hle := BitVec.not_lt.mp hv
    have h : transferFrom api abi callData s =
        .ok () (moved api (spent api s decoded.sender decoded.value) decoded.sender decoded.recipient
          (lp api s decoded.sender) decoded.value) := by
      rw [transferFrom_eq hd, if_neg hlow, if_neg hv]
    have hallow : allowance api s decoded.sender api.caller = BitVec.allOnes 256 ∨
        decoded.value ≤ allowance api s decoded.sender api.caller := by
      by_contra hno
      rw [not_or, BitVec.not_le] at hno
      exact hlow hno
    obtain ⟨d, hd', hw, -, hcell⟩ := transferFrom_allowance cells h
    obtain rfl := Option.some.inj (hd'.symm.trans hd)
    obtain ⟨d', hd', -, hlp⟩ := transferFrom_lp sep h
    obtain rfl := Option.some.inj (hd'.symm.trans hd)
    refine settles_of_ok ⟨hle, hallow⟩ ⟨?_, transferFrom_slots sep h, draws_of_eq hallow hcell, hw⟩
      ((call_eq_run hf).trans (bind_of_ok h))
    rw [hlp]
    exact conserves_pay hle hsum

/-- Whoever the caller, the sender and the recipient are, a transfer of LP
shares goes through exactly when balance and allowance cover it, and then
moves the value and nothing else. -/
theorem lp_transfers_conserve :
    (∀ decoded, pairFn callData = some .transfer → abi.transferCall callData = some decoded →
      Settles (call api abi callData) s (decoded.value ≤ lp api s api.caller) fun t =>
        Conserves (lp api s) (lp api t) api.caller decoded.recipient decoded.value ∧
          slots api t = slots api s ∧ allowance api t = allowance api s ∧ t.world = s.world) ∧
    (∀ decoded, pairFn callData = some .transferFrom → abi.transferFromCall callData = some decoded →
      Settles (call api abi callData) s (decoded.value ≤ lp api s decoded.sender ∧
          (allowance api s decoded.sender api.caller = BitVec.allOnes 256 ∨
            decoded.value ≤ allowance api s decoded.sender api.caller)) fun t =>
        Conserves (lp api s) (lp api t) decoded.sender decoded.recipient decoded.value ∧
          slots api t = slots api s ∧
          Draws (allowance api s) (allowance api t) decoded.sender api.caller decoded.value ∧
          t.world = s.world) :=
  ⟨fun _ hf hd => transfer_settles cells hsum hf hd, fun _ hf hd => transferFrom_settles cells hsum hf hd⟩

end Calls

theorem lp_transfers_conserve_sample :
    let s := ((deployed (ledgerApi 7 9) 7 (holding 0 0)).set
      (mappingKey1 (ledgerApi 7 9) slotBalanceOf 5) 1000).set
        (mappingKey2 (ledgerApi 7 9) slotAllowance 5 6) 400
    let give := encodeCall PairFn.transfer.selector [padAddress 8, 300]
    let take := encodeCall PairFn.transferFrom.selector [padAddress 5, padAddress 9, 250]
    Settles (call (ledgerApi 5 9) standardAbi give) s (300 ≤ lp (ledgerApi 5 9) s 5) (fun t =>
      Conserves (lp (ledgerApi 5 9) s) (lp (ledgerApi 5 9) t) 5 8 300 ∧
        slots (ledgerApi 5 9) t = slots (ledgerApi 5 9) s ∧
        allowance (ledgerApi 5 9) t = allowance (ledgerApi 5 9) s ∧ t.world = s.world) ∧
    Settles (call (ledgerApi 6 9) standardAbi take) s (250 ≤ lp (ledgerApi 6 9) s 5 ∧
        (allowance (ledgerApi 6 9) s 5 6 = BitVec.allOnes 256 ∨ 250 ≤ allowance (ledgerApi 6 9) s 5 6))
      (fun t => Conserves (lp (ledgerApi 6 9) s) (lp (ledgerApi 6 9) t) 5 9 250 ∧
        slots (ledgerApi 6 9) t = slots (ledgerApi 6 9) s ∧
        Draws (allowance (ledgerApi 6 9) s) (allowance (ledgerApi 6 9) t) 5 6 250 ∧
        t.world = s.world) := by
  intro s give take
  have cells (c : Address) : Distinct (ledgerApi c 9) := distinct_of_free (freeKeccak_ledgerApi c 9)
  have sep := (cells 7).toSeparated
  have hlp : lp (ledgerApi 7 9) s = Function.update (fun _ => 0) 5 1000 := by
    rw [lp_set_allowance sep, lp_set_balance sep, funext (lp_deployed sep 7 (holding 0 0))]
  have hsum : total (lp (ledgerApi 7 9) s) < 2 ^ 256 := by
    rw [hlp, total_single]
    decide
  exact ⟨(lp_transfers_conserve (cells 5) hsum).1 { recipient := 8, value := 300 } (by decide +kernel)
      (by decide +kernel),
    (lp_transfers_conserve (cells 6) hsum).2 { sender := 5, recipient := 9, value := 250 }
      (by decide +kernel) (by decide +kernel)⟩

end RiscVContracts.Transfers
