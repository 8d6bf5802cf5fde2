import RiscVContracts.Uniswap.Pair

namespace RiscVContracts.PairView

open Programs Bytes Host Storage Pair

variable {κ W : Type}

/-- The pair's fixed slots, its LP balances and its allowances, read out of the raw storage. -/
def slots (api : Api κ W) (s : State κ W) (n : U32) : U256 := s.storage (slotKey api n)

def lp (api : Api κ W) (s : State κ W) (a : Address) : U256 :=
  s.storage (mappingKey1 api slotBalanceOf a)

def allowance (api : Api κ W) (s : State κ W) (owner spender : Address) : U256 :=
  s.storage (mappingKey2 api slotAllowance owner spender)

/-- The keys of fixed slots and LP balances do not collide, and no allowance
shares its key with one of them. -/
structure Separated (api : Api κ W) : Prop where
  balance : Function.Injective (mappingKey1 api slotBalanceOf)
  balance_slot : ∀ a n, mappingKey1 api slotBalanceOf a ≠ slotKey api n
  allowance_slot : ∀ o p n, mappingKey2 api slotAllowance o p ≠ slotKey api n
  allowance_balance : ∀ o p a, mappingKey2 api slotAllowance o p ≠ mappingKey1 api slotBalanceOf a

/-- What `get_reserves` makes of the packed word: the first reserve is a
112-bit field, the second is read with a 128-bit mask. -/
def unpackReserves (packed : U256) : Reserves where
  reserve0 := (packed >>> 144).setWidth 128
  reserve1 := (packed >>> 32).setWidth 128
  ts := packed.setWidth 32

def reserves (api : Api κ W) (s : State κ W) : Reserves := unpackReserves (slots api s slotReserves)

def totalSupply (api : Api κ W) (s : State κ W) : U256 := slots api s slotTotalSupply

def token0 (api : Api κ W) (s : State κ W) : Address := lowAddress (slots api s slotToken0)

def token1 (api : Api κ W) (s : State κ W) : Address := lowAddress (slots api s slotToken1)

def clock (api : Api κ W) : U256 := fromBeSlice api.now.toList

theorem and_fromUint_allOnes (x : U256) (n : Nat) :
    x &&& fromUint (BitVec.allOnes n) = fromUint (x.setWidth n) := by
  apply BitVec.eq_of_getLsbD_eq
  intro i hi
  by_cases h : i < n <;> simp [fromUint, h, hi]

theorem toNat_fromUint {n : Nat} (x : BitVec n) (hn : n ≤ 256) : (fromUint x).toNat = x.toNat := by
  rw [fromUint, BitVec.toNat_setWidth]
  exact Nat.mod_eq_of_lt (x.isLt.trans_le (Nat.pow_le_pow_right (by decide) hn))

theorem setWidth_fromUint {n : Nat} (x : BitVec n) (hn : n ≤ 256) : (fromUint x).setWidth n = x := by
  apply BitVec.eq_of_toNat_eq
  rw [BitVec.toNat_setWidth, toNat_fromUint x hn, Nat.mod_eq_of_lt x.isLt]

section Views

variable [DecidableEq κ] {api : Api κ W} (sep : Separated api) (s : State κ W)

theorem slots_set_slot (n : U32) (v : U256) :
    slots api (s.set (slotKey api n) v) = Function.update (slots api s) n v := by
  funext m
  by_cases h : m = n
  · subst m; simp [slots]
  · simp [slots, h, State.set_storage_of_ne, (slotKey_injective api).ne h]

include sep

theorem slots_set_balance (a : Address) (v : U256) :
    slots api (s.set (mappingKey1 api slotBalanceOf a) v) = slots api s := by
  funext n
  exact State.set_storage_of_ne s (sep.balance_slot a n).symm v

theorem slots_set_allowance (o p : Address) (v : U256) :
    slots api (s.set (mappingKey2 api slotAllowance o p) v) = slots api s := by
  funext n
  exact State.set_storage_of_ne s (sep.allowance_slot o p n).symm v

theorem lp_set_slot (n : U32) (v : U256) : lp api (s.set (slotKey api n) v) = lp api s := by
  funext a
  exact State.set_storage_of_ne s (sep.balance_slot a n) v

theorem lp_set_balance (a : Address) (v : U256) :
    lp api (s.set (mappingKey1 api slotBalanceOf a) v) = Function.update (lp api s) a v := by
  funext b
  by_cases h : b = a
  · subst b; simp [lp]
  · simp [lp, h, State.set_storage_of_ne, sep.balance.ne h]

theorem lp_set_allowance (o p : Address) (v : U256) :
    lp api (s.set (mappingKey2 api slotAllowance o p) v) = lp api s := by
  funext a
  exact State.set_storage_of_ne s (sep.allowance_balance o p a).symm v

theorem allowance_set_slot (n : U32) (v : U256) :
    allowance api (s.set (slotKey api n) v) = allowance api s := by
  funext o p
  exact State.set_storage_of_ne s (sep.allowance_slot o p n) v

theorem allowance_set_balance (a : Address) (v : U256) :
    allowance api (s.set (mappingKey1 api slotBalanceOf a) v) = allowance api s := by
  funext o p
  exact State.set_storage_of_ne s (sep.allowance_balance o p a) v

end Views

section Accessors

variable [DecidableEq κ] {api : Api κ W} {s t : State κ W}

omit [DecidableEq κ] in
theorem storageGetU256_ok {n : U32} {v : U256} :
    storageGetU256 api n s = .ok v t ↔ slots api s n = v ∧ s = t := getStorageOrZero_ok

theorem storageSetU256_ok {n : U32} {v : U256} {u : Unit} :
    storageSetU256 api n v s = .ok u t ↔ s.set (slotKey api n) v = t := setStorageOrClear_ok

omit [DecidableEq κ] in
theorem getFactory_ok {a : Address} :
    getFactory api s = .ok a t ↔ lowAddress (slots api s slotFactory) = a ∧ s = t := by
  simp only [getFactory, bind_ok, pure_ok, storageGetU256_ok, exists_and_left, exists_eq_left', and_assoc]

omit [DecidableEq κ] in
theorem getToken0_ok {a : Address} : getToken0 api s = .ok a t ↔ token0 api s = a ∧ s = t := by
  simp only [getToken0, bind_ok, pure_ok, storageGetU256_ok, exists_and_left, exists_eq_left', and_assoc,
    token0]

omit [DecidableEq κ] in
theorem getToken1_ok {a : Address} : getToken1 api s = .ok a t ↔ token1 api s = a ∧ s = t := by
  simp only [getToken1, bind_ok, pure_ok, storageGetU256_ok, exists_and_left, exists_eq_left', and_assoc,
    token1]

omit [DecidableEq κ] in
/-- The conversions of `get_reserves` never panic: its masks fit their targets. -/
theorem getReserves_ok {r : Reserves} : getReserves api s = .ok r t ↔ reserves api s = r ∧ s = t := by
  have h32 (x : U256) : (fromUint (x.setWidth 32)).toNat < 2 ^ 32 := by
    rw [toNat_fromUint _ (by decide)]; exact BitVec.isLt _
  have h128 (x : U256) : (fromUint (x.setWidth 128)).toNat < 2 ^ 128 := by
    rw [toNat_fromUint _ (by decide)]; exact BitVec.isLt _
  simp only [getReserves, bind_ok, storageGetU256_ok, exists_and_left, exists_eq_left', toUint_ok,
    and_fromUint_allOnes, h32, h128, setWidth_fromUint _ (show 32 ≤ 256 by decide),
    setWidth_fromUint _ (show 128 ≤ 256 by decide), true_and, pure_ok, and_assoc]
  rfl

theorem setReserves_ok {r0 r1 : U128} {ts : U32} {u : Unit} :
    setReserves api r0 r1 ts s = .ok u t ↔ s.set (slotKey api slotReserves) (packReserves r0 r1 ts) = t :=
  storageSetU256_ok

omit [DecidableEq κ] in
theorem getBalance_ok {a : Address} {v : U256} :
    getBalance api a s = .ok v t ↔ lp api s a = v ∧ s = t := getStorageOrZero_ok

theorem setBalance_ok {a : Address} {v : U256} {u : Unit} :
    setBalance api a v s = .ok u t ↔ s.set (mappingKey1 api slotBalanceOf a) v = t := setStorageOrClear_ok

omit [DecidableEq κ] in
theorem getAllowance_ok {o p : Address} {v : U256} :
    getAllowance api o p s = .ok v t ↔ allowance api s o p = v ∧ s = t := getStorageOrZero_ok

theorem setAllowance_ok {o p : Address} {v : U256} {u : Unit} :
    setAllowance api o p v s = .ok u t ↔ s.set (mappingKey2 api slotAllowance o p) v = t :=
  setStorageOrClear_ok

omit [DecidableEq κ] in
theorem safeTransfer_ok {token recipient : Address} {v : U256} {u : Unit} :
    safeTransfer api token recipient v s = .ok u t ↔
      ∃ output, api.callEvm token (transferInput recipient v) s = (some output, t) := by
  simp only [safeTransfer, bind_ok, callEvm_ok]
  constructor
  · rintro ⟨_ | output, v, h, hr⟩
    · exact absurd hr revert_ok
    · rw [pure_ok] at hr
      exact ⟨output, hr.2 ▸ h⟩
  · rintro ⟨output, h⟩
    exact ⟨some output, t, h, rfl⟩

omit [DecidableEq κ] in
theorem safeBalanceOf_ok {token account : Address} {v : U256} :
    safeBalanceOf api token account s = .ok v t ↔
      ∃ output, api.callEvm token (balanceOfInput account) s = (some output, t) ∧ readOutput output = v := by
  simp only [safeBalanceOf, bind_ok, callEvm_ok]
  constructor
  · rintro ⟨_ | output, v, h, hr⟩
    · exact absurd hr revert_ok
    · rw [pure_ok] at hr
      exact ⟨output, hr.2 ▸ h, hr.1⟩
  · rintro ⟨output, h, rfl⟩
    exact ⟨some output, t, h, rfl⟩

omit [DecidableEq κ] in
theorem safeTransfer_stopped {token recipient : Address} {v : U256} {e : Halt}
    (h : safeTransfer api token recipient v s = .error e t) :
    api.callEvm token (transferInput recipient v) s = (none, t) := by
  rcases bind_error.mp h with h | ⟨_ | output, u, hcall, h⟩
  · cases h
  · cases h
    exact callEvm_ok.mp hcall
  · cases h

omit [DecidableEq κ] in
theorem safeBalanceOf_stopped {token account : Address} {e : Halt}
    (h : safeBalanceOf api token account s = .error e t) :
    api.callEvm token (balanceOfInput account) s = (none, t) := by
  rcases bind_error.mp h with h | ⟨_ | output, u, hcall, h⟩
  · cases h
  · cases h
    exact callEvm_ok.mp hcall
  · cases h

omit [DecidableEq κ] in
theorem observeBalances_ok {token0 token1 : Address} {b : Balances} :
    observeBalances api token0 token1 s = .ok b t ↔
      ∃ u, safeBalanceOf api token0 api.address s = .ok b.balance0 u ∧
        safeBalanceOf api token1 api.address u = .ok b.balance1 t := by
  simp only [observeBalances, bind_ok, pure_ok]
  constructor
  · rintro ⟨b0, u, h0, b1, v, h1, rfl, rfl⟩
    exact ⟨u, h0, h1⟩
  · rintro ⟨u, h0, h1⟩
    exact ⟨_, u, h0, _, t, h1, rfl, rfl⟩

omit [DecidableEq κ] in
theorem payout_ok {token recipient : Address} {v : U256} {u : Unit} :
    payout api token recipient v s = .ok u t ↔
      (v = 0 ∧ s = t) ∨ (v ≠ 0 ∧ safeTransfer api token recipient v s = .ok u t) := by
  have hv : 0 < v ↔ v ≠ 0 := by
    rw [BitVec.lt_def, Ne, ← BitVec.toNat_inj]
    exact Nat.pos_iff_ne_zero
  unfold payout
  by_cases h : v = 0
  · rw [if_neg (by simp [h]), pure_ok]
    simp [h]
  · rw [if_pos (hv.mpr h)]
    simp only [h, false_and, ne_eq, not_false_eq_true, true_and, false_or]

theorem setUnlocked_ok {u : Unit} :
    setUnlocked api s = .ok u t ↔ s.set (slotKey api slotUnlocked) 1 = t := storageSetU256_ok

theorem requireUnlocked_ok {u : Unit} :
    requireUnlocked api s = .ok u t ↔
      slots api s slotUnlocked = 1 ∧ s.set (slotKey api slotUnlocked) 0 = t := by
  simp only [requireUnlocked, bind_ok, storageGetU256_ok, exists_and_left, exists_eq_left', and_assoc]
  by_cases h : slots api s slotUnlocked = 1
  · rw [if_neg (not_not_intro h), storageSetU256_ok]
    simp only [h, true_and]
  · rw [if_pos h]
    simp only [revert_ok, h, false_and]

theorem requireUnlocked_error (h : slots api s slotUnlocked ≠ 1) :
    requireUnlocked api s = .error .revert s := by
  have hget : storageGetU256 api slotUnlocked s = .ok (slots api s slotUnlocked) s :=
    storageGetU256_ok.mpr ⟨rfl, rfl⟩
  rw [requireUnlocked, bind_of_ok hget, if_pos h]
  rfl

theorem requireUnlocked_stopped {e : Halt} (h : requireUnlocked api s = .error e t) :
    slots api s slotUnlocked ≠ 1 := by
  intro hu
  have hok : requireUnlocked api s = .ok () _ := requireUnlocked_ok.mpr ⟨hu, rfl⟩
  rw [hok] at h
  cases h

theorem rejectIf_ok {c : Prop} [Decidable c] {u : Unit} :
    rejectIf api c s = .ok u t ↔ ¬ c ∧ s = t := by
  unfold rejectIf
  by_cases h : c
  · simp [h, bind_ok, revert_ok]
  · simp [h, pure_ok]

theorem rejectIf_stopped {c : Prop} [Decidable c] {e : Halt} (h : rejectIf api c s = .error e t) :
    c ∧ t.world = s.world := by
  unfold rejectIf at h
  split at h
  · rename_i hc
    cases h
    exact ⟨hc, rfl⟩
  · cases h

omit [DecidableEq κ] in
theorem nowSecs_ok {ts : U32} :
    nowSecs api s = .ok ts t ↔ (clock api).toNat < 2 ^ 32 ∧ (clock api).setWidth 32 = ts ∧ s = t :=
  toUint_ok

theorem updateReserves_ok {b : Balances} {u : Unit} :
    updateReserves api b s = .ok u t ↔
      b.balance0.toNat < 2 ^ 128 ∧ b.balance1.toNat < 2 ^ 128 ∧ (clock api).toNat < 2 ^ 32 ∧
        s.set (slotKey api slotReserves) (packReserves (b.balance0.setWidth 128)
          (b.balance1.setWidth 128) ((clock api).setWidth 32)) = t := by
  simp [updateReserves, bind_ok, toUint_ok, nowSecs_ok, setReserves_ok, and_assoc]

theorem updateReserves_stopped {b : Balances} {e : Halt} (h : updateReserves api b s = .error e t) :
    ¬ (b.balance0.toNat < 2 ^ 128 ∧ b.balance1.toNat < 2 ^ 128 ∧ (clock api).toNat < 2 ^ 32) ∧
      t = s := by
  rcases bind_error.mp h with h | ⟨r0, u, h0, h⟩
  · obtain ⟨h0, rfl⟩ := toUint_stopped h
    exact ⟨fun hf => h0 hf.1, rfl⟩
  obtain ⟨-, -, rfl⟩ := toUint_ok.mp h0
  rcases bind_error.mp h with h | ⟨r1, u, h1, h⟩
  · obtain ⟨h1, rfl⟩ := toUint_stopped h
    exact ⟨fun hf => h1 hf.2.1, rfl⟩
  obtain ⟨-, -, rfl⟩ := toUint_ok.mp h1
  rcases bind_error.mp h with h | ⟨ts, u, hts, h⟩
  · obtain ⟨hts, rfl⟩ := toUint_stopped h
    exact ⟨fun hf => hts hf.2.2, rfl⟩
  · cases h

end Accessors

end RiscVContracts.PairView
