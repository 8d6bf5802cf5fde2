import RiscVContracts.Uniswap.Factory
import RiscVContracts.Uniswap.Symbolic
import Mathlib.Data.Sym.Sym2

namespace RiscVContracts.FactorySpec

open Programs Bytes Host Storage PairView Symbolic Factory

variable {κ W : Type}

section Order

theorem addressBytes_lt {a b : Address} : addressBytes a < addressBytes b ↔ a < b :=
  beBytes_lt (a.isLt.trans_eq (by norm_num)) (b.isLt.trans_eq (by norm_num))

theorem sortTokens_of_lt {a b : Address} (h : a < b) : sortTokens a b = (a, b) :=
  if_pos (addressBytes_lt.mpr h)

theorem sortTokens_of_not_lt {a b : Address} (h : ¬ a < b) : sortTokens a b = (b, a) :=
  if_neg (mt addressBytes_lt.mp h)

theorem sortTokens_pair (a b : Address) : s((sortTokens a b).1, (sortTokens a b).2) = s(a, b) := by
  by_cases h : a < b
  · rw [sortTokens_of_lt h]
  · rw [sortTokens_of_not_lt h, Sym2.eq_swap]

theorem sortTokens_lt {a b : Address} (h : a ≠ b) : (sortTokens a b).1 < (sortTokens a b).2 := by
  by_cases hlt : a < b
  · rwa [sortTokens_of_lt hlt]
  · rw [sortTokens_of_not_lt hlt]
    have hne : a.toNat ≠ b.toNat := mt BitVec.eq_of_toNat_eq h
    rw [BitVec.lt_def] at hlt ⊢
    exact (Nat.not_lt.mp hlt).lt_of_ne hne.symm

theorem sortTokens_comm (a b : Address) : sortTokens a b = sortTokens b a := by
  by_cases hab : a < b
  · rw [sortTokens_of_lt hab, sortTokens_of_not_lt (BitVec.lt_asymm hab)]
  · by_cases hba : b < a
    · rw [sortTokens_of_not_lt hab, sortTokens_of_lt hba]
    · have h : a = b := BitVec.le_antisymm (BitVec.not_lt.mp hba) (BitVec.not_lt.mp hab)
      rw [h]

end Order

section Views

structure View where
  length : U256
  allPairs : U256 → Address
  pair : Address → Address → Address

def view (api : Api κ W) (s : State κ W) : View where
  length := slots api s slotAllPairs
  allPairs index := lowAddress (s.storage (arraySlot api slotAllPairs index))
  pair token0 token1 := lowAddress (s.storage (mappingKey2 api slotGetPair token0 token1))

def View.reported (v : View) (a b : Address) : Address :=
  v.pair (sortTokens a b).1 (sortTokens a b).2

theorem View.reported_comm (v : View) (a b : Address) : v.reported a b = v.reported b a := by
  rw [reported, sortTokens_comm, reported]

def View.register (v : View) (token0 token1 pair : Address) : View where
  length := v.length + 1
  allPairs := Function.update v.allPairs v.length pair
  pair a b := if s(a, b) = s(token0, token1) then pair else v.pair a b

theorem View.register_allPairs (v : View) (token0 token1 pair : Address) :
    (v.register token0 token1 pair).allPairs = Function.update v.allPairs v.length pair := rfl

theorem View.register_pair (v : View) (token0 token1 pair a b : Address) :
    (v.register token0 token1 pair).pair a b = if s(a, b) = s(token0, token1) then pair else v.pair a b := rfl

/-- The keys of the mapping, of the array and of the fixed slots do not collide. -/
structure Apart (api : Api κ W) : Prop where
  pair_injective : ∀ {a b c d}, mappingKey2 api slotGetPair a b = mappingKey2 api slotGetPair c d →
    a = c ∧ b = d
  array_injective : Function.Injective (arraySlot api slotAllPairs)
  pair_array : ∀ a b i, mappingKey2 api slotGetPair a b ≠ arraySlot api slotAllPairs i
  pair_slot : ∀ a b n, mappingKey2 api slotGetPair a b ≠ slotKey api n
  array_slot : ∀ i n, arraySlot api slotAllPairs i ≠ slotKey api n

theorem apart_of_free {api : Api κ W} (free : FreeKeccak api) : Apart api where
  pair_injective := free.mappingKey2_injective slotGetPair
  array_injective _ _ h := api.word_injective (free.hash_injective h).2
  pair_array _ _ _ h := free.hash_ne_word _ _ _ (free.hash_injective h).2
  pair_slot _ _ _ := free.hash_ne_word _ _ _
  array_slot _ _ := free.hash_ne_word _ _ _

variable [DecidableEq κ]

def registered (api : Api κ W) (s : State κ W) (token0 token1 pair : Address) : State κ W :=
  let t := (s.set (mappingKey2 api slotGetPair token0 token1) (padAddress pair)).set
    (mappingKey2 api slotGetPair token1 token0) (padAddress pair)
  let len := slots api t slotAllPairs
  (t.set (arraySlot api slotAllPairs len) (padAddress pair)).set (slotKey api slotAllPairs) (len + 1)

variable {api : Api κ W} (apart : Apart api) (s : State κ W)

include apart

theorem view_set_slot {n : U32} (hn : n ≠ slotAllPairs) (v : U256) :
    view api (s.set (slotKey api n) v) = view api s := by
  simp only [view, slots_set_slot, Function.update_of_ne hn.symm,
    State.set_storage_of_ne _ (apart.array_slot _ _), State.set_storage_of_ne _ (apart.pair_slot _ _ _)]

theorem slots_set_pair (a b : Address) (v : U256) :
    slots api (s.set (mappingKey2 api slotGetPair a b) v) = slots api s := by
  funext n
  exact State.set_storage_of_ne s (apart.pair_slot a b n).symm v

theorem pair_set_pair (a b c d : Address) (v : U256) :
    (s.set (mappingKey2 api slotGetPair a b) v).storage (mappingKey2 api slotGetPair c d) =
      if c = a ∧ d = b then v else s.storage (mappingKey2 api slotGetPair c d) := by
  split
  · rename_i h
    rw [h.1, h.2, State.set_storage_self]
  · rename_i h
    exact State.set_storage_of_ne s (mt apart.pair_injective h) v

theorem array_set_array (i j v : U256) :
    (s.set (arraySlot api slotAllPairs i) v).storage (arraySlot api slotAllPairs j) =
      if j = i then v else s.storage (arraySlot api slotAllPairs j) := by
  split
  · rename_i h
    rw [h, State.set_storage_self]
  · rename_i h
    exact State.set_storage_of_ne s (apart.array_injective.ne h) v

theorem view_registered (token0 token1 pair : Address) :
    view api (registered api s token0 token1 pair) = (view api s).register token0 token1 pair := by
  have hpair (i : U256) (t : State κ W) (v : U256) (a b : Address) :
      (t.set (arraySlot api slotAllPairs i) v).storage (mappingKey2 api slotGetPair a b) =
        t.storage (mappingKey2 api slotGetPair a b) := State.set_storage_of_ne t (apart.pair_array a b i) v
  have harray (a b : Address) (t : State κ W) (v i : U256) :
      (t.set (mappingKey2 api slotGetPair a b) v).storage (arraySlot api slotAllPairs i) =
        t.storage (arraySlot api slotAllPairs i) :=
    State.set_storage_of_ne t (apart.pair_array a b i).symm v
  simp only [view, View.register, registered, slots_set_pair apart, slots_set_slot, Function.update_self,
    State.set_storage_of_ne _ (apart.array_slot _ _), State.set_storage_of_ne _ (apart.pair_slot _ _ _),
    hpair, harray, pair_set_pair apart, array_set_array apart, View.mk.injEq, true_and]
  constructor
  · funext i
    by_cases h : i = slots api s slotAllPairs <;> simp [h]
  · funext a b
    simp only [Sym2.eq_iff]
    by_cases h : a = token1 ∧ b = token0 <;> by_cases h' : a = token0 ∧ b = token1 <;> simp [h, h']

end Views

section Inversion

variable {api : Api κ W} {abi : FactoryAbi} {callData : Buffer} {s t : State κ W}

theorem revertIf_ok {c : Prop} [Decidable c] {u : Unit} :
    (revertIf c : Program κ W Unit) s = .ok u t ↔ ¬ c ∧ s = t := by
  unfold revertIf
  by_cases h : c <;> simp [h, revert_ok, pure_ok]

theorem getPairInternal_ok {a b p : Address} :
    getPairInternal api a b s = .ok p t ↔ (view api s).pair a b = p ∧ s = t := by
  simp only [getPairInternal, bind_ok, pure_ok, getStorageOrZero_ok, exists_and_left, exists_eq_left',
    and_assoc]
  rfl

theorem getPair_ok {p : Address} : Factory.getPair api abi callData s = .ok p t ↔
    ∃ decoded, abi.getPairCall callData = some decoded ∧
      (view api s).reported decoded.1 decoded.2 = p ∧ s = t := by
  simp only [Factory.getPair, bind_ok, orRevert_ok, getPairInternal_ok, and_assoc, exists_and_left,
    exists_eq_left']
  rfl

theorem allPairsGet_ok {i : U256} {p : Address} :
    allPairsGet api i s = .ok p t ↔ (view api s).allPairs i = p ∧ s = t := by
  simp only [allPairsGet, bind_ok, pure_ok, getStorageOrZero_ok, exists_and_left, exists_eq_left',
    and_assoc]
  rfl

theorem instantiate_ok {input : Buffer} {r : Option Address} :
    Factory.instantiate api input s = .ok r t ↔ api.instantiate input s = (r, t) := by
  simp [Factory.instantiate, Prod.ext_iff]

theorem callContract_ok {callee : Address} {input : Buffer} {r : Option Buffer} :
    callContract api callee input s = .ok r t ↔ api.call callee input s = (r, t) := by
  simp [callContract, Prod.ext_iff]

variable [DecidableEq κ]

theorem deployPair_ok {token0 token1 p : Address} {codeHash : U256} :
    deployPair api token0 token1 codeHash s = .ok p t ↔ ∃ u v output,
      api.instantiate (toBeBytes codeHash) s = (some p, u) ∧
      api.call p (encodeInitialize token0 token1) u = (some output, v) ∧
      registered api v token0 token1 p = t := by
  simp only [deployPair, setPair, allPairsPush, allPairsLength, bind_ok, instantiate_ok, callContract_ok,
    orRevert_ok, setStorageOrClear_ok, storageGetU256_ok, storageSetU256_ok, pure_ok, exists_and_left,
    exists_eq_left', exists_unit, and_assoc]
  constructor
  · rintro ⟨_, u, hi, _, rfl, _, v, hc, output, rfl, rfl, rfl⟩
    exact ⟨u, hi, v, output, hc, rfl⟩
  · rintro ⟨u, hi, v, output, hc, rfl⟩
    exact ⟨_, u, hi, _, rfl, _, v, hc, output, rfl, rfl, rfl⟩

theorem createPair_ok {p : Address} : createPair api abi callData s = .ok p t ↔
    ∃ decoded, abi.createPairCall callData = some decoded ∧ decoded.1 ≠ decoded.2 ∧
      (sortTokens decoded.1 decoded.2).1 ≠ 0 ∧ (view api s).reported decoded.1 decoded.2 = 0 ∧
      slots api s slotPairCodeHash ≠ 0 ∧
      deployPair api (sortTokens decoded.1 decoded.2).1 (sortTokens decoded.1 decoded.2).2
        (slots api s slotPairCodeHash) s = .ok p t := by
  simp only [createPair, bind_ok, orRevert_ok, revertIf_ok, getPairInternal_ok, getStorageOrZero_ok,
    exists_and_left, exists_eq_left', exists_unit, and_assoc, not_not]
  rfl

omit [DecidableEq κ] in
theorem requireSetter_ok {u : Unit} : requireSetter api s = .ok u t ↔
    api.caller = lowAddress (slots api s slotFeeToSetter) ∧ s = t := by
  simp only [requireSetter, bind_ok, storageGetU256_ok, revertIf_ok, exists_and_left, exists_eq_left',
    not_not, and_assoc]

theorem setFeeTo_ok {u : Unit} : setFeeTo api abi callData s = .ok u t ↔
    api.caller = lowAddress (slots api s slotFeeToSetter) ∧ ∃ a, abi.setFeeToCall callData = some a ∧
      s.set (slotKey api slotFeeTo) (padAddress a) = t := by
  simp only [setFeeTo, bind_ok, requireSetter_ok, orRevert_ok, storageSetU256_ok, exists_and_left,
    exists_eq_left', exists_unit, and_assoc]

theorem setFeeToSetter_ok {u : Unit} : setFeeToSetter api abi callData s = .ok u t ↔
    api.caller = lowAddress (slots api s slotFeeToSetter) ∧
      ∃ a, abi.setFeeToSetterCall callData = some a ∧
      s.set (slotKey api slotFeeToSetter) (padAddress a) = t := by
  simp only [setFeeToSetter, bind_ok, requireSetter_ok, orRevert_ok, storageSetU256_ok, exists_and_left,
    exists_eq_left', exists_unit, and_assoc]

theorem call_ok {output : Buffer} : Factory.call api abi callData s = .ok output t ↔
    4 ≤ callData.length ∧ ∃ f, factoryFn callData = some f ∧
      Factory.run api abi callData f s = .ok output t := by
  unfold Factory.call
  by_cases hlen : callData.length < 4
  · rw [if_pos hlen]
    simp [revert_ok, Nat.not_le.mpr hlen]
  · rw [if_neg hlen]
    cases hf : factoryFn callData with
    | none => simp [revert_ok]
    | some f => simp [Nat.not_lt.mp hlen]

inductive Executed (api : Api κ W) (abi : FactoryAbi) (callData : Buffer) (s : State κ W) :
    State κ W → FactoryFn → Prop
  | view {f} : f ≠ .createPair → Executed api abi callData s s f
  | fee {f} (slot : U32) (v : U256) : slot ∈ [slotFeeTo, slotFeeToSetter] → f ≠ .createPair →
      Executed api abi callData s (s.set (slotKey api slot) v) f
  | createPair {p t} : createPair api abi callData s = .ok p t → Executed api abi callData s t .createPair

theorem executed_of_run {f : FactoryFn} {output : Buffer}
    (h : Factory.run api abi callData f s = .ok output t) : Executed api abi callData s t f := by
  cases f with
  | feeTo | feeToSetter | allPairsLength =>
      obtain ⟨v, hv, -⟩ := bind_pure_ok.mp h
      obtain ⟨-, rfl⟩ := storageGetU256_ok.mp hv
      exact .view (by decide)
  | getPair =>
      obtain ⟨p, hp, -⟩ := bind_pure_ok.mp h
      obtain ⟨-, -, -, rfl⟩ := getPair_ok.mp hp
      exact .view (by decide)
  | allPairs =>
      obtain ⟨i, u, hi, hp⟩ := bind_ok.mp h
      obtain ⟨-, rfl⟩ := orRevert_ok.mp hi
      obtain ⟨p, hp, -⟩ := bind_pure_ok.mp hp
      obtain ⟨-, rfl⟩ := allPairsGet_ok.mp hp
      exact .view (by decide)
  | createPair =>
      obtain ⟨p, hp, -⟩ := bind_pure_ok.mp h
      exact .createPair hp
  | setFeeTo =>
      obtain ⟨_, hu, -⟩ := bind_pure_ok.mp h
      obtain ⟨-, a, -, rfl⟩ := setFeeTo_ok.mp hu
      exact .fee slotFeeTo _ (by decide) (by decide)
  | setFeeToSetter =>
      obtain ⟨_, hu, -⟩ := bind_pure_ok.mp h
      obtain ⟨-, a, -, rfl⟩ := setFeeToSetter_ok.mp hu
      exact .fee slotFeeToSetter _ (by decide) (by decide)

theorem executed_of_call {output : Buffer} (h : Factory.call api abi callData s = .ok output t) :
    ∃ f, factoryFn callData = some f ∧ Executed api abi callData s t f := by
  obtain ⟨-, f, hf, hr⟩ := call_ok.mp h
  exact ⟨f, hf, executed_of_run hr⟩

end Inversion

end RiscVContracts.FactorySpec
