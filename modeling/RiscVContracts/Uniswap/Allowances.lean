import RiscVContracts.Uniswap.Callbacks

namespace RiscVContracts.Allowances

open Programs Bytes Host Storage Pair PairView PairSpec PairSlots PairInvariants Calldata Symbolic
  Tokens Runs Debits Callbacks
open Reentrancy (Callback Reaction)

structure Distinct {κ W : Type} (api : Api κ W) : Prop extends Separated api where
  allowance : ∀ {o p o' p'}, mappingKey2 api slotAllowance o p = mappingKey2 api slotAllowance o' p' →
    o = o' ∧ p = p'

theorem distinct_of_free {κ W : Type} {api : Api κ W} (free : FreeKeccak api) : Distinct api where
  toSeparated := free.separated
  allowance := free.mappingKey2_injective slotAllowance

section Cells

variable {κ W : Type} [DecidableEq κ] {api : Api κ W} {abi : PairAbi} {callData : Buffer}
  {s t : State κ W} {o p : Address}

section Sets

variable (sep : Separated api)

include sep

theorem allowance_moved (s : State κ W) (sender recipient : Address) (bal v : U256) :
    allowance api (moved api s sender recipient bal v) = allowance api s := by
  rw [moved, allowance_set_balance sep, allowance_set_balance sep]

theorem initializePair_allowance {x : Unit} (h : initializePair api abi callData s = .ok x t) :
    allowance api t = allowance api s ∧ t.world = s.world := by
  obtain ⟨-, decoded, -, -, rfl⟩ := initializePair_ok.mp h
  refine ⟨?_, rfl⟩
  rw [unlocked, allowance_set_slot sep, allowance_set_slot sep, allowance_set_slot sep, locked,
    allowance_set_slot sep]

theorem transfer_allowance {x : Unit} (h : transfer api abi callData s = .ok x t) :
    allowance api t = allowance api s ∧ t.world = s.world := by
  obtain ⟨decoded, -, -, rfl⟩ := transfer_ok.mp h
  exact ⟨allowance_moved sep s _ _ _ _, rfl⟩

end Sets

variable (cells : Distinct api)

include cells

theorem allowance_set_allowance (s : State κ W) (o p : Address) (v : U256) (o' p' : Address) :
    allowance api (s.set (mappingKey2 api slotAllowance o p) v) o' p' =
      if o' = o ∧ p' = p then v else allowance api s o' p' := by
  split
  · rename_i h
    rw [h.1, h.2, allowance, State.set_storage_self]
  · rename_i h
    exact State.set_storage_of_ne s (fun he => h (cells.allowance he)) v

theorem approve_allowance {x : Unit} (h : approve api abi callData s = .ok x t) :
    ∃ decoded, abi.approveCall callData = some decoded ∧ t.world = s.world ∧ ∀ o p, allowance api t o p =
      if o = api.caller ∧ p = decoded.spender then decoded.value else allowance api s o p := by
  obtain ⟨decoded, hd, rfl⟩ := approve_ok.mp h
  exact ⟨decoded, hd, rfl, allowance_set_allowance cells s _ _ _⟩

theorem transferFrom_allowance {x : Unit} (h : transferFrom api abi callData s = .ok x t) :
    ∃ decoded, abi.transferFromCall callData = some decoded ∧ t.world = s.world ∧
      (allowance api s decoded.sender api.caller ≠ BitVec.allOnes 256 →
        decoded.value ≤ allowance api s decoded.sender api.caller) ∧
      ∀ o p, allowance api t o p =
        if (o = decoded.sender ∧ p = api.caller) ∧ allowance api s o p ≠ BitVec.allOnes 256 then
          allowance api s o p - decoded.value
        else allowance api s o p := by
  obtain ⟨decoded, hd, hallow, -, rfl⟩ := transferFrom_ok.mp h
  refine ⟨decoded, hd, ?_, fun hne => BitVec.not_lt.mp fun hlt => hallow ⟨hne, hlt⟩, fun o p => ?_⟩
  · simp only [spent]
    split <;> rfl
  rw [allowance_moved cells.toSeparated]
  simp only [spent]
  by_cases hne : allowance api s decoded.sender api.caller ≠ BitVec.allOnes 256
  · rw [if_pos hne, allowance_set_allowance cells]
    by_cases hop : o = decoded.sender ∧ p = api.caller
    · rw [if_pos hop, if_pos ⟨hop, by rwa [hop.1, hop.2]⟩, hop.1, hop.2]
    · rw [if_neg hop, if_neg fun h => hop h.1]
  · rw [if_neg hne, if_neg]
    rintro ⟨⟨rfl, rfl⟩, h⟩
    exact hne h

end Cells

section Accounts

variable {κ : Type} [DecidableEq κ]

def Approves (abi : PairAbi) (o p : Address) (e : Entry) : Prop :=
  e.caller = o ∧ pairFn e.callData = some .approve ∧
    (abi.approveCall e.callData).map ApproveArgs.spender = some p

instance (abi : PairAbi) (o p : Address) (e : Entry) : Decidable (Approves abi o p e) :=
  inferInstanceAs (Decidable (_ ∧ _ ∧ _))

def drawnBy (abi : PairAbi) (o p : Address) (e : Entry) : Nat :=
  if e.caller = p ∧ pairFn e.callData = some .transferFrom then
    match abi.transferFromCall e.callData with
    | some decoded => if decoded.sender = o then decoded.value.toNat else 0
    | none => 0
  else 0

/-- The values of all committed transfers by the spender from the owner. -/
def drawn (abi : PairAbi) (o p : Address) (calls : List Entry) : Nat :=
  (calls.map (drawnBy abi o p)).sum

/-- Until the owner approves the spender again, what is drawn and what is left
make up the allowance `A`. -/
def Accounted (api : Api κ Journal) (abi : PairAbi) (o p : Address) (A : U256) (s : State κ Journal) :
    Prop :=
  (∀ e ∈ s.world.calls, ¬ Approves abi o p e) →
    drawn abi o p s.world.calls + (allowance api s o p).toNat = A.toNat

variable {base : Api κ Journal} {abi : PairAbi} {o p : Address} {A : U256} {s t : State κ Journal}

omit [DecidableEq κ] in
theorem accounted_of_eq {api : Api κ Journal} (h : Accounted api abi o p A s)
    (hcalls : t.world.calls = s.world.calls) (ha : allowance api t o p = allowance api s o p) :
    Accounted api abi o p A t := by
  rw [Accounted, hcalls, ha]
  exact h

omit [DecidableEq κ] in
theorem accounted_committed {api : Api κ Journal} {e : Entry} (r : State κ Journal)
    (h : Accounted api abi o p A s) (hcalls : t.world.calls = s.world.calls)
    (he : ¬ Approves abi o p e → drawn abi o p s.world.calls + (allowance api s o p).toNat = A.toNat →
      drawnBy abi o p e + (allowance api t o p).toNat = (allowance api s o p).toNat) :
    Accounted api abi o p A (committed r t e) := by
  intro hno
  change ∀ e' ∈ e :: t.world.calls, ¬ Approves abi o p e' at hno
  change drawn abi o p (e :: t.world.calls) + (allowance api t o p).toNat = A.toNat
  rw [hcalls] at hno ⊢
  have hs := h fun e' he' => hno e' (List.mem_cons_of_mem _ he')
  have hstep := he (hno e List.mem_cons_self) hs
  rw [drawn, List.map_cons, List.sum_cons]
  rw [drawn] at hs
  omega

theorem guarded_accounted {api : Api κ Journal} (cells : Distinct api)
    (token : ∀ callee input s, Accounted api abi o p A s →
      Accounted api abi o p A (api.callEvm callee input s).2) :
    Guarded api (Accounted api abi o p A) (fun _ => True) where
  balance s a v h :=
    accounted_of_eq h rfl (by rw [allowance_set_balance cells.toSeparated])
  supply s v h := accounted_of_eq h rfl (by rw [allowance_set_slot cells.toSeparated])
  reserves s v h := accounted_of_eq h rfl (by rw [allowance_set_slot cells.toSeparated])
  safeTransfer := keeps_safeTransfer (fun _ _ => trivial) token
  safeBalanceOf := keeps_safeBalanceOf (fun _ _ => trivial) token
  failed _ _ := trivial
  rejected _ _ := trivial

theorem drawnBy_of_ne {e : Entry} {f : PairFn} (hf : pairFn e.callData = some f)
    (hne : f ≠ .transferFrom) : drawnBy abi o p e = 0 := by
  simp [drawnBy, hf, hne]

theorem drawnBy_transferFrom {e : Entry} {decoded : TransferFromArgs}
    (hf : pairFn e.callData = some .transferFrom)
    (hd : abi.transferFromCall e.callData = some decoded) :
    drawnBy abi o p e = if o = decoded.sender ∧ p = e.caller then decoded.value.toNat else 0 := by
  rw [drawnBy, hd]
  by_cases hp : p = e.caller
  · by_cases ho : o = decoded.sender <;> simp [hf, hp, ho, Ne.symm]
  · rw [if_neg fun h => hp h.1.symm, if_neg fun h => hp h.2]

omit [DecidableEq κ] in
theorem accounted_of_other {api : Api κ Journal} {e : Entry} {f : PairFn} (r : State κ Journal)
    (h : Accounted api abi o p A t) (hf : pairFn e.callData = some f) (hne : f ≠ .transferFrom) :
    Accounted api abi o p A (committed r t e) :=
  accounted_committed r h rfl fun _ _ => by rw [drawnBy_of_ne hf hne, Nat.zero_add]

variable {api : Api κ Journal} (cells : Distinct api) {e : Entry} (r : State κ Journal)

include cells

theorem accounted_approve (h : Accounted api abi o p A s) (hf : pairFn e.callData = some .approve)
    (hc : e.caller = api.caller) (hr : approve api abi e.callData s = .ok () t) :
    Accounted api abi o p A (committed r t e) := by
  obtain ⟨decoded, hd, hw, ha⟩ := approve_allowance cells hr
  refine accounted_committed r h (by rw [hw]) fun hno _ => ?_
  have hop : ¬ (o = api.caller ∧ p = decoded.spender) := by
    rintro ⟨rfl, rfl⟩
    exact hno ⟨hc, hf, by rw [hd]; rfl⟩
  rw [drawnBy_of_ne hf (by decide), Nat.zero_add, ha, if_neg hop]

theorem accounted_transferFrom (hA : A ≠ BitVec.allOnes 256) (h : Accounted api abi o p A s)
    (hf : pairFn e.callData = some .transferFrom) (hc : e.caller = api.caller)
    (hr : transferFrom api abi e.callData s = .ok () t) :
    Accounted api abi o p A (committed r t e) := by
  obtain ⟨decoded, hd, hw, hle, ha⟩ := transferFrom_allowance cells hr
  refine accounted_committed r h (by rw [hw]) fun _ hsum => ?_
  have hlt : A.toNat < 2 ^ 256 - 1 := by
    have h1 : A.toNat ≠ (BitVec.allOnes 256).toNat := fun h => hA (BitVec.eq_of_toNat_eq h)
    rw [BitVec.toNat_allOnes] at h1
    exact Nat.lt_of_le_of_ne (Nat.le_pred_of_lt A.isLt) h1
  have hne : allowance api s o p ≠ BitVec.allOnes 256 := by
    intro hmax
    rw [hmax, BitVec.toNat_allOnes] at hsum
    omega
  rw [drawnBy_transferFrom hf hd, hc, ha]
  by_cases hop : o = decoded.sender ∧ p = api.caller
  · rw [if_pos hop, if_pos ⟨hop, hne⟩]
    obtain ⟨rfl, rfl⟩ := hop
    rw [BitVec.toNat_sub_of_le (hle hne)]
    exact Nat.add_sub_cancel' (BitVec.le_def.mp (hle hne))
  · rw [if_neg hop, if_neg fun hh => hop hh.1, Nat.zero_add]

/-- A call that returns draws what it takes off the allowance, whatever the
tokens do in it as long as they keep the account. -/
theorem accounted_run (token : ∀ callee input s, Accounted api abi o p A s →
      Accounted api abi o p A (api.callEvm callee input s).2)
    (hA : A ≠ BitVec.allOnes 256) (h : Accounted api abi o p A s) {f : PairFn} {out : Buffer}
    (hf : pairFn e.callData = some f) (hc : e.caller = api.caller)
    (hr : run api abi e.callData f s = .ok out t) : Accounted api abi o p A (committed r t e) := by
  have sep := cells.toSeparated
  by_cases hg : f.guarded = true ∧ f ≠ .initializePair
  · have hlocked : Accounted api abi o p A (locked api s) :=
      accounted_of_eq h rfl (by rw [locked, allowance_set_slot sep])
    obtain ⟨u, hu, rfl⟩ := ((guarded_accounted cells token).run hg.1 hg.2).of_ok
      ⟨trivial, fun _ => hlocked⟩ hr
    have hu' : Accounted api abi o p A (unlocked api u) :=
      accounted_of_eq hu rfl (by rw [unlocked, allowance_set_slot sep])
    exact accounted_of_other r hu' hf fun hft => absurd hg.1 (by rw [hft]; decide)
  cases executed_of_run hr with
  | mint | burn | swap | skim | sync => exact absurd ⟨rfl, by decide⟩ hg
  | view hv ht =>
      refine accounted_of_other r (ht ▸ h) hf fun hft => absurd hv ?_
      rw [hft]
      decide
  | initializePair hi =>
      obtain ⟨ha, hw⟩ := initializePair_allowance sep hi
      exact accounted_of_other r (accounted_of_eq h (by rw [hw]) (by rw [ha])) hf (by decide)
  | transfer ht =>
      obtain ⟨ha, hw⟩ := transfer_allowance sep ht
      exact accounted_of_other r (accounted_of_eq h (by rw [hw]) (by rw [ha])) hf (by decide)
  | approve hp => exact accounted_approve cells r h hf hc hp
  | transferFrom hm => exact accounted_transferFrom cells r hA h hf hc hm

theorem enter_accounted (token : ∀ callee input s, Accounted api abi o p A s →
      Accounted api abi o p A (api.callEvm callee input s).2)
    (hA : A ≠ BitVec.allOnes 256) (s : State κ Journal) (c : Callback Reaction)
    (h : Accounted api abi o p A s) : Accounted api abi o p A (enter api abi s c) := by
  obtain he | ⟨f, out, t, hf, hr, he⟩ := enter_cases api abi s c
  · rw [he]
    exact h
  · have cells' : Distinct (onBehalf c api) :=
      ⟨separated_onBehalf cells.toSeparated c, cells.allowance⟩
    have hstart : Accounted (onBehalf c api) abi o p A (scripted s c.script) := h
    rw [he]
    exact accounted_run (e := entry api abi s c) cells' s token hA hstart hf rfl hr

end Accounts

section Runs

variable {κ : Type} [DecidableEq κ] {base : Api κ Journal} (cells : Distinct base)

theorem accounted_host (abi : PairAbi) (o p : Address) (A : U256) (n : Nat) :
    Accounted (host base abi n) abi o p A = Accounted base abi o p A := by
  funext s
  rw [Accounted, allowance_host, Accounted]

include cells

theorem distinct_host (abi : PairAbi) (n : Nat) : Distinct (host base abi n) := by
  refine ⟨separated_host cells.toSeparated n, ?_⟩
  cases n <;> exact cells.allowance

/-- Over a run of calls by any accounts, nested to any depth by the tokens, in
which the owner `o` does not approve `p` again, `p` draws from `o` exactly what
its allowance loses. -/
theorem allowance_accounted (abi : PairAbi) (n : Nat) (o p : Address) (s : State κ Journal)
    (hA : allowance base s o p ≠ BitVec.allOnes 256) (hcalls : s.world.calls = [])
    (run : List (Callback Reaction)) :
    let t := run.foldl (enter (host base abi n) abi) s
    (∀ e ∈ t.world.calls, ¬ Approves abi o p e) →
      (drawn abi o p t.world.calls : Int) =
        (allowance base s o p).toNat - (allowance base t o p).toNat ∧
      drawn abi o p t.world.calls ≤ (allowance base s o p).toNat := by
  intro t hno
  generalize hA' : allowance base s o p = A at hA ⊢
  have hstart : Accounted base abi o p A s := by
    intro _
    rw [hcalls, hA']
    exact Nat.zero_add _
  have henter (n : Nat) (token : ∀ callee input s, Accounted base abi o p A s →
      Accounted base abi o p A ((host base abi n).callEvm callee input s).2) (s : State κ Journal)
      (c : Callback Reaction) (h : Accounted base abi o p A s) :
      Accounted base abi o p A (enter (host base abi n) abi s c) := by
    rw [← accounted_host abi o p A n] at token h ⊢
    exact enter_accounted (distinct_host cells abi n) token hA s c h
  have htoken := keeps_host (fun _ _ h => h) henter n
  have ht : Accounted base abi o p A t := keeps_foldl (henter n htoken) run hstart
  have hsum : drawn abi o p t.world.calls + (allowance base t o p).toNat = A.toNat := ht hno
  exact ⟨by omega, by omega⟩

end Runs

theorem allowance_accounted_sample :
    let base := journalApi 5 9
    let s : State Key Journal :=
      { storage := Function.update (Function.update (Function.update (fun _ => 0)
          (slotKey base slotUnlocked) 1) (mappingKey1 base slotBalanceOf 5) 1000)
          (mappingKey2 base slotAllowance 5 6) 400
        world := { script := [], calls := [] } }
    let take (v : U256) (script : List Reaction) : Callback Reaction :=
      { caller := 6, now := Vector.replicate 32 0, script := script
        callData := encodeCall PairFn.transferFrom.selector [5, 7, v] }
    let sync : Callback Reaction :=
      { caller := 8, now := Vector.replicate 32 0, callData := PairFn.sync.selector
        script := [.mk [take 100 []] (some (toBeBytes 3)), .mk [] (some (toBeBytes 4))] }
    let t := [take 150 [], sync].foldl (enter (host base standardAbi 1) standardAbi) s
    (drawn standardAbi 5 6 t.world.calls : Int) =
        (allowance base s 5 6).toNat - (allowance base t 5 6).toNat ∧
      drawn standardAbi 5 6 t.world.calls ≤ (allowance base s 5 6).toNat := by
  intro base s take sync
  have cells : Distinct base := distinct_of_free (freeKeccak_key rfl rfl)
  have hA : allowance base s 5 6 ≠ BitVec.allOnes 256 := by decide +kernel
  have hno : ∀ e ∈ ([take 150 [], sync].foldl (enter (host base standardAbi 1) standardAbi) s).world.calls,
      ¬ Approves standardAbi 5 6 e := by decide +kernel
  exact allowance_accounted cells standardAbi 1 5 6 s hA rfl [take 150 [], sync] hno

end RiscVContracts.Allowances
