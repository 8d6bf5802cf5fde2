import RiscVContracts.Uniswap.Redemption
import RiscVContracts.Uniswap.Reentrancy
import RiscVContracts.Uniswap.Transfers

namespace RiscVContracts.Network

open Programs Bytes Host Storage Pair PairView PairSpec PairSlots PairInvariants Calldata Symbolic Tokens
  Transfers Supply SplitBurn SwapPrice Redemption

section Model

variable {κ : Type} [DecidableEq κ]

/-- The storage of every pair contract; that of the running one is in its state. -/
abbrev Contracts (κ : Type) := Address → κ → U256

omit [DecidableEq κ] in
/-- The state in which a call of the contract `callee` by `self` starts: the
storage of the caller is put by and that of the callee taken up. -/
def entered (self callee : Address) (s : State κ (Contracts κ)) : State κ (Contracts κ) :=
  let saved := Function.update s.world self s.storage
  { storage := saved callee, world := saved }

omit [DecidableEq κ] in
/-- A call of another contract; a failing one leaves nothing behind. -/
def visit (self callee : Address) (run : Program κ (Contracts κ) Buffer) (s : State κ (Contracts κ)) :
    Option Buffer × State κ (Contracts κ) :=
  match run (entered self callee s) with
  | .ok output t =>
    let after := Function.update t.world callee t.storage
    (some output, { storage := after self, world := after })
  | .error _ _ => (none, s)

/-- The host of the contract `self` called by `caller`, among pair contracts
that are tokens of each other; calls nest to the given depth. -/
def network (base : Api κ (Contracts κ)) (abi : PairAbi) : Nat → Address → Address → Api κ (Contracts κ)
  | 0, self, caller => { base with address := self, caller := caller, callEvm := fun _ _ s => (none, s) }
  | n + 1, self, caller =>
    { base with
      address := self
      caller := caller
      callEvm := fun callee input s =>
        visit self callee (Pair.call (network base abi n callee self) abi input) s }

end Model

section Keys

variable {κ : Type} [DecidableEq κ] {base : Api κ (Contracts κ)} {abi : PairAbi}

@[simp] theorem network_caller (n : Nat) (self caller : Address) :
    (network base abi n self caller).caller = caller := by cases n <;> rfl

@[simp] theorem slots_network (n : Nat) (self caller : Address) :
    slots (network base abi n self caller) = slots base := by cases n <;> rfl

@[simp] theorem lp_network (n : Nat) (self caller : Address) :
    lp (network base abi n self caller) = lp base := by cases n <;> rfl

theorem separated_network (sep : Separated base) (n : Nat) (self caller : Address) :
    Separated (network base abi n self caller) := by
  cases n <;> exact ⟨sep.balance, sep.balance_slot, sep.allowance_slot, sep.allowance_balance⟩

end Keys

section Lock

variable {κ W : Type} [DecidableEq κ] {api : Api κ W} {abi : PairAbi} {callData : Buffer}

theorem keeps_call_of_writes {J : State κ W → Prop} (hset : ∀ s key v, J s → J (s.set key v))
    (token : ∀ callee input s, J s → J (api.callEvm callee input s).2) :
    Keeps J (fun _ => True) (call api abi callData) := by
  have st : Stable api J (fun _ => True) :=
    { balance := fun s a v h => hset s _ v h
      allowance := fun s o p v h => hset s _ v h
      supply := fun s v h => hset s _ v h
      reserves := fun s v h => hset s _ v h
      token := token
      failed := fun _ _ => trivial
      rejected := fun _ _ => trivial }
  refine .ite (keeps_revert st.failed) ?_
  cases pairFn callData with
  | none => exact keeps_revert st.failed
  | some f =>
      by_cases hi : f = .initializePair
      · subst f
        apply (initializePair_keeps fun s n v _ h => hset s _ v h).weaken (fun _ h => h) _ fun _ _ => trivial
        rintro _ t ⟨u, hu, rfl⟩
        exact hset u _ 1 hu
      · cases hg : f.guarded with
        | false => exact st.toUnaffected.run hg
        | true =>
            apply (st.run hg hi).weaken (fun s h => ⟨trivial, fun _ => hset s _ 0 h⟩) _ fun _ _ => trivial
            rintro _ t ⟨u, hu, rfl⟩
            exact hset u _ 1 hu

theorem slots_of_locked (sep : Separated api) {s t : State κ W} (hs : slots api s slotUnlocked ≠ 1)
    {output : Buffer} (h : call api abi callData s = .ok output t) : slots api t = slots api s := by
  obtain ⟨f, -, hx⟩ := executed_of_call h
  cases hx with
  | view _ ht => rw [ht]
  | initializePair hi => exact absurd (initializePair_ok.mp hi).1 hs
  | mint hm => exact absurd (mint_ok.mp hm).1 hs
  | burn hb => exact absurd (burn_ok.mp hb).1 hs
  | swap hw => exact absurd (swap_ok.mp hw).1 hs
  | skim hk => exact absurd (skim_ok.mp hk).1 hs
  | sync hy => exact absurd (sync_ok.mp hy).1 hs
  | approve ha => exact approve_slots sep ha
  | transfer htr => exact transfer_slots sep htr
  | transferFrom htr => exact transferFrom_slots sep htr

end Lock

section Watched

variable {κ : Type} {base : Api κ (Contracts κ)} {p self : Address}

def watched (base : Api κ (Contracts κ)) (p self : Address) (s : State κ (Contracts κ)) (n : U32) : U256 :=
  if p = self then slots base s n else s.world p (slotKey base n)

theorem watched_self (s : State κ (Contracts κ)) : watched base p p s = slots base s :=
  funext fun _ => if_pos rfl

theorem watched_of_ne (h : p ≠ self) (s : State κ (Contracts κ)) :
    watched base p self s = fun n => s.world p (slotKey base n) := funext fun _ => if_neg h

theorem watched_entered (callee : Address) (s : State κ (Contracts κ)) :
    watched base p callee (entered self callee s) = watched base p self s := by
  funext n
  have hp : Function.update s.world self s.storage p (slotKey base n) = watched base p self s n := by
    by_cases h : p = self
    · subst p
      rw [watched_self]
      simp only [Function.update_self, slots]
    · simp only [watched, if_neg h, Function.update_of_ne h]
  rw [← hp, watched]
  split
  · subst callee
    rfl
  · rfl

theorem watched_after {callee : Address} (t : State κ (Contracts κ)) :
    let after := Function.update t.world callee t.storage
    watched base p self { storage := after self, world := after } = watched base p callee t := by
  intro after
  funext n
  have hp : after p (slotKey base n) = watched base p callee t n := by
    by_cases h : p = callee
    · subst p
      rw [watched_self]
      simp only [after, Function.update_self, slots]
    · simp only [after, watched, if_neg h, Function.update_of_ne h]
  rw [← hp, watched]
  split
  · subst self
    rfl
  · rfl

variable [DecidableEq κ] {abi : PairAbi}

/-- While a pair is locked no call in the network, however deep, changes its fixed slots. -/
theorem network_locked (sep : Separated base) (n : Nat) (caller callee : Address) (input : Buffer)
    (s : State κ (Contracts κ)) (hs : watched base p self s slotUnlocked ≠ 1) :
    watched base p self ((network base abi n self caller).callEvm callee input s).2 =
      watched base p self s := by
  induction n generalizing self caller callee input s with
  | zero => rfl
  | succ n ih =>
      let start := entered self callee s
      have hstart : watched base p callee start = watched base p self s := watched_entered callee s
      change watched base p self
        (visit self callee (Pair.call (network base abi n callee self) abi input) s).2 = _
      rw [← hstart] at hs ⊢
      cases hc : Pair.call (network base abi n callee self) abi input start with
      | error e t =>
          simp only [start] at hc
          simp only [visit, hc]
          exact hstart.symm
      | ok output t =>
          have ht : watched base p callee t = watched base p callee start := by
            by_cases hp : p = callee
            · subst p
              rw [watched_self, watched_self] at *
              have h := slots_of_locked (separated_network sep n callee self)
                (by rwa [slots_network]) hc
              rwa [slots_network] at h
            · let J : State κ (Contracts κ) → Prop := fun u =>
                watched base p callee u = watched base p callee start
              have hset (u : State κ (Contracts κ)) (key : κ) (v : U256) (hu : J u) : J (u.set key v) := by
                simp only [J, watched_of_ne hp] at hu ⊢
                exact hu
              have htoken (callee' : Address) (input' : Buffer) (u : State κ (Contracts κ)) (hu : J u) :
                  J ((network base abi n callee self).callEvm callee' input' u).2 :=
                (ih self callee' input' u (hu ▸ hs)).trans hu
              have hk : Keeps J (fun _ => True) (Pair.call (network base abi n callee self) abi input) :=
                keeps_call_of_writes hset htoken
              exact hk.of_ok rfl hc
          simp only [start] at hc
          simp only [visit, hc]
          exact (watched_after t).trans ht

theorem network_keepsSlots (sep : Separated base) (n : Nat) (self caller : Address) :
    KeepsSlots (network base abi n self caller) := by
  intro callee input s hs
  rw [slots_network] at hs ⊢
  rw [← watched_self] at hs
  have h : watched base self self ((network base abi n self caller).callEvm callee input s).2 =
      watched base self self s := network_locked sep n caller callee input s hs
  rwa [watched_self, watched_self] at h

end Watched

section LpTokens

variable {κ : Type} {base : Api κ (Contracts κ)} {self token : Address} {s : State κ (Contracts κ)}

def lpLedger (base : Api κ (Contracts κ)) (self : Address) (contracts : Contracts κ) : Ledger :=
  fun token account => if token = self then 0 else contracts token (mappingKey1 base slotBalanceOf account)

/-- A decoder that reads the two calls a pair makes of its tokens. -/
structure Decodes (abi : PairAbi) : Prop where
  transfer : ∀ recipient v,
    abi.transferCall (transferInput recipient v) = some { recipient := recipient, value := v }
  balanceOf : ∀ account, abi.balanceOfCall (balanceOfInput account) = some account

theorem decodes_standardAbi : Decodes standardAbi where
  transfer recipient v := by
    have hs := selector_length .transfer
    have hr : addressAt (encodeCall PairFn.transfer.selector [padAddress recipient, v]) 0 =
        some recipient := addressAt_encodeCall hs rfl
    have hv : wordAt (encodeCall PairFn.transfer.selector [padAddress recipient, v]) 1 = some v :=
      wordAt_encodeCall hs rfl
    rw [transferInput_eq]
    simp [standardAbi, hr, hv]
  balanceOf account := by
    have ha : addressAt (encodeCall PairFn.balanceOf.selector [padAddress account]) 0 = some account :=
      addressAt_encodeCall (selector_length _) rfl
    rw [balanceOfInput_eq]
    simp [standardAbi, ha]

theorem lp_entered (ht : token ≠ self) (s : State κ (Contracts κ)) :
    lp base (entered self token s) = lpLedger base self s.world token := by
  funext account
  simp only [PairView.lp, entered, lpLedger, if_neg ht, Function.update_of_ne ht]

theorem visit_ok (base : Api κ (Contracts κ)) (ht : token ≠ self) {run : Program κ (Contracts κ) Buffer}
    {output : Buffer} {t : State κ (Contracts κ)} (h : run (entered self token s) = .ok output t)
    (hw : t.world = (entered self token s).world) :
    ∃ u, visit self token run s = (some output, u) ∧ u.storage = s.storage ∧
      lpLedger base self u.world = Function.update (lpLedger base self s.world) token (lp base t) := by
  refine ⟨_, by simp only [visit, h]; rfl, ?_, ?_⟩
  · simp only [hw, entered, Function.update_of_ne ht.symm, Function.update_self]
  · funext other account
    by_cases ho : other = token
    · subst other
      simp only [lpLedger, if_neg ht, Function.update_self, PairView.lp]
    · simp only [hw, entered, lpLedger, Function.update_of_ne ho]
      split
      · rfl
      · rw [Function.update_of_ne ‹_›]

variable [DecidableEq κ] {abi : PairAbi} (decodes : Decodes abi) (n : Nat)

include decodes

theorem network_balanceOf (caller : Address) (ht : token ≠ self) (account : Address)
    (s : State κ (Contracts κ)) :
    ∃ t, (network base abi (n + 1) self caller).callEvm token (balanceOfInput account) s =
        (some (toBeBytes (lpLedger base self s.world token account)), t) ∧
      t.storage = s.storage ∧ lpLedger base self t.world = lpLedger base self s.world := by
  have hrun : Pair.call (network base abi n token self) abi (balanceOfInput account) (entered self token s) =
      .ok (toBeBytes (lp (network base abi n token self) (entered self token s) account))
        (entered self token s) := by
    rw [call_eq_run (pairFn_balanceOfInput account)]
    simp only [run, decodes.balanceOf]
    rfl
  rw [lp_network, lp_entered ht] at hrun
  obtain ⟨u, hu, hst, hled⟩ := visit_ok base ht hrun rfl
  refine ⟨u, hu, hst, ?_⟩
  rw [hled, lp_entered ht, Function.update_eq_self]

theorem network_transfer (caller : Address) (ht : token ≠ self) (sep : Separated base)
    (recipient : Address) (v : U256)
    (s : State κ (Contracts κ)) :
    (v ≤ lpLedger base self s.world token self ∧
      ∃ t, (network base abi (n + 1) self caller).callEvm token (transferInput recipient v) s =
          (some (toBeBytes 1), t) ∧ t.storage = s.storage ∧
        Paid (lpLedger base self s.world) (lpLedger base self t.world) token self recipient v) ∨
    (¬ v ≤ lpLedger base self s.world token self ∧
      (network base abi (n + 1) self caller).callEvm token (transferInput recipient v) s = (none, s)) := by
  let api := network base abi n token self
  have hcaller : api.caller = self := network_caller ..
  have hlp : lp api = lp base := lp_network ..
  have hf := pairFn_transferInput recipient v
  have htransfer : transfer api abi (transferInput recipient v) (entered self token s) =
      if lp api (entered self token s) api.caller < v then .error .revert (entered self token s)
      else .ok () (moved api (entered self token s) api.caller recipient
        (lp api (entered self token s) api.caller) v) := transfer_eq (decodes.transfer recipient v)
  rw [hcaller, hlp, lp_entered ht] at htransfer
  by_cases hv : v ≤ lpLedger base self s.world token self
  · rw [if_neg (BitVec.not_lt.mpr hv)] at htransfer
    have hrun : Pair.call api abi (transferInput recipient v) (entered self token s) = _ :=
      (call_eq_run hf).trans (bind_of_ok htransfer)
    obtain ⟨u, hu, hst, hled⟩ := visit_ok base ht hrun rfl
    refine .inl ⟨hv, u, hu, hst, hv, ?_, fun other ho => ?_⟩
    · have hsep : Separated api := separated_network sep n token self
      have hmoved := lp_moved hsep (entered self token s) self recipient v
      rw [hlp, lp_entered ht] at hmoved
      rw [hled, Function.update_self]
      exact hmoved
    · rw [hled, Function.update_of_ne ho]
  · rw [if_pos (BitVec.not_le.mp hv)] at htransfer
    have hrun : Pair.call api abi (transferInput recipient v) (entered self token s) = _ :=
      (call_eq_run hf).trans (bind_of_error htransfer)
    refine .inr ⟨hv, ?_⟩
    change visit self token (Pair.call api abi (transferInput recipient v)) s = _
    rw [visit, hrun]

theorem network_exact (sep : Separated base) (self caller : Address) :
    ExactTokens (network base abi (n + 1) self caller) (lpLedger base self) {x | x ≠ self} where
  balanceOf token ht account s := by
    obtain ⟨t, hc, -, hv⟩ := network_balanceOf decodes n caller ht account s
    exact ⟨_, t, hc, readOutput_toBeBytes _, hv⟩
  transfer token ht recipient v s hv := by
    obtain ⟨-, t, hc, -, hp⟩ | ⟨hn, -⟩ := network_transfer decodes n caller ht sep recipient v s
    · exact ⟨_, t, hc, hp⟩
    · exact absurd hv hn
  refuse token ht recipient v s hv := by
    obtain ⟨hv', -⟩ | ⟨-, hc⟩ := network_transfer decodes n caller ht sep recipient v s
    · exact absurd hv' hv
    · exact ⟨s, hc⟩

/-- The tokens a pool needs: the LP tokens of other pairs report their balances,
move exactly what is covered and refuse the rest, and whatever they do the pool
keeps its fixed slots while it is locked. -/
theorem lp_tokens_exact (sep : Separated base) (self caller : Address) :
    KeepsSlots (network base abi (n + 1) self caller) ∧
      ExactTokens (network base abi (n + 1) self caller) (lpLedger base self) {x | x ≠ self} ∧
      PayingTokens (network base abi (n + 1) self caller) (lpLedger base self) {x | x ≠ self} :=
  ⟨network_keepsSlots sep _ _ _, network_exact decodes n sep self caller,
    paying_of_exact (network_exact decodes n sep self caller)⟩

end LpTokens

def networkApi : Api Key (Contracts Key) where
  word := .word
  word_injective _ _ h := Key.word.inj h
  hashKeccak256 := .hash
  caller := 0
  address := 0
  now := Vector.replicate 32 0
  callEvm _ _ s := (none, s)

theorem lp_tokens_exact_sample :
    KeepsSlots (network networkApi standardAbi 2 9 5) ∧
      ExactTokens (network networkApi standardAbi 2 9 5) (lpLedger networkApi 9) {x | x ≠ 9} ∧
      PayingTokens (network networkApi standardAbi 2 9 5) (lpLedger networkApi 9) {x | x ≠ 9} := by
  have sep : Separated networkApi := (freeKeccak_key rfl rfl).separated
  exact lp_tokens_exact decodes_standardAbi 1 sep 9 5

end RiscVContracts.Network
