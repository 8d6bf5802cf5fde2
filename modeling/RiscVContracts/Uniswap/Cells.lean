import RiscVContracts.Uniswap.Reentrancy

namespace RiscVContracts.Cells

open Programs Bytes Host Storage Pair PairView PairSpec PairInvariants Symbolic Calldata Tokens Runs
  Reentrancy

section Layout

variable {κ W : Type}

/-- What the pair stores, a fixed slot for every number its code can spell. -/
inductive Cell
  | slot (n : U32)
  | balance (owner : Address)
  | allowance (owner spender : Address)

def cellKey (api : Api κ W) : Cell → κ
  | .slot n => slotKey api n
  | .balance a => mappingKey1 api slotBalanceOf a
  | .allowance o p => mappingKey2 api slotAllowance o p

/-- The slots that a call can write. Those of the factory, of the two cumulative
prices and of the last product are read only. -/
def Cell.written : Cell → Bool
  | .slot n => [slotToken0, slotToken1, slotReserves, slotUnlocked, slotTotalSupply].contains n
  | _ => true

theorem cellKey_injective {api : Api κ W} (free : FreeKeccak api) : Function.Injective (cellKey api) := by
  have sep := free.separated
  intro c d h
  cases c with
  | slot n =>
      cases d with
      | slot m => rw [slotKey_injective api h]
      | balance b => exact absurd h.symm (sep.balance_slot b n)
      | allowance o p => exact absurd h.symm (sep.allowance_slot o p n)
  | balance a =>
      cases d with
      | slot m => exact absurd h (sep.balance_slot a m)
      | balance b => rw [sep.balance h]
      | allowance o p => exact absurd h.symm (sep.allowance_balance o p a)
  | allowance o p =>
      cases d with
      | slot m => exact absurd h (sep.allowance_slot o p m)
      | balance b => exact absurd h (sep.allowance_balance o p b)
      | allowance o' p' =>
          obtain ⟨rfl, rfl⟩ := free.mappingKey2_injective slotAllowance h
          rfl

end Layout

section Keys

variable {κ : Type} [DecidableEq κ] {base : Api κ (World κ)} {abi : PairAbi}

omit [DecidableEq κ] in
@[simp] theorem cellKey_asCaller (c : Callback Reaction) (api : Api κ (World κ)) :
    cellKey (asCaller c api) = cellKey api := by
  funext cell
  cases cell <;> rfl

@[simp] theorem cellKey_host (n : Nat) : cellKey (host base abi n) = cellKey base := by
  funext cell
  cases n <;> cases cell <;> rfl

end Keys

section Frame

variable {κ : Type} {base : Api κ (World κ)} {m : κ → U256}

def Unmoved {W : Type} (key : Cell → κ) (m : κ → U256) (s : State κ W) : Prop :=
  ∀ k, (∀ c, c.written = true → k ≠ key c) → s.storage k = m k

variable [DecidableEq κ] {abi : PairAbi}

theorem unmoved_set {W : Type} {key : Cell → κ} {s : State κ W} (h : Unmoved key m s) (c : Cell)
    (hc : c.written = true) (v : U256) : Unmoved key m (s.set (key c) v) := by
  intro k hk
  rw [State.set_storage_of_ne s (hk c hc)]
  exact h k hk

theorem stable_unmoved {W : Type} {api : Api κ W}
    (token : ∀ callee input s, Unmoved (cellKey api) m s →
      Unmoved (cellKey api) m (api.callEvm callee input s).2) :
    Stable api (Unmoved (cellKey api) m) (Unmoved (cellKey api) m) where
  balance _ a v h := unmoved_set h (.balance a) rfl v
  allowance _ o p v h := unmoved_set h (.allowance o p) rfl v
  supply _ v h := unmoved_set h (.slot slotTotalSupply) rfl v
  reserves _ v h := unmoved_set h (.slot slotReserves) rfl v
  token := token
  failed _ h := h
  rejected _ h := unmoved_set h (.slot slotUnlocked) rfl 1

theorem keeps_call {W : Type} (api : Api κ W) (abi : PairAbi) (m : κ → U256) (callData : Buffer)
    (token : ∀ callee input s, Unmoved (cellKey api) m s →
      Unmoved (cellKey api) m (api.callEvm callee input s).2) :
    Keeps (Unmoved (cellKey api) m) (Unmoved (cellKey api) m) (call api abi callData) := by
  have st := stable_unmoved token
  have hlock {s : State κ W} (h : Unmoved (cellKey api) m s) (v : U256) :
      Unmoved (cellKey api) m (s.set (slotKey api slotUnlocked) v) :=
    unmoved_set h (.slot slotUnlocked) rfl v
  refine .ite (keeps_revert st.failed) ?_
  cases pairFn callData with
  | none => exact keeps_revert st.failed
  | some f =>
      by_cases hi : f = .initializePair
      · subst f
        have hset (s : State κ W) (n : U32) (v : U256) (hn : n ∈ [slotToken0, slotToken1, slotUnlocked])
            (h : Unmoved (cellKey api) m s) : Unmoved (cellKey api) m (s.set (slotKey api n) v) := by
          rcases List.mem_cons.mp hn with rfl | hn
          · exact unmoved_set h (.slot slotToken0) rfl v
          · rcases List.mem_cons.mp hn with rfl | hn
            · exact unmoved_set h (.slot slotToken1) rfl v
            · obtain rfl := List.mem_singleton.mp hn
              exact hlock h v
        apply (initializePair_keeps hset).weaken (fun _ h => h) _ fun _ h => h
        rintro _ t ⟨u, hu, rfl⟩
        exact hlock hu 1
      · cases hg : f.guarded with
        | false => exact st.toUnaffected.run hg
        | true =>
            apply (st.run hg hi).weaken (fun s h => ⟨h, fun _ => hlock h 0⟩) _
              fun _ h => h
            rintro _ t ⟨u, hu, rfl⟩
            exact hlock hu 1

section Nested

variable {api : Api κ (World κ)} (token : ∀ callee input s, Unmoved (cellKey api) m s →
  Unmoved (cellKey api) m (api.callEvm callee input s).2)

include token

theorem enter_unmoved (abi : PairAbi) {s : State κ (World κ)} (h : Unmoved (cellKey api) m s)
    (c : Callback Reaction) : Unmoved (cellKey api) m (enter api abi s c) := by
  have hcall := keeps_call (asCaller c api) abi m c.callData
  simp only [cellKey_asCaller] at hcall
  let start : State κ (World κ) := { s with world := { s.world with script := c.script } }
  have hstart : Unmoved (cellKey api) m start := h
  cases hr : call (asCaller c api) abi c.callData start with
  | ok output t =>
      have ht := (hcall token).of_ok hstart hr
      simp only [start] at hr
      simp only [enter, frame, hr]
      exact ht
  | error e t =>
      simp only [start] at hr
      simp only [enter, frame, hr]
      exact h

theorem callbacks_unmoved (abi : PairAbi) (calls : List (Callback Reaction)) {s : State κ (World κ)}
    (h : Unmoved (cellKey api) m s) : Unmoved (cellKey api) m (calls.foldl (enter api abi) s) := by
  induction calls generalizing s with
  | nil => exact h
  | cons c calls ih => exact ih (enter_unmoved token abi h c)

theorem react_unmoved (abi : PairAbi) {s : State κ (World κ)} (h : Unmoved (cellKey api) m s) :
    Unmoved (cellKey api) m (react api abi s).2 := by
  unfold react
  split
  · exact h
  · rename_i calls reply rest hs
    have hplayed := callbacks_unmoved token abi calls
      (s := { s with world := { s.world with script := rest } }) h
    dsimp only
    split
    · exact hplayed
    · exact h

end Nested

theorem token_unmoved (abi : PairAbi) (n : Nat) (callee : Address) (input : Buffer) (s : State κ (World κ))
    (h : Unmoved (cellKey base) m s) :
    Unmoved (cellKey base) m ((host base abi n).callEvm callee input s).2 := by
  induction n generalizing callee input s with
  | zero => exact h
  | succ n ih =>
      have hkey : cellKey (host base abi n) = cellKey base := cellKey_host ..
      have hr : Unmoved (cellKey (host base abi n)) m (react (host base abi n) abi s).2 :=
        react_unmoved (fun callee input u hu => hkey ▸ ih callee input u (hkey ▸ hu)) abi (hkey ▸ h)
      rwa [hkey] at hr

/-- The pair writes nothing but five of its slots, LP balances and allowances:
whatever the outside calls and the tokens' calls back, every other key of its
storage keeps what it held. -/
theorem only_cells_written (base : Api κ (World κ)) (abi : PairAbi) (n : Nat)
    (calls : List (Callback Reaction)) (s : State κ (World κ)) (k : κ)
    (hk : ∀ c, c.written = true → k ≠ cellKey base c) :
    (calls.foldl (enter (host base abi n) abi) s).storage k = s.storage k := by
  have hkey : cellKey (host base abi n) = cellKey base := cellKey_host ..
  have h : Unmoved (cellKey (host base abi n)) s.storage (calls.foldl (enter (host base abi n) abi) s) :=
    callbacks_unmoved (fun callee input u hu => hkey ▸ token_unmoved abi n callee input u (hkey ▸ hu)) abi
      calls fun _ _ => rfl
  rw [hkey] at h
  exact h k hk

theorem only_cells_written_sample :
    let calls : List (Callback Reaction) := [callback (initializeData 1 2), callback (mintData 3)]
    let s : State Key (World Key) := deployed (scriptedApi 5 9) 7 { script := [], log := [] }
    (calls.foldl (enter (host (scriptedApi 5 9) standardAbi 2) standardAbi) s).storage
      (slotKey (scriptedApi 5 9) slotFactory) = s.storage (slotKey (scriptedApi 5 9) slotFactory) := by
  intro calls s
  refine only_cells_written (scriptedApi 5 9) standardAbi 2 calls s _ fun c hc hk => ?_
  cases c with
  | slot n =>
      obtain rfl := slotKey_injective (scriptedApi 5 9) hk
      exact absurd hc (by decide)
  | balance a => exact Key.noConfusion hk
  | allowance o p => exact Key.noConfusion hk

end Frame

end RiscVContracts.Cells
