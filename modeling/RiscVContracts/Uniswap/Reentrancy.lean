import RiscVContracts.Uniswap.PairInvariants
import RiscVContracts.Uniswap.Runs

namespace RiscVContracts.Reentrancy

open Programs Bytes Host Storage Pair PairView PairSpec PairSlots PairInvariants Calldata Symbolic Tokens
  Runs

section Host

/-- A call back into the pair, with the reactions to the calls it makes in turn. -/
structure Callback (R : Type) where
  caller : Address
  now : Vector UInt8 32
  callData : Buffer
  script : List R

/-- What a token does when it is called: it calls the pair back any number of
times, then answers or fails. -/
inductive Reaction
  | mk (calls : List (Callback Reaction)) (reply : Option Buffer)

inductive Event (κ : Type)
  | external (before after : κ → U256)
  | nested (f : Option PairFn) (outcome : Option Halt)

/-- The reactions still to come, and a log that no rollback erases. -/
structure World (κ : Type) where
  script : List Reaction
  log : List (Event κ)

variable {κ : Type} [DecidableEq κ]

def asCaller (c : Callback Reaction) (api : Api κ (World κ)) : Api κ (World κ) :=
  { api with caller := c.caller, now := c.now }

def frame (api : Api κ (World κ)) (abi : PairAbi) (callData : Buffer) (s : State κ (World κ)) :
    Option Halt × State κ (World κ) :=
  match call api abi callData s with
  | .ok _ t => (none, t)
  | .error e t => (some e, { t with storage := s.storage })

def enter (api : Api κ (World κ)) (abi : PairAbi) (s : State κ (World κ)) (c : Callback Reaction) :
    State κ (World κ) :=
  let r := frame (asCaller c api) abi c.callData { s with world := { s.world with script := c.script } }
  { storage := r.2.storage
    world :=
      { script := s.world.script
        log := .nested (pairFn c.callData) r.1 :: r.2.world.log } }

/-- A call of a token, which runs the next reaction of the script; a failing
token undoes what its calls back have written. -/
def react (api : Api κ (World κ)) (abi : PairAbi) (s : State κ (World κ)) :
    Option Buffer × State κ (World κ) :=
  match s.world.script with
  | [] => (none, { s with world := { s.world with log := .external s.storage s.storage :: s.world.log } })
  | .mk calls reply :: rest =>
    let t := calls.foldl (enter api abi) { s with world := { s.world with script := rest } }
    let storage := if reply.isSome then t.storage else s.storage
    (reply, {
      storage := storage
      world := { script := rest, log := .external s.storage storage :: t.world.log } })

def host (base : Api κ (World κ)) (abi : PairAbi) : Nat → Api κ (World κ)
  | 0 => { base with callEvm := fun _ _ s => (none, s) }
  | n + 1 => { base with callEvm := fun _ _ s => react (host base abi n) abi s }

end Host

section Lock

variable {κ : Type} [DecidableEq κ] {base : Api κ (World κ)} {abi : PairAbi} {s t : State κ (World κ)}

def frozen : List U32 := [slotReserves, slotTotalSupply, slotToken0, slotToken1, slotFactory]

/-- An external call left the frozen cells alone; a nested call of a guarded
function reverted. -/
def Sound (base : Api κ (World κ)) : Event κ → Prop
  | .external before after => ∀ n ∈ frozen, before (slotKey base n) = after (slotKey base n)
  | .nested f outcome => ∀ g, f = some g → g.guarded = true → outcome = some .revert

def Quiet (base : Api κ (World κ)) (s : State κ (World κ)) : Prop := ∀ e ∈ s.world.log, Sound base e

omit [DecidableEq κ] in
theorem quiet_cons {e : Event κ} {script : List Reaction} {log : List (Event κ)} {storage : κ → U256}
    (he : Sound base e) (h : ∀ e ∈ log, Sound base e) :
    Quiet base { storage := storage, world := { script := script, log := e :: log } } := by
  intro e' he'
  rcases List.mem_cons.mp he' with rfl | he'
  · exact he
  · exact h e' he'

@[simp] theorem slots_host (n : Nat) : slots (host base abi n) = slots base := by cases n <;> rfl

@[simp] theorem slotKey_host (n : Nat) : slotKey (host base abi n) = slotKey base := by cases n <;> rfl

theorem separated_host (sep : Separated base) (n : Nat) : Separated (host base abi n) := by
  cases n <;> exact ⟨sep.balance, sep.balance_slot, sep.allowance_slot, sep.allowance_balance⟩

omit [DecidableEq κ] in
theorem separated_asCaller {api : Api κ (World κ)} (sep : Separated api) (c : Callback Reaction) :
    Separated (asCaller c api) :=
  ⟨sep.balance, sep.balance_slot, sep.allowance_slot, sep.allowance_balance⟩

variable {api : Api κ (World κ)} {callData : Buffer}

theorem call_guarded {f : PairFn} (hf : pairFn callData = some f) (hg : f.guarded = true)
    (hs : slots api s slotUnlocked ≠ 1) : call api abi callData s = .error .revert s := by
  have hlock {β : Type} (g : Unit → Program κ (World κ) β) :
      (requireUnlocked api >>= g) s = .error .revert s := bind_of_error (requireUnlocked_error hs)
  rw [call_eq_run hf]
  cases f with
  | initializePair | mint | burn | swap | skim | sync => exact bind_of_error (hlock _)
  | factory | token0 | token1 | getReserves | totalSupply | balanceOf | allowance
  | minimumLiquidity | price0CumulativeLast | price1CumulativeLast | kLast
  | approve | transfer | transferFrom => exact absurd hg (by decide)

theorem call_unguarded (abi : PairAbi) (sep : Separated api)
    (hf : ∀ f, pairFn callData = some f → f.guarded = false) :
    Triple (fun t => slots api t = slots api s ∧ t.world = s.world) (call api abi callData)
      (fun _ t => slots api t = slots api s ∧ t.world = s.world) (fun t => t.world = s.world) := by
  have un : Unaffected api (fun t => slots api t = slots api s ∧ t.world = s.world)
      (fun t => t.world = s.world) :=
    { balance := fun t a v h => ⟨(slots_set_balance sep t a v).trans h.1, h.2⟩
      allowance := fun t o p v h => ⟨(slots_set_allowance sep t o p v).trans h.1, h.2⟩
      failed := fun t h => h.2 }
  refine .ite (fun _ => keeps_revert un.failed) fun _ => ?_
  cases h : pairFn callData with
  | none => exact keeps_revert un.failed
  | some f => exact un.run (hf f h)

theorem frame_unguarded (abi : PairAbi) (sep : Separated api)
    (hf : ∀ f, pairFn callData = some f → f.guarded = false) :
    slots api (frame api abi callData s).2 = slots api s ∧
      (frame api abi callData s).2.world = s.world := by
  have h := call_unguarded abi sep hf s ⟨rfl, rfl⟩
  unfold frame
  cases hr : call api abi callData s with
  | ok out t =>
      rw [hr] at h
      exact h
  | error e t =>
      rw [hr] at h
      exact ⟨rfl, h⟩

/-- A nested call of the locked pair leaves its fixed slots alone, and reverts
when it is guarded. -/
theorem enter_locked (abi : PairAbi) (sep : Separated api) (c : Callback Reaction)
    (hs : slots api s slotUnlocked ≠ 1) :
    slots api (enter api abi s c) = slots api s ∧ (Quiet api s → Quiet api (enter api abi s c)) := by
  let start : State κ (World κ) := { s with world := { s.world with script := c.script } }
  by_cases hg : ∃ f, pairFn c.callData = some f ∧ f.guarded = true
  · obtain ⟨f, hf, hg⟩ := hg
    have hcall : call (asCaller c api) abi c.callData start = .error .revert start :=
      call_guarded hf hg hs
    have hframe : frame (asCaller c api) abi c.callData start = (some .revert, start) := by
      rw [frame, hcall]
    have henter : enter api abi s c =
        { storage := s.storage
          world :=
            { script := s.world.script
              log := .nested (pairFn c.callData) (some .revert) :: s.world.log } } := by
      simp only [start] at hframe
      simp only [enter, hframe]
    rw [henter]
    exact ⟨rfl, quiet_cons fun _ _ _ => rfl⟩
  · have hf : ∀ f, pairFn c.callData = some f → f.guarded = false := by
      intro f hf
      by_contra h
      exact hg ⟨f, hf, by simpa using h⟩
    obtain ⟨hslots, hworld⟩ := frame_unguarded (s := start) abi (separated_asCaller sep c) hf
    refine ⟨hslots, fun hq => quiet_cons (fun g hfg hg' => ?_) ?_⟩
    · exact absurd hg' (by simp [hf g hfg])
    · rw [hworld]
      exact hq

theorem callbacks_locked (abi : PairAbi) (sep : Separated api) (calls : List (Callback Reaction))
    (hs : slots api s slotUnlocked ≠ 1) :
    slots api (calls.foldl (enter api abi) s) = slots api s ∧
      (Quiet api s → Quiet api (calls.foldl (enter api abi) s)) := by
  induction calls generalizing s with
  | nil => exact ⟨rfl, id⟩
  | cons c calls ih =>
      obtain ⟨hslots, hq⟩ := enter_locked abi sep c hs
      obtain ⟨h, hq'⟩ := ih (hslots ▸ hs)
      exact ⟨h.trans hslots, hq' ∘ hq⟩

theorem react_locked (abi : PairAbi) (sep : Separated api) (hs : slots api s slotUnlocked ≠ 1) :
    slots api (react api abi s).2 = slots api s ∧ (Quiet api s → Quiet api (react api abi s).2) := by
  unfold react
  split
  · exact ⟨rfl, quiet_cons fun _ _ => rfl⟩
  · rename_i calls reply rest h
    let start : State κ (World κ) := { s with world := { s.world with script := rest } }
    obtain ⟨hslots, hq⟩ := callbacks_locked (s := start) abi sep calls hs
    dsimp only
    split
    · exact ⟨hslots, fun h => quiet_cons (fun n _ => (congrFun hslots n).symm) (hq h)⟩
    · exact ⟨rfl, fun h => quiet_cons (fun _ _ => rfl) (hq h)⟩

theorem quiet_host (n : Nat) : Quiet (host base abi n) = Quiet base := by cases n <;> rfl

theorem token_locked (abi : PairAbi) (sep : Separated base) (n : Nat) (callee : Address) (input : Buffer)
    (hs : slots base s slotUnlocked ≠ 1) :
    slots base ((host base abi n).callEvm callee input s).2 = slots base s ∧
      (Quiet base s → Quiet base ((host base abi n).callEvm callee input s).2) := by
  cases n with
  | zero => exact ⟨rfl, id⟩
  | succ n =>
      have hs' : slots (host base abi n) s slotUnlocked ≠ 1 := by rwa [slots_host]
      have h := react_locked abi (separated_host sep n) hs'
      rw [slots_host, quiet_host] at h
      exact h

theorem host_keepsSlots (sep : Separated base) (n : Nat) : KeepsSlots (host base abi n) := by
  intro callee input s hs
  rw [slots_host] at hs ⊢
  exact (token_locked abi sep n callee input hs).1

def LockedQuiet (base : Api κ (World κ)) (s : State κ (World κ)) : Prop :=
  slots base s slotUnlocked ≠ 1 ∧ Quiet base s

theorem lockedQuiet_set {key : κ} {v : U256} (h : LockedQuiet base s)
    (hs : slots base (s.set key v) slotUnlocked = slots base s slotUnlocked) :
    LockedQuiet base (s.set key v) := ⟨hs ▸ h.1, h.2⟩

theorem stable_host (abi : PairAbi) (sep : Separated base) (n : Nat) :
    Stable (host base abi n) (LockedQuiet base) (Quiet base) where
  balance s a v h := by
    have hk : mappingKey1 (host base abi n) slotBalanceOf a = mappingKey1 base slotBalanceOf a := by
      cases n <;> rfl
    rw [hk]
    exact lockedQuiet_set h (congrFun (slots_set_balance sep s a v) _)
  allowance s o p v h := by
    have hk : mappingKey2 (host base abi n) slotAllowance o p = mappingKey2 base slotAllowance o p := by
      cases n <;> rfl
    rw [hk]
    exact lockedQuiet_set h (congrFun (slots_set_allowance sep s o p v) _)
  supply s v h := by
    rw [slotKey_host]
    exact lockedQuiet_set h (by rw [slots_set_slot, Function.update_of_ne (by decide)])
  reserves s v h := by
    rw [slotKey_host]
    exact lockedQuiet_set h (by rw [slots_set_slot, Function.update_of_ne (by decide)])
  token callee input s h := by
    obtain ⟨hslots, hq⟩ := token_locked abi sep n callee input h.1
    exact ⟨hslots ▸ h.1, hq h.2⟩
  failed s h := h.2
  rejected s h := h.2

theorem unlocked_host (n : Nat) (u : State κ (World κ)) :
    slots base (unlocked (host base abi n) u) slotUnlocked = 1 := by
  rw [unlocked, slotKey_host, slots_set_slot, Function.update_self]

theorem locked_host (n : Nat) (hq : Quiet base s) : LockedQuiet base (locked (host base abi n) s) := by
  refine ⟨?_, hq⟩
  rw [locked, slotKey_host, slots_set_slot, Function.update_self]
  decide

theorem run_guarded (sep : Separated base) (abi : PairAbi) (n : Nat) (callData : Buffer) {f : PairFn}
    (hg : f.guarded = true) : Triple (Quiet base) (run (host base abi n) abi callData f)
      (fun _ t => slots base t slotUnlocked = 1 ∧ Quiet base t) (Quiet base) := by
  by_cases hi : f = .initializePair
  · subst f
    apply (initializePair_keeps fun _ _ _ _ h => h).weaken (fun _ h => h) _ fun _ h => h
    rintro _ t ⟨u, hu, rfl⟩
    exact ⟨unlocked_host n u, hu⟩
  · apply ((stable_host abi sep n).run hg hi).weaken (fun s hq => ⟨hq, fun _ => locked_host n hq⟩) _
      fun _ h => h
    rintro _ t ⟨u, hu, rfl⟩
    exact ⟨unlocked_host n u, hu.2⟩

/-- A guarded call on the unlocked pair, whatever its tokens do and however
deep they call back: every nested guarded call reverts, the frozen cells stand
still during each external call, and the pair is unlocked in the end. -/
theorem reentrancy_locked (sep : Separated base) (abi : PairAbi) (n : Nat) {callData : Buffer}
    {f : PairFn} (hf : pairFn callData = some f) (hg : f.guarded = true)
    (s : State κ (World κ)) (hs : slots base s slotUnlocked = 1) (hlog : s.world.log = []) :
    (∀ e ∈ (frame (host base abi n) abi callData s).2.world.log, Sound base e) ∧
      slots base (frame (host base abi n) abi callData s).2 slotUnlocked = 1 := by
  have hq : Quiet base s := by simp [Quiet, hlog]
  have h := run_guarded sep abi n callData hg
  rw [frame, call_eq_run hf]
  cases hr : run (host base abi n) abi callData f s with
  | ok out t =>
      obtain ⟨hu, ht⟩ := h.of_ok hq hr
      exact ⟨ht, hu⟩
  | error e t =>
      have ht := h.of_error hq hr
      exact ⟨ht, hs⟩

end Lock

def scriptedApi (caller address : Address) : Api Key (World Key) where
  word := .word
  word_injective _ _ h := Key.word.inj h
  hashKeccak256 := .hash
  caller := caller
  address := address
  now := Vector.replicate 32 0
  callEvm _ _ s := (none, s)

def callback (callData : Buffer) : Callback Reaction where
  caller := 3
  now := Vector.replicate 32 0
  callData := callData
  script := [.mk [] (some (toBeBytes 1))]

theorem reentrancy_locked_sample :
    let s : State Key (World Key) :=
      { storage := Function.update (fun _ => 0) (.word 7) 1
        world :=
          { script :=
              [.mk [callback (mintData 3), callback (encodeCall PairFn.approve.selector [4, 5])]
                  (some (toBeBytes 100)),
                .mk [] (some (toBeBytes 200))]
            log := [] } }
    let t := (frame (host (scriptedApi 5 9) standardAbi 2) standardAbi PairFn.sync.selector s).2
    t.world.log.length = 4 ∧ (∀ e ∈ t.world.log, Sound (scriptedApi 5 9) e) ∧
      slots (scriptedApi 5 9) t slotUnlocked = 1 := by
  intro s t
  refine ⟨by decide +kernel, ?_⟩
  exact reentrancy_locked (freeKeccak_key rfl rfl).separated standardAbi 2 (f := .sync)
    (by decide +kernel) rfl s (by decide +kernel) rfl

end RiscVContracts.Reentrancy
