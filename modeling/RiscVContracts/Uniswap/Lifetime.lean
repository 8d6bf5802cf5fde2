import RiscVContracts.Uniswap.Cells

namespace RiscVContracts.Lifetime

open Programs Bytes Host Storage Pair PairView PairSpec PairSlots Symbolic Calldata Tokens Runs Reentrancy
  Cells

variable {κ : Type} [DecidableEq κ]

section Calls

variable {base : Api κ (World κ)} {abi : PairAbi}

theorem enter_cases (api : Api κ (World κ)) (abi : PairAbi) (s : State κ (World κ)) (c : Callback Reaction) :
    (∃ f u, Executed (asCaller c api) abi c.callData
        { s with world := { s.world with script := c.script } } u f ∧
      (enter api abi s c).storage = u.storage) ∨ (enter api abi s c).storage = s.storage := by
  cases hc : call (asCaller c api) abi c.callData { s with world := { s.world with script := c.script } } with
  | ok output u =>
      obtain ⟨f, -, hx⟩ := executed_of_call hc
      exact .inl ⟨f, u, hx, by simp only [enter, frame, hc]⟩
  | error e u => exact .inr (by simp only [enter, frame, hc])

def moving : List U32 := [slotToken0, slotToken1, slotReserves, slotTotalSupply]

theorem slots_executed {W : Type} {api : Api κ W} {callData : Buffer} {s t : State κ W} {f : PairFn}
    (sep : Separated api) (keeps : KeepsSlots api) (h : Executed api abi callData s t f) {n : U32}
    (hn : n ∉ moving) : slots api t n = slots api s n := by
  obtain ⟨h0, h1, hr, hts⟩ : n ≠ slotToken0 ∧ n ≠ slotToken1 ∧ n ≠ slotReserves ∧ n ≠ slotTotalSupply := by
    simpa [moving] using hn
  by_cases hi : f = .initializePair
  · subst f
    cases h with
    | view hv => exact absurd hv (by decide)
    | initializePair hp =>
        obtain ⟨decoded, -, -, -, hsl⟩ := initializePair_slots hp
        rw [hsl, Function.update_of_ne h1, Function.update_of_ne h0]
  · exact slots_of_executed sep keeps h hi hr hts

/-- A call by an outside account, with all the calls back it leads to, leaves every other slot alone. -/
theorem enter_slots (sep : Separated base) (abi : PairAbi) (d : Nat) (c : Callback Reaction) {n : U32}
    (hn : n ∉ moving) (s : State κ (World κ)) :
    slots base (enter (host base abi d) abi s c) n = slots base s n := by
  have hslots (u : State κ (World κ)) : slots (asCaller c (host base abi d)) u = slots base u :=
    congrFun (slots_host d) u
  obtain ⟨f, u, hx, hu⟩ | hs := enter_cases (host base abi d) abi s c
  · have hsep : Separated (asCaller c (host base abi d)) := separated_asCaller (separated_host sep d) c
    have hhost : KeepsSlots (host base abi d) := host_keepsSlots sep d
    have hkeeps : KeepsSlots (asCaller c (host base abi d)) := hhost
    have h := slots_executed hsep hkeeps hx hn
    rw [hslots, hslots] at h
    rw [slots, hu]
    exact h
  · rw [slots, hs, slots]

/-- What a deployed pair holds in every slot that no call changes for good. -/
def Standing (base : Api κ (World κ)) (f : Address) (s : State κ (World κ)) : Prop :=
  ∀ n, n ∉ moving → slots base s n = slots base (deployed base f s.world) n

theorem standing_states (sep : Separated base) (abi : PairAbi) (d : Nat) (f : Address) (w : World κ)
    (calls : List (Callback Reaction)) :
    ∀ t ∈ states (fun c s => enter (host base abi d) abi s c) calls (deployed base f w),
      Standing base f t := by
  refine invariant_states (C := fun _ _ => True) ?_ calls (fun n _ => ?_) (steps_true ..)
  · intro c s _ hs n hn
    rw [enter_slots sep abi d c hn, hs n hn, slots_deployed, slots_deployed]
  · rw [slots_deployed, slots_deployed]

end Calls

section Views

variable {W : Type} {api : Api κ W} {abi : PairAbi} {callData : Buffer} {s : State κ W}

/-- The slots kept for the price oracle and the protocol fee, by their view. -/
def dormantSlot : PairFn → Option U32
  | .price0CumulativeLast => some slotPrice0Cumulative
  | .price1CumulativeLast => some slotPrice1Cumulative
  | .kLast => some slotKLast
  | _ => none

theorem call_dormant {f : PairFn} {n : U32} (hf : pairFn callData = some f) (hn : dormantSlot f = some n) :
    call api abi callData s = .ok (toBeBytes (slots api s n)) s := by
  rw [call_eq_run hf]
  cases f with
  | price0CumulativeLast | price1CumulativeLast | kLast =>
      obtain rfl := Option.some.inj hn
      rfl
  | _ => cases hn

theorem dormantSlot_standing {f : PairFn} {n : U32} (hn : dormantSlot f = some n) :
    n ∉ moving ∧ n ≠ slotFactory ∧ n ≠ slotUnlocked := by
  cases f with
  | price0CumulativeLast | price1CumulativeLast | kLast =>
      obtain rfl := Option.some.inj hn
      decide
  | _ => cases hn

theorem call_factory (hf : pairFn callData = some .factory) :
    call api abi callData s = .ok (toBeBytes (padAddress (lowAddress (slots api s slotFactory)))) s := by
  rw [call_eq_run hf]
  rfl

end Views

/-- Whatever is called on a deployed pair, and whatever its tokens call back,
the lock is open between outside calls, the pair reports its deployer as its
factory, and the price accumulators and the fee checkpoint report zero. -/
theorem standing_slots {base : Api κ (World κ)} (sep : Separated base) (abi : PairAbi) (d : Nat) (f : Address)
    (w : World κ) (calls : List (Callback Reaction)) :
    ∀ t ∈ states (fun c s => enter (host base abi d) abi s c) calls (deployed base f w),
      slots base t slotUnlocked = 1 ∧
      (∀ callData, pairFn callData = some .factory →
        value (call base abi callData t) = some (toBeBytes (padAddress f))) ∧
      ∀ callData g n, pairFn callData = some g → dormantSlot g = some n →
        value (call base abi callData t) = some (toBeBytes 0) := by
  intro t ht
  have hst := standing_states sep abi d f w calls t ht
  simp only [Standing, slots_deployed] at hst
  refine ⟨?_, fun callData hf => ?_, fun callData g n hf hn => ?_⟩
  · rw [hst slotUnlocked (by decide), Function.update_self]
  · rw [call_factory hf, hst slotFactory (by decide), Function.update_of_ne (by decide), Function.update_self,
      lowAddress_padAddress]
    rfl
  · obtain ⟨hm, hne, hu⟩ := dormantSlot_standing hn
    rw [call_dormant hf hn, hst n hm, Function.update_of_ne hu, Function.update_of_ne hne]
    rfl

theorem standing_slots_sample :
    let base := scriptedApi 5 9
    let w : World Key := { script := [], log := [] }
    let start := deployed base 7 w
    let calls := [callback (initializeData 1 2), callback PairFn.sync.selector, callback (mintData 3)]
    let t := calls.foldl (fun s c => enter (host base standardAbi 2) standardAbi s c) start
    slots base t slotUnlocked = 1 ∧
      value (call base standardAbi PairFn.kLast.selector t) = some (toBeBytes 0) := by
  intro base w start calls t
  have sep : Separated base := (freeKeccak_key rfl rfl).separated
  have h := standing_slots sep standardAbi 2 7 w calls t (foldl_mem_states ..)
  exact ⟨h.1, h.2.2 PairFn.kLast.selector .kLast slotKLast (by decide +kernel) rfl⟩

end RiscVContracts.Lifetime
