import RiscVContracts.Uniswap.Reentrancy

namespace RiscVContracts.TokenSetup

open Programs Bytes Host Storage Pair PairView PairSpec PairSlots Calldata Symbolic Tokens Runs Reentrancy

variable {κ W : Type} [DecidableEq κ] {api : Api κ W} {abi : PairAbi} {s t : State κ W}

def tokens (api : Api κ W) (s : State κ W) : Address × Address := (token0 api s, token1 api s)

/-- The call initializes the pair and none of the checks stops it. -/
def Initializes (api : Api κ W) (abi : PairAbi) (tx : Tx W) (s : State κ W) (decoded : InitializeArgs) :
    Prop :=
  pairFn tx.callData = some .initializePair ∧ slots api s slotUnlocked = 1 ∧
    slots api s slotToken0 = 0 ∧ abi.initializeCall tx.callData = some decoded

def Changes (api : Api κ W) (abi : PairAbi) (tx : Tx W) (s : State κ W) : Prop :=
  tokens api (step api abi tx s) ≠ tokens api s

instance (tx : Tx W) (s : State κ W) : Decidable (Changes api abi tx s) :=
  inferInstanceAs (Decidable (_ ≠ _))

section Step

variable (keeps : KeepsSlots api) (sep : Separated api)

omit [DecidableEq κ] in
theorem tokens_of_slots (h0 : slots api t slotToken0 = slots api s slotToken0)
    (h1 : slots api t slotToken1 = slots api s slotToken1) : tokens api t = tokens api s := by
  rw [tokens, token0, token1, h0, h1]
  rfl

theorem tokens_of_initializes {tx : Tx W} {decoded : InitializeArgs}
    (h : Initializes api abi tx s decoded) :
    tokens api (step api abi tx s) = (decoded.token0, decoded.token1) := by
  obtain ⟨hf, hu, h0, hd⟩ := h
  obtain ⟨t, ht⟩ : ∃ t, initializePair (tx.api api) abi tx.callData (tx.before s) = .ok () t :=
    ⟨_, initializePair_ok.mpr ⟨hu, decoded, hd, by rwa [slots_locked_of_ne _ (by decide)], rfl⟩⟩
  have hrun : call (tx.api api) abi tx.callData (tx.before s) = .ok [] t :=
    call_ok.mpr ⟨length_of_pairFn hf, .initializePair, hf, bind_pure_ok.mpr ⟨(), ht, rfl⟩⟩
  obtain ⟨decoded', hd', -, -, hsl⟩ := initializePair_slots ht
  obtain rfl : decoded' = decoded := Option.some.inj (hd'.symm.trans hd)
  rw [slots_api] at hsl
  rw [step, rollback_ok.mpr hrun, final_ok, tokens, token0, token1, hsl, Function.update_self,
    Function.update_of_ne (by decide), Function.update_self, lowAddress_padAddress,
    lowAddress_padAddress]

include keeps sep

theorem tokens_of_not_initializes {tx : Tx W} (h : ∀ decoded, ¬ Initializes api abi tx s decoded) :
    tokens api (step api abi tx s) = tokens api s := by
  obtain ⟨f, hf, hx⟩ | hx := step_cases api abi tx s
  · have hne : f ≠ .initializePair := by
      rintro rfl
      cases hx with
      | view hv _ => exact absurd hv (by decide)
      | initializePair hi =>
          obtain ⟨decoded, hd, hu, h0, -⟩ := initializePair_slots hi
          exact h decoded ⟨hf, hu, h0, hd⟩
    have keeps' : KeepsSlots (tx.api api) := keeps
    have hslots {n : U32} (hr : n ≠ slotReserves) (hts : n ≠ slotTotalSupply) :
        slots api (step api abi tx s) n = slots api s n :=
      slots_of_executed (separated_api sep tx) keeps' hx hne hr hts
    exact tokens_of_slots (hslots (by decide) (by decide)) (hslots (by decide) (by decide))
  · rw [hx]
    rfl

end Step

section Run

variable (keeps : KeepsSlots api) (sep : Separated api)

/-- A call that initializes writes what is there already, or comes from `f`
while the second token is still open. -/
def Orderly (api : Api κ W) (abi : PairAbi) (f : Address) (tx : Tx W) (s : State κ W) : Prop :=
  ∀ decoded, Initializes api abi tx s decoded →
    (decoded.token0, decoded.token1) = tokens api s ∨ (tx.caller = f ∧ token1 api s = 0)

include keeps sep

theorem changes_iff {tx : Tx W} : Changes api abi tx s ↔
    ∃ decoded, Initializes api abi tx s decoded ∧ (decoded.token0, decoded.token1) ≠ tokens api s := by
  constructor
  · intro h
    by_contra hno
    push Not at hno
    by_cases hi : ∃ decoded, Initializes api abi tx s decoded
    · obtain ⟨decoded, hi⟩ := hi
      exact h ((tokens_of_initializes hi).trans (hno decoded hi))
    · push Not at hi
      exact h (tokens_of_not_initializes keeps sep hi)
  · rintro ⟨decoded, hi, hne⟩
    rw [Changes, tokens_of_initializes hi]
    exact hne

omit [DecidableEq κ] keeps sep in
theorem Initializes.token0_eq_zero {tx : Tx W} {decoded : InitializeArgs}
    (h : Initializes api abi tx s decoded) : token0 api s = 0 := by
  rw [token0, h.2.2.1]
  rfl

theorem orderly_iff_of_set {f : Address} {tx : Tx W} (hset : tokens api s ≠ 0) :
    Orderly api abi f tx s ↔ ¬ Changes api abi tx s := by
  rw [changes_iff keeps sep]
  push Not
  refine forall_congr' fun decoded => forall_congr' fun hi => ?_
  constructor
  · rintro (h | ⟨-, h1⟩)
    · exact h
    · exact absurd (Prod.ext hi.token0_eq_zero h1) hset
  · exact .inl

theorem orderly_iff_of_open {f : Address} {tx : Tx W} (hopen : tokens api s = 0) :
    Orderly api abi f tx s ↔ (Changes api abi tx s → tx.caller = f) := by
  have h1 : token1 api s = 0 := congrArg Prod.snd hopen
  rw [changes_iff keeps sep]
  constructor
  · rintro h ⟨decoded, hi, hne⟩
    obtain h | h := h decoded hi
    · exact absurd h hne
    · exact h.1
  · intro h decoded hi
    by_cases hne : (decoded.token0, decoded.token1) = tokens api s
    · exact .inl hne
    · exact .inr ⟨h ⟨decoded, hi, hne⟩, h1⟩

theorem changing_of_set {f : Address} (txs : List (Tx W)) (hset : tokens api s ≠ 0) :
    Steps (step api abi) (Orderly api abi f) txs s ↔
      select (step api abi) (Changes api abi) txs s = [] := by
  induction txs generalizing s with
  | nil => exact ⟨fun _ => rfl, fun _ => trivial⟩
  | cons tx txs ih =>
      rw [Steps, orderly_iff_of_set keeps sep hset, select]
      by_cases hc : Changes api abi tx s
      · simp [hc]
      · have hset' : tokens api (step api abi tx s) ≠ 0 := (not_not.mp hc) ▸ hset
        rw [if_neg hc, ← ih hset']
        exact and_iff_right hc

theorem changing_of_open {f : Address} (txs : List (Tx W)) (hopen : tokens api s = 0) :
    Steps (step api abi) (Orderly api abi f) txs s ↔
      (∀ tx ∈ select (step api abi) (Changes api abi) txs s, tx.caller = f) ∧
        (select (step api abi) (Changes api abi) txs s).length ≤ 1 := by
  induction txs generalizing s with
  | nil => simp [Steps, select]
  | cons tx txs ih =>
      rw [Steps, orderly_iff_of_open keeps sep hopen, select]
      by_cases hc : Changes api abi tx s
      · have hset : tokens api (step api abi tx s) ≠ 0 := hopen ▸ hc
        rw [if_pos hc, changing_of_set keeps sep txs hset]
        constructor
        · rintro ⟨hf, hnil⟩
          simp [hnil, hf hc]
        · rintro ⟨hf, hlen⟩
          refine ⟨fun _ => hf tx (List.mem_cons_self ..), ?_⟩
          simpa using hlen
      · have hopen' : tokens api (step api abi tx s) = 0 := (not_not.mp hc).trans hopen
        rw [if_neg hc, ← ih hopen']
        exact and_iff_right fun h => absurd h hc

theorem factory_step (tx : Tx W) (s : State κ W) :
    slots api (step api abi tx s) slotFactory = slots api s slotFactory := by
  obtain ⟨f, -, hx⟩ | hx := step_cases api abi tx s
  · by_cases hf : f = .initializePair
    · subst f
      cases hx with
      | view hv _ => exact absurd hv (by decide)
      | initializePair hi =>
          obtain ⟨decoded, -, -, -, hsl⟩ := initializePair_slots hi
          rw [← slots_api tx, hsl, Function.update_of_ne (by decide), Function.update_of_ne (by decide)]
          rfl
    · have keeps' : KeepsSlots (tx.api api) := keeps
      exact slots_of_executed (separated_api sep tx) keeps' hx hf (by decide) (by decide)
  · rw [hx]
    rfl

end Run

section Deployment

variable {base : Api κ (World κ)} (sep : Separated base)

theorem tokens_deployed (api : Api κ W) (f : Address) (world : W) :
    tokens api (deployed api f world) = 0 := by
  rw [tokens, token0, token1, slots_deployed, Function.update_of_ne (by decide),
    Function.update_of_ne (by decide), Function.update_of_ne (by decide),
    Function.update_of_ne (by decide)]
  rfl

theorem factory_deployed (api : Api κ W) (f : Address) (world : W) :
    slots api (deployed api f world) slotFactory = padAddress f := by
  rw [slots_deployed, Function.update_of_ne (by decide), Function.update_self]

include sep

/-- The stored factory is the deployer `f` throughout. Only `f` changes the
tokens, and at most one call does, exactly in the runs whose initializing calls
are orderly, whatever the tokens call back. -/
theorem tokens_set_once_iff (abi : PairAbi) (n : Nat) (f : Address) (world : World κ)
    (txs : List (Tx (World κ))) :
    let api := host base abi n
    let start := deployed api f world
    (∀ s ∈ states (step api abi) txs start, lowAddress (slots api s slotFactory) = f) ∧
      ((∀ tx ∈ select (step api abi) (Changes api abi) txs start, tx.caller = f) ∧
          (select (step api abi) (Changes api abi) txs start).length ≤ 1 ↔
        Steps (step api abi) (Orderly api abi f) txs start) := by
  intro api start
  have keeps : KeepsSlots api := host_keepsSlots sep n
  have sep' : Separated api := separated_host sep n
  refine ⟨?_, (changing_of_open keeps sep' txs (tokens_deployed api f world)).symm⟩
  intro s hs
  have hinv := invariant_states (C := fun _ _ => True)
    (I := fun s => slots api s slotFactory = padAddress f)
    (fun tx s _ h => (factory_step keeps sep' tx s).trans h) txs (factory_deployed api f world)
    (steps_true ..) s hs
  rw [hinv, lowAddress_padAddress]

end Deployment

def initializeTx (caller token0 token1 : Address) : Tx (World Key) where
  caller := caller
  now := Vector.replicate 32 0
  callData := initializeData token0 token1
  outside := id

/-- The pair is deployed by 7 and set up by 3; or set up twice by 7 with a zero first token. -/
theorem stranger_sets_tokens :
    let api := host (scriptedApi 7 9) standardAbi 1
    let start := deployed api 7 { script := [], log := [] }
    let changing := select (step api standardAbi) (Changes api standardAbi)
    (¬ ∀ tx ∈ changing [initializeTx 3 1 2] start, tx.caller = 7) ∧
      ¬ (changing [initializeTx 7 0 1, initializeTx 7 0 2] start).length ≤ 1 := by
  constructor <;> decide +kernel

theorem tokens_set_once_sample :
    let api := host (scriptedApi 7 9) standardAbi 1
    let start := deployed api 7 { script := [], log := [] }
    let changing := select (step api standardAbi) (Changes api standardAbi)
      [initializeTx 7 1 2, initializeTx 3 4 5] start
    (∀ tx ∈ changing, tx.caller = 7) ∧ changing.length ≤ 1 := by
  intro api start changing
  have sep : Separated (scriptedApi 7 9) := (freeKeccak_key rfl rfl).separated
  have h := tokens_set_once_iff sep standardAbi 1 7 { script := [], log := [] }
    [initializeTx 7 1 2, initializeTx 3 4 5]
  refine h.2.mpr ⟨fun _ _ => .inr ⟨rfl, by decide +kernel⟩, ?_, trivial⟩
  rintro decoded ⟨-, -, h0, -⟩
  exact absurd h0 (by decide +kernel)

end RiscVContracts.TokenSetup
