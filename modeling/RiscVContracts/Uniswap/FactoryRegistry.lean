import RiscVContracts.Uniswap.PairRegistry
import RiscVContracts.Uniswap.Calldata

namespace RiscVContracts.FactoryRegistry

open Programs Bytes Host Storage PairView Symbolic Factory FactorySpec PairRegistry Registries Calldata

section Runs

variable {κ W : Type}

/-- A new contract gets a non-zero address that was not in use; neither its
constructor nor its `initialize` writes the registry. -/
structure FreshInstances (api : Api κ W) (live : W → Set Address) : Prop where
  instantiate : ∀ {input s a t}, api.instantiate input s = (some a, t) →
    a ≠ 0 ∧ a ∉ live s.world ∧ insert a (live s.world) ⊆ live t.world ∧ view api t = view api s
  call : ∀ {input s a t token0 token1 output u}, api.instantiate input s = (some a, t) →
    api.call a (encodeInitialize token0 token1) t = (some output, u) →
      live t.world ⊆ live u.world ∧ view api u = view api t

/-- A call of the factory by an account, and what has happened elsewhere since
the call before. -/
structure Tx (live : W → Set Address) where
  caller : Address
  callData : Buffer
  outside : W → W
  outside_live : ∀ w, live w ⊆ live (outside w)

variable {live : W → Set Address}

def Tx.api (tx : Tx live) (api : Api κ W) : Api κ W := { api with caller := tx.caller }

def Tx.before (tx : Tx live) (s : State κ W) : State κ W := { s with world := tx.outside s.world }

variable [DecidableEq κ]

def execute (api : Api κ W) (abi : FactoryAbi) (tx : Tx live) (s : State κ W) :
    EStateM.Result Halt (State κ W) Buffer := Factory.call (tx.api api) abi tx.callData (tx.before s)

def step (api : Api κ W) (abi : FactoryAbi) (tx : Tx live) (s : State κ W) : State κ W :=
  final (rollback (Factory.call (tx.api api) abi tx.callData) (tx.before s))

section Heap

variable (api : Api κ W) (abi : FactoryAbi) (allocates : List Nat → Bool)

def stepOnHeap (tx : Tx live) (s : State κ W) : State κ W :=
  final (rollback (Factory.callOnHeap (tx.api api) abi tx.callData allocates) (tx.before s))

omit [DecidableEq κ] in
/-- The transaction, or one without calldata when the heap has no room for it. -/
def Tx.fit (tx : Tx live) : Tx live :=
  if Factory.HasRoom tx.callData allocates then tx else { tx with callData := [] }

theorem run_on_heap (txs : List (Tx live)) (s : State κ W) :
    states (stepOnHeap api abi allocates) txs s = states (step api abi) (txs.map (Tx.fit allocates)) s := by
  refine states_map (fun tx s => ?_) txs s
  unfold stepOnHeap Factory.callOnHeap Tx.fit
  split
  · rfl
  · rfl

end Heap

def deployed (api : Api κ W) (callData : Buffer) (world : W) : State κ W :=
  final (Factory.deploy api callData (State.fresh world))

variable {api : Api κ W} {abi : FactoryAbi} {s t : State κ W} {r : Book}

structure Records (api : Api κ W) (live : W → Set Address) (s : State κ W) (r : Book) : Prop where
  refines : Refines (view api s) r
  live : ∀ e ∈ r.entries, e.2 ∈ live s.world

omit [DecidableEq κ] in
theorem Records.of_view {t : State κ W} (h : Records api live s r) (hv : view api t = view api s)
    (hl : live s.world ⊆ live t.world) : Records api live t r :=
  ⟨hv ▸ h.refines, fun e he => hl (h.live e he)⟩

theorem view_deployed (apart : Apart api) (callData : Buffer) (world : W) :
    view api (deployed api callData world) = view api (State.fresh world) := by
  unfold deployed Factory.deploy
  split
  · rfl
  · exact (view_set_slot apart _ (by decide) _).trans (view_set_slot apart _ (by decide) _)

@[simp] theorem deployed_world (api : Api κ W) (callData : Buffer) (world : W) :
    (deployed api callData world).world = world := by
  unfold deployed Factory.deploy
  split <;> rfl

theorem records_deployed (apart : Apart api) (callData : Buffer) (world : W) :
    Records api live (deployed api callData world) Book.empty := by
  refine ⟨?_, fun e he => absurd he List.not_mem_nil⟩
  rw [view_deployed apart]
  exact .empty rfl fun _ _ => rfl

section Steps

variable (apart : Apart api) (fresh : FreshInstances api live)

omit [DecidableEq κ] in
theorem apart_api (apart : Apart api) (tx : Tx live) : Apart (tx.api api) :=
  ⟨apart.pair_injective, apart.array_injective, apart.pair_array, apart.pair_slot, apart.array_slot⟩

omit [DecidableEq κ] in
theorem freshInstances_api (fresh : FreshInstances api live) (tx : Tx live) :
    FreshInstances (tx.api api) live := ⟨fresh.instantiate, fresh.call⟩

include apart fresh

theorem Records.executed {callData : Buffer} {f : FactoryFn} (h : Records api live s r)
    (hx : Executed api abi callData s t f) :
    ∃ r' : Book, r.entries <+: r'.entries ∧ Records api live t r' := by
  cases hx with
  | view _ => exact ⟨r, List.prefix_refl _, h⟩
  | fee slot v hslot _ =>
      refine ⟨r, List.prefix_refl _, h.of_view (view_set_slot apart _ ?_ v) subset_rfl⟩
      rintro rfl
      exact absurd hslot (by decide)
  | @createPair p t hc =>
      obtain ⟨token0, token1, u, v, output, -, hent, hi, hcall, rfl⟩ := createPair_enters h.refines hc
      obtain ⟨hp, hnew, hlu, hvu⟩ := fresh.instantiate hi
      obtain ⟨hlv, hvv⟩ := fresh.call hi hcall
      have hfresh : p ∉ r.entries.map Prod.snd := by
        intro hmem
        obtain ⟨e, he, rfl⟩ := List.mem_map.mp hmem
        exact hnew (h.live e he)
      have he := hent hp hfresh
      refine ⟨r.enter he, List.prefix_append .., ?_, ?_⟩
      · rw [view_registered apart, hvv, hvu]
        exact h.refines.register he
      · intro e hmem
        rw [enter_entries] at hmem
        rcases List.mem_append.mp hmem with hmem | hmem
        · exact hlv (hlu (.inr (h.live e hmem)))
        · rw [List.mem_singleton.mp hmem]
          exact hlv (hlu (.inl rfl))

theorem Records.step (tx : Tx live) (h : Records api live s r) :
    ∃ r' : Book, r.entries <+: r'.entries ∧ Records api live (step api abi tx s) r' := by
  have hb : Records api live (tx.before s) r := h.of_view rfl (tx.outside_live s.world)
  obtain ⟨output, hc⟩ | hc := final_rollback (Factory.call (tx.api api) abi tx.callData) (tx.before s)
  · obtain ⟨f, -, hx⟩ := executed_of_call hc
    have hb' : Records (tx.api api) live (tx.before s) r := ⟨hb.refines, hb.live⟩
    obtain ⟨r', hr, h'⟩ := hb'.executed (apart_api apart tx) (freshInstances_api fresh tx) hx
    exact ⟨r', hr, h'.refines, h'.live⟩
  · change FactoryRegistry.step api abi tx s = tx.before s at hc
    rw [hc]
    exact ⟨r, List.prefix_refl _, hb⟩

theorem Records.states (txs : List (Tx live)) (h : Records api live s r) :
    ∀ t ∈ states (FactoryRegistry.step api abi) txs s,
      ∃ r' : Book, r.entries <+: r'.entries ∧ Records api live t r' := by
  refine invariant_states (C := fun _ _ => True) ?_ txs ⟨r, List.prefix_refl _, h⟩ (steps_true ..)
  rintro tx u - ⟨r', hr, h'⟩
  obtain ⟨r'', hr', h''⟩ := h'.step apart fresh tx
  exact ⟨r'', hr.trans hr', h''⟩

omit fresh apart in
theorem execute_registered (tx : Tx live) {a b : Address}
    (hf : factoryFn tx.callData = some .createPair)
    (ha : abi.createPairCall tx.callData = some (a, b) ∨ abi.createPairCall tx.callData = some (b, a))
    (hr : (view api s).reported a b ≠ 0) : value (execute api abi tx s) = none := by
  cases hv : value (execute api abi tx s) with
  | none => rfl
  | some output =>
      obtain ⟨t, ht⟩ := value_eq_some.mp hv
      obtain ⟨f, hf', hx⟩ := executed_of_call ht
      obtain rfl : FactoryFn.createPair = f := Option.some.inj (hf.symm.trans hf')
      cases hx with
      | view h | fee _ _ _ h => exact absurd rfl h
      | createPair hp =>
          obtain ⟨decoded, hd, -, -, h0, -, -⟩ := createPair_ok.mp hp
          rcases ha with ha | ha
          · obtain rfl := Option.some.inj (ha.symm.trans hd)
            exact absurd h0 hr
          · obtain rfl := Option.some.inj (ha.symm.trans hd)
            rw [View.reported_comm] at hr
            exact absurd h0 hr

end Steps

/-- Whatever the calls of a deployed factory: array and mapping are in
bijection, every later state extends them, and `createPair` fails on the tokens
of a registered pair in either order. -/
theorem pairs_registered (free : FreeKeccak api) (fresh : FreshInstances api live) (abi : FactoryAbi)
    (callData : Buffer) (world : W) (txs : List (Tx live)) :
    ∀ s ∈ states (step api abi) txs (deployed api callData world),
      WellFormed (view api s) ∧
      (∀ later : List (Tx live), ∀ t ∈ states (step api abi) later s,
        Extends (view api s) (view api t)) ∧
      ∀ tx : Tx live, ∀ a b, factoryFn tx.callData = some .createPair →
        (abi.createPairCall tx.callData = some (a, b) ∨ abi.createPairCall tx.callData = some (b, a)) →
        (view api s).reported a b ≠ 0 → value (execute api abi tx s) = none := by
  intro s hs
  have apart := apart_of_free free
  obtain ⟨r, -, hr⟩ := (records_deployed apart callData world).states apart fresh txs s hs
  refine ⟨hr.refines.wellFormed, ?_, fun tx a b => execute_registered tx⟩
  intro later t ht
  obtain ⟨r', hgrow, hr'⟩ := hr.states apart fresh later t ht
  exact hr.refines.extends hr'.refines hgrow

end Runs

def supplyApi : Api Key (List Address) where
  word := .word
  word_injective _ _ h := Key.word.inj h
  hashKeccak256 := .hash
  caller := 7
  address := 8
  now := Vector.replicate 32 0
  callEvm _ _ s := (none, s)
  call _ _ s := (some [], s)
  instantiate _ s := match s.world with
    | a :: rest =>
      if a ≠ 0 ∧ rest.contains a = false then (some a, { s with world := rest }) else (none, s)
    | [] => (none, s)

/-- The addresses in use are those that are no longer in the list. -/
def handedOut (supply : List Address) : Set Address := {a | a ∉ supply}

theorem freshInstances_supply : FreshInstances supplyApi handedOut where
  instantiate {input s a t} h := by
    obtain ⟨storage, world⟩ := s
    unfold supplyApi at h
    cases world with
    | nil => cases h
    | cons b rest =>
        dsimp only at h
        split at h
        · obtain ⟨rfl, rfl⟩ : b = a ∧ _ := by simpa using h
          rename_i hb
          have hnew : b ∉ rest := by simpa using hb.2
          refine ⟨hb.1, fun hn => hn (List.mem_cons_self ..), ?_, rfl⟩
          rintro x (rfl | hx)
          · exact hnew
          · exact fun hn => hx (List.mem_cons_of_mem _ hn)
        · cases h
  call {input s a t token0 token1 output u} _ h := by
    obtain rfl : t = u := (Prod.ext_iff.mp h).2
    exact ⟨subset_rfl, rfl⟩

def createPairTx (caller a b : Address) : Tx handedOut where
  caller := caller
  callData := createPairData a b
  outside := id
  outside_live _ := subset_rfl

theorem pairs_registered_sample :
    let run := states (step supplyApi standardFactoryAbi)
    let start := deployed supplyApi (toBeBytes 7 ++ toBeBytes 1) [20, 21, 22]
    ∃ s ∈ run [createPairTx 5 2 1, createPairTx 6 1 2, createPairTx 5 1 3] start,
      (view supplyApi s).length = 2 ∧ WellFormed (view supplyApi s) ∧
      (∀ t ∈ run [createPairTx 6 3 4] s, Extends (view supplyApi s) (view supplyApi t)) ∧
      value (execute supplyApi standardFactoryAbi (createPairTx 4 3 1) s) = none := by
  intro run start
  let txs := [createPairTx 5 2 1, createPairTx 6 1 2, createPairTx 5 1 3]
  have free : FreeKeccak supplyApi := freeKeccak_key rfl rfl
  let s := txs.foldl (fun s tx => step supplyApi standardFactoryAbi tx s) start
  have hs : s ∈ run txs start := foldl_mem_states ..
  obtain ⟨hw, hext, hfail⟩ := pairs_registered free freshInstances_supply standardFactoryAbi
    (toBeBytes 7 ++ toBeBytes 1) [20, 21, 22] txs s hs
  refine ⟨s, hs, by decide +kernel, hw, hext _, ?_⟩
  exact hfail (createPairTx 4 3 1) 1 3 (by decide +kernel) (.inr (by decide +kernel)) (by decide +kernel)

end RiscVContracts.FactoryRegistry
