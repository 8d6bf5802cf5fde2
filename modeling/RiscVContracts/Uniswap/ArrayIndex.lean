import RiscVContracts.Uniswap.FactoryRegistry

namespace RiscVContracts.ArrayIndex

open Programs Bytes Host Storage PairView Symbolic Factory FactorySpec PairRegistry Registries
  FactoryRegistry Calldata

variable {κ W : Type}

section Reads

/-- `array_slot` for any 32-byte word as the index, one that is itself a hash included. -/
def arraySlotAt (api : Api κ W) (base : U32) (index : κ) : κ := api.hashKeccak256 (slotKey api base) index

def allPairsAt (api : Api κ W) (index : κ) : Program κ W Address := do
  return lowAddress (← getStorageOrZero (arraySlotAt api slotAllPairs index))

theorem run_allPairs [DecidableEq κ] (api : Api κ W) {abi : FactoryAbi} {callData : Buffer} {i : U256}
    (hd : abi.allPairsCall callData = some i) : Factory.run api abi callData .allPairs =
      (do return toBeBytes (padAddress (← allPairsAt api (api.word i)))) := by
  rw [Factory.run, hd]
  rfl

def OutOfRange (api : Api κ W) (s : State κ W) (index : κ) : Prop :=
  ∀ n < (view api s).length.toNat, index ≠ api.word (BitVec.ofNat 256 n)

/-- Beyond the length `allPairs` fails or yields the zero address. -/
def Inside (api : Api κ W) (s : State κ W) : Prop :=
  ∀ index, OutOfRange api s index → ∀ p t, allPairsAt api index s = .ok p t → p = 0

def innerHash (api : Api κ W) (token : Address) : κ :=
  api.hashKeccak256 (api.word (padAddress token)) (api.word (slotWord (slotGetPair + 1)))

/-- The token whose `getPair` keys hash the same first word as the array. -/
def arrayToken : Address := 3

variable {api : Api κ W} {s t : State κ W} {index : κ} {p : Address}

theorem allPairsAt_ok : allPairsAt api index s = .ok p t ↔
    lowAddress (s.storage (arraySlotAt api slotAllPairs index)) = p ∧ s = t := by
  simp only [allPairsAt, bind_ok, pure_ok, getStorageOrZero_ok, exists_and_left, exists_eq_left', and_assoc]

theorem mappingKey2_eq (api : Api κ W) (a b : Address) :
    mappingKey2 api slotGetPair a b = api.hashKeccak256 (api.word (padAddress a)) (innerHash api b) := rfl

/-- At an inner hash the array is read where the mapping of `arrayToken` is stored. -/
theorem arraySlotAt_innerHash (api : Api κ W) (b : Address) :
    arraySlotAt api slotAllPairs (innerHash api b) = mappingKey2 api slotGetPair arrayToken b := rfl

theorem innerHash_outOfRange (free : FreeKeccak api) (s : State κ W) (b : Address) :
    OutOfRange api s (innerHash api b) := fun _ _ => free.hash_ne_word _ _ _

def Vacant (api : Api κ W) (s : State κ W) : Prop :=
  ∀ index, OutOfRange api s index → (∀ b, index ≠ innerHash api b) →
    s.storage (arraySlotAt api slotAllPairs index) = 0

theorem inside_iff (free : FreeKeccak api) (hv : Vacant api s) :
    Inside api s ↔ ∀ b, (view api s).pair arrayToken b = 0 := by
  have hread (b : Address) : lowAddress (s.storage (arraySlotAt api slotAllPairs (innerHash api b))) =
      (view api s).pair arrayToken b := by
    rw [arraySlotAt_innerHash]
    rfl
  constructor
  · intro h b
    exact h (innerHash api b) (innerHash_outOfRange free s b) _ s (allPairsAt_ok.mpr ⟨hread b, rfl⟩)
  · intro h index hout p t hp
    obtain ⟨rfl, -⟩ := allPairsAt_ok.mp hp
    by_cases hi : ∃ b, index = innerHash api b
    · obtain ⟨b, rfl⟩ := hi
      rw [hread]
      exact h b
    · rw [hv index hout fun b hb => hi ⟨b, hb⟩]
      rfl

end Reads

section Keys

variable {api : Api κ W} (free : FreeKeccak api) {s t : State κ W}

include free

theorem arraySlotAt_ne_slot (index : κ) (n : U32) : arraySlotAt api slotAllPairs index ≠ slotKey api n :=
  free.hash_ne_word _ _ _

theorem arraySlotAt_ne_pair {index : κ} (hi : ∀ b, index ≠ innerHash api b) (a b : Address) :
    arraySlotAt api slotAllPairs index ≠ mappingKey2 api slotGetPair a b := fun h =>
  hi b (free.hash_injective (mappingKey2_eq api a b ▸ h)).2

theorem arraySlotAt_ne_array {index : κ} {n : U256} (hi : index ≠ api.word n) :
    arraySlotAt api slotAllPairs index ≠ arraySlot api slotAllPairs n := fun h =>
  hi (free.hash_injective h).2

omit free in
theorem view_of_storage (h : t.storage = s.storage) : view api t = view api s := by
  simp only [view, slots, h]

omit free in
theorem vacant_of_storage (hv : Vacant api s) (h : t.storage = s.storage) : Vacant api t := by
  intro index hout hi
  rw [OutOfRange, view_of_storage h] at hout
  rw [h]
  exact hv index hout hi

variable [DecidableEq κ]

theorem vacant_set_slot (hv : Vacant api s) {n : U32} (hn : n ≠ slotAllPairs) (v : U256) :
    Vacant api (s.set (slotKey api n) v) := by
  intro index hout hi
  rw [OutOfRange, view_set_slot (apart_of_free free) s hn v] at hout
  rw [State.set_storage_of_ne s (arraySlotAt_ne_slot free index n) v]
  exact hv index hout hi

theorem vacant_registered (hv : Vacant api s) (token0 token1 p : Address)
    (hlen : (view api s).length.toNat + 1 < 2 ^ 256) : Vacant api (registered api s token0 token1 p) := by
  intro index hout hi
  have apart := apart_of_free free
  rw [OutOfRange, view_registered apart s token0 token1 p] at hout
  have hnext : ((view api s).register token0 token1 p).length.toNat = (view api s).length.toNat + 1 := by
    rw [View.register, BitVec.toNat_add]
    exact Nat.mod_eq_of_lt hlen
  have hne : index ≠ api.word (view api s).length := by
    have h := hout (view api s).length.toNat (by omega)
    rwa [BitVec.ofNat_toNat, BitVec.setWidth_eq] at h
  have hstart : OutOfRange api s index := fun n hn => hout n (by omega)
  rw [registered, State.set_storage_of_ne _ (arraySlotAt_ne_slot free index _),
    State.set_storage_of_ne _ (arraySlotAt_ne_array free ?_),
    State.set_storage_of_ne _ (arraySlotAt_ne_pair free hi _ _),
    State.set_storage_of_ne _ (arraySlotAt_ne_pair free hi _ _)]
  · exact hv index hstart hi
  · rw [slots_set_pair apart, slots_set_pair apart]
    exact hne

end Keys

section Runs

variable {live : W → Set Address}

/-- Constructors and `initialize` do not write the factory's storage. -/
structure Untouched (api : Api κ W) : Prop where
  instantiate : ∀ input s, (api.instantiate input s).2.storage = s.storage
  call : ∀ callee input s, (api.call callee input s).2.storage = s.storage

structure Tracks (api : Api κ W) (live : W → Set Address) (s : State κ W) : Prop where
  book : ∃ r, Records api live s r
  vacant : Vacant api s

variable [DecidableEq κ] {api : Api κ W} {abi : FactoryAbi} {callData : Buffer} {s t : State κ W}
  (free : FreeKeccak api) (fresh : FreshInstances api live) (untouched : Untouched api)

def CreatesFor (api : Api κ W) (abi : FactoryAbi) (token : Address) (tx : Tx live) (s : State κ W) :
    Prop :=
  factoryFn tx.callData = some .createPair ∧ (value (execute api abi tx s)).isSome ∧
    ∃ a b, abi.createPairCall tx.callData = some (a, b) ∧ (a = token ∨ b = token)

omit [DecidableEq κ] in
theorem untouched_api (untouched : Untouched api) (tx : Tx live) : Untouched (tx.api api) :=
  ⟨untouched.instantiate, untouched.call⟩

omit [DecidableEq κ] in
theorem freeKeccak_api (free : FreeKeccak api) (tx : Tx live) : FreeKeccak (tx.api api) :=
  ⟨free.hash_injective, free.hash_ne_word⟩

omit [DecidableEq κ] in
theorem length_lt {r : Book} (h : Refines (view api s) r) : (view api s).length.toNat + 1 < 2 ^ 256 := by
  rw [h.length]
  exact entries_length_lt r

theorem createPair_registered (fresh : FreshInstances api live) (untouched : Untouched api) {p : Address}
    (h : createPair api abi callData s = .ok p t) : ∃ a b token0 token1 u,
      abi.createPairCall callData = some (a, b) ∧ s(token0, token1) = s(a, b) ∧ p ≠ 0 ∧
        u.storage = s.storage ∧ registered api u token0 token1 p = t := by
  obtain ⟨⟨a, b⟩, hd, -, -, -, -, hdeploy⟩ := createPair_ok.mp h
  obtain ⟨u, v, output, hi, hc, ht⟩ := deployPair_ok.mp hdeploy
  have hu := untouched.instantiate (toBeBytes (slots api s slotPairCodeHash)) s
  have hv := untouched.call p (encodeInitialize (sortTokens a b).1 (sortTokens a b).2) u
  rw [hi] at hu
  rw [hc] at hv
  exact ⟨a, b, _, _, v, hd, sortTokens_pair a b, (fresh.instantiate hi).1, hv.trans hu, ht⟩

include free fresh untouched

theorem tracks_executed {f : FactoryFn} (h : Tracks api live s) (hx : Executed api abi callData s t f) :
    Tracks api live t := by
  obtain ⟨r, hr⟩ := h.book
  obtain ⟨r', -, hr'⟩ := hr.executed (apart_of_free free) fresh hx
  refine ⟨⟨r', hr'⟩, ?_⟩
  cases hx with
  | view _ => exact h.vacant
  | fee slot v hslot _ =>
      refine vacant_set_slot free h.vacant ?_ v
      rintro rfl
      exact absurd hslot (by decide)
  | createPair hc =>
      obtain ⟨a, b, token0, token1, u, -, -, -, hu, rfl⟩ := createPair_registered fresh untouched hc
      refine vacant_registered free (vacant_of_storage h.vacant hu) token0 token1 _ ?_
      rw [view_of_storage hu]
      exact length_lt hr.refines

theorem tracks_step (tx : Tx live) (h : Tracks api live s) : Tracks api live (step api abi tx s) := by
  obtain ⟨r, hr⟩ := h.book
  have hb : Records api live (tx.before s) r := hr.of_view rfl (tx.outside_live s.world)
  obtain ⟨output, hc⟩ | hc := final_rollback (Factory.call (tx.api api) abi tx.callData) (tx.before s)
  · obtain ⟨f, -, hx⟩ := executed_of_call hc
    have hstart : Tracks (tx.api api) live (tx.before s) := ⟨⟨r, hb.refines, hb.live⟩, h.vacant⟩
    obtain ⟨⟨r', hr'⟩, hv⟩ := tracks_executed (freeKeccak_api free tx) (freshInstances_api fresh tx)
      (untouched_api untouched tx) hstart hx
    exact ⟨⟨r', hr'.refines, hr'.live⟩, hv⟩
  · change step api abi tx s = tx.before s at hc
    rw [hc]
    exact ⟨⟨r, hb⟩, vacant_of_storage h.vacant rfl⟩

omit fresh untouched free in
theorem entered_elsewhere_iff {token a b p : Address} (hp : p ≠ 0) :
    (∀ x, (if s(token, x) = s(a, b) then p else 0) = 0) ↔ ¬ a = token ∧ ¬ b = token := by
  constructor
  · intro h
    constructor
    · rintro rfl
      exact hp (by simpa using h b)
    · rintro rfl
      exact hp (by simpa [Sym2.eq_swap] using h a)
  · rintro ⟨ha, hb⟩ x
    rw [if_neg]
    intro heq
    rcases Sym2.eq_iff.mp heq with ⟨h, -⟩ | ⟨h, -⟩
    · exact ha h.symm
    · exact hb h.symm

/-- A step registers a pair for the array's own token just when it creates one. -/
theorem pair_step (tx : Tx live) (hs : ∀ x, (view api s).pair arrayToken x = 0) :
    (∀ x, (view api (step api abi tx s)).pair arrayToken x = 0) ↔
      ¬ CreatesFor api abi arrayToken tx s := by
  cases hc : Factory.call (tx.api api) abi tx.callData (tx.before s) with
  | error e t =>
      have hstep : step api abi tx s = tx.before s := by rw [step, rollback, hc, final_error]
      refine iff_of_true (by rw [hstep]; exact hs) fun h => ?_
      have hnone := h.2.1
      rw [execute, hc] at hnone
      exact absurd hnone Bool.false_ne_true
  | ok output t =>
      have hstep : step api abi tx s = t := by rw [step, rollback, hc, final_ok]
      obtain ⟨f, hf, hx⟩ := executed_of_call hc
      rw [hstep]
      cases hx with
      | view hne => exact iff_of_true hs fun h => hne (Option.some.inj (hf.symm.trans h.1))
      | fee slot v hslot hne =>
          refine iff_of_true ?_ fun h => hne (Option.some.inj (hf.symm.trans h.1))
          have hview := view_set_slot (apart_of_free free) (tx.before s)
            (show slot ≠ slotAllPairs by rintro rfl; exact absurd hslot (by decide)) v
          change ∀ x, (view api ((tx.before s).set (slotKey api slot) v)).pair arrayToken x = 0
          rw [hview]
          exact hs
      | @createPair p t hp =>
          obtain ⟨a, b, token0, token1, u, hd, hab, hne, hu, rfl⟩ := createPair_registered
            (freshInstances_api fresh tx) (untouched_api untouched tx) hp
          have hpair (x : Address) : (view api (registered api u token0 token1 p)).pair arrayToken x =
              if s(arrayToken, x) = s(a, b) then p else 0 := by
            rw [view_registered (apart_of_free free), View.register_pair, hab, view_of_storage hu]
            split
            · rfl
            · exact hs x
          have hcreates : CreatesFor api abi arrayToken tx s ↔ a = arrayToken ∨ b = arrayToken := by
            constructor
            · rintro ⟨-, -, a', b', hd', hor⟩
              obtain ⟨rfl, rfl⟩ := Prod.mk.inj (Option.some.inj (hd.symm.trans hd'))
              exact hor
            · exact fun hor => ⟨hf, by rw [execute, hc]; rfl, a, b, hd, hor⟩
          change (∀ x, (view api (registered api u token0 token1 p)).pair arrayToken x = 0) ↔ _
          rw [hcreates, not_or]
          simp only [hpair]
          exact entered_elsewhere_iff hne

omit fresh untouched in
theorem tracks_deployed (callData : Buffer) (world : W) :
    Tracks api live (deployed api callData world) ∧
      ∀ x, (view api (deployed api callData world)).pair arrayToken x = 0 := by
  have apart := apart_of_free free
  refine ⟨⟨⟨_, records_deployed apart callData world⟩, ?_⟩, fun x => ?_⟩
  · have hfresh : Vacant api (State.fresh world) := fun _ _ _ => rfl
    unfold deployed Factory.deploy
    split
    · exact hfresh
    · exact vacant_set_slot free (vacant_set_slot free hfresh (by decide) _) (by decide) _
  · rw [view_deployed apart]
    rfl

/-- From deployment, whatever the calls: every read of `allPairs` beyond the
length fails or yields zero, exactly when no call creates a pair for `arrayToken`. -/
theorem index_reads_inside_iff (abi : FactoryAbi) (callData : Buffer) (world : W) (txs : List (Tx live)) :
    (∀ s ∈ states (step api abi) txs (deployed api callData world), Inside api s) ↔
      Steps (step api abi) (fun tx s => ¬ CreatesFor api abi arrayToken tx s) txs
        (deployed api callData world) := by
  apply forall_states_iff
    (I := fun s => Tracks api live s ∧ ∀ x, (view api s).pair arrayToken x = 0)
  · exact fun s hs => (inside_iff free hs.1.vacant).mpr hs.2
  · exact fun tx s hs hc => ⟨tracks_step free fresh untouched tx hs.1,
      (pair_step free fresh untouched tx hs.2).mpr hc⟩
  · intro tx s hs hc h
    have ht : Tracks api live (step api abi tx s) := tracks_step free fresh untouched tx hs.1
    exact hc ((pair_step free fresh untouched tx hs.2).mp ((inside_iff free ht.vacant).mp h))
  · exact tracks_deployed free callData world

end Runs

theorem untouched_supply : Untouched supplyApi where
  instantiate input s := by
    obtain ⟨storage, world⟩ := s
    unfold supplyApi
    cases world with
    | nil => rfl
    | cons b rest =>
        dsimp only
        split <;> rfl
  call _ _ _ := rfl

/-- With one pair, of the tokens 3 and 5, the inner hash of 5 is an index that returns it. -/
theorem hash_index_reads_pair :
    let s := step supplyApi standardFactoryAbi (createPairTx 6 3 5)
      (deployed supplyApi (toBeBytes 7 ++ toBeBytes 1) [20, 21, 22])
    (view supplyApi s).length = 1 ∧ (view supplyApi s).reported 3 5 = 20 ∧
      OutOfRange supplyApi s (innerHash supplyApi 5) ∧
      value (allPairsAt supplyApi (innerHash supplyApi 5) s) = some 20 ∧
      ¬ ∀ t ∈ states (step supplyApi standardFactoryAbi) [createPairTx 6 3 5]
        (deployed supplyApi (toBeBytes 7 ++ toBeBytes 1) [20, 21, 22]), Inside supplyApi t := by
  intro s
  have free : FreeKeccak supplyApi := freeKeccak_key rfl rfl
  have hout := innerHash_outOfRange free s 5
  have hread : value (allPairsAt supplyApi (innerHash supplyApi 5) s) = some 20 := by decide +kernel
  refine ⟨by decide +kernel, by decide +kernel, hout, hread, fun h => ?_⟩
  have hzero := h s (by simp [states, s]) _ hout 20 _ (ok_of_value hread)
  exact absurd hzero (by decide)

theorem index_reads_inside_sample :
    let txs := [createPairTx 6 4 5, createPairTx 6 4 5, createPairTx 6 5 2]
    ∀ s ∈ states (step supplyApi standardFactoryAbi) txs
      (deployed supplyApi (toBeBytes 7 ++ toBeBytes 1) [20, 21, 22]), Inside supplyApi s := by
  intro txs
  have h {a b : Address} (hd : standardFactoryAbi.createPairCall (createPairData a b) = some (a, b))
      (hab : a ≠ 3 ∧ b ≠ 3) (s : State Key (List Address)) :
      ¬ CreatesFor supplyApi standardFactoryAbi arrayToken (createPairTx 6 a b) s := by
    rintro ⟨-, -, a', b', hd', hor⟩
    obtain ⟨rfl, rfl⟩ := Prod.mk.inj (Option.some.inj (hd.symm.trans hd'))
    rcases hor with hor | hor
    · exact hab.1 hor
    · exact hab.2 hor
  exact (index_reads_inside_iff (freeKeccak_key rfl rfl) freshInstances_supply untouched_supply
    standardFactoryAbi (toBeBytes 7 ++ toBeBytes 1) [20, 21, 22] txs).mpr
    ⟨h (by decide +kernel) (by decide) _, h (by decide +kernel) (by decide) _,
      h (by decide +kernel) (by decide) _, trivial⟩

end RiscVContracts.ArrayIndex
