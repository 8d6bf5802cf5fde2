import RiscVContracts.Uniswap.ReserveCodec
import RiscVContracts.Uniswap.Reentrancy

namespace RiscVContracts.Timestamps

open Programs Bytes Host Storage Pair PairView PairSpec PairSlots Calldata Symbolic Runs Reentrancy
  ReserveCodec Commits

variable {κ W : Type} [DecidableEq κ] {api : Api κ W} {abi : PairAbi} {callData : Buffer}
  {s t : State κ W} {f : PairFn}

omit [DecidableEq κ] in
def reported (api : Api κ W) (s : State κ W) : Option Nat :=
  (value (getReserves api s)).map fun r => r.ts.toNat

omit [DecidableEq κ] in
theorem reported_eq (api : Api κ W) (s : State κ W) : reported api s = some (reserves api s).ts.toNat := by
  have h : getReserves api s = .ok (reserves api s) s := getReserves_ok.mpr ⟨rfl, rfl⟩
  rw [reported, h]
  rfl

def rewrites (api : Api κ W) (abi : PairAbi) (tx : Tx W) (s : State κ W) : Bool :=
  (pairFn tx.callData).any updating &&
    (value (call (tx.api api) abi tx.callData (tx.before s))).isSome

def timedStep (api : Api κ W) (abi : PairAbi) (tx : Tx W) (p : State κ W × Nat) : State κ W × Nat :=
  (step api abi tx p.1, if rewrites api abi tx p.1 then (clock (tx.api api)).toNat else p.2)

def Syncs (api : Api κ W) (abi : PairAbi) (tx : Tx W) (s : State κ W) : Prop :=
  pairFn tx.callData = some .sync ∧ rewrites api abi tx s = true

section Stamps

omit [DecidableEq κ] in
theorem ts_packed {r0 r1 : U128} {ts : U32} (h : slots api t slotReserves = packReserves r0 r1 ts) :
    (reserves api t).ts = ts := by
  rw [reserves, h, unpackReserves_packReserves]

omit [DecidableEq κ] in
theorem ts_of_slots (h : slots api t slotReserves = slots api s slotReserves) :
    (reserves api t).ts = (reserves api s).ts := by
  rw [reserves, h, reserves]

theorem not_updating_of_view (hf : f.isView = true) : updating f = false := by
  cases f <;> first | rfl | cases hf

variable (sep : Separated api) (keeps : KeepsSlots api)

include sep keeps

/-- Three of the four functions that rewrite the reserves stamp them with the
clock, `sync` with the time it found; all others leave the time alone. -/
theorem ts_of_executed (h : Executed api abi callData s t f) :
    (reserves api t).ts = if updating f then stamp api f s else (reserves api s).ts := by
  cases h with
  | view hv ht => rw [not_updating_of_view hv, ht, if_neg Bool.false_ne_true]
  | initializePair hi =>
      obtain ⟨decoded, -, -, -, hsl⟩ := initializePair_slots hi
      refine ts_of_slots ?_
      rw [hsl, Function.update_of_ne (by decide), Function.update_of_ne (by decide)]
  | mint hm =>
      obtain ⟨_, _, _, -, -, -, -, hsl⟩ := mint_slots sep keeps hm
      exact ts_packed (by rw [hsl, Function.update_self]; rfl)
  | burn hb =>
      obtain ⟨_, _, _, -, -, -, -, hsl⟩ := burn_slots sep keeps hb
      exact ts_packed (by rw [hsl, Function.update_self]; rfl)
  | swap hw =>
      obtain ⟨_, _, _, -, -, -, -, hsl⟩ := swap_slots keeps hw
      exact ts_packed (by rw [hsl, Function.update_self]; rfl)
  | sync hy =>
      obtain ⟨_, _, -, -, -, hsl⟩ := sync_slots keeps hy
      exact ts_packed (by rw [hsl, Function.update_self]; rfl)
  | skim hk => exact ts_of_slots (congrFun (skim_slots keeps hk) _)
  | approve ha => exact ts_of_slots (congrFun (approve_slots sep ha) _)
  | transfer ht => exact ts_of_slots (congrFun (transfer_slots sep ht) _)
  | transferFrom ht => exact ts_of_slots (congrFun (transferFrom_slots sep ht) _)

omit sep keeps in
theorem clock_of_call (hf : pairFn callData = some f) (hu : updating f = true) (hne : f ≠ .sync)
    {out : Buffer} (h : call api abi callData s = .ok out t) : (clock api).toNat < 2 ^ 32 := by
  obtain ⟨-, b, -, hc⟩ := (commits_iff hf hu).mp ⟨out, t, h⟩
  exact hc.clock hne

omit sep keeps in
theorem rewrites_of_ok (tx : Tx W) {out : Buffer} (hf : pairFn tx.callData = some f)
    (h : call (tx.api api) abi tx.callData (tx.before s) = .ok out t) :
    rewrites api abi tx s = updating f := by
  rw [rewrites, hf, h]
  exact Bool.and_true _

omit sep keeps in
theorem rewrites_of_error (tx : Tx W) {e : Halt}
    (h : call (tx.api api) abi tx.callData (tx.before s) = .error e t) :
    rewrites api abi tx s = false := by
  rw [rewrites, h]
  exact Bool.and_false _

theorem ts_timedStep (tx : Tx W) {p : State κ W × Nat} (hp : (reserves api p.1).ts.toNat = p.2) :
    (reserves api (timedStep api abi tx p).1).ts.toNat = (timedStep api abi tx p).2 ↔
      (Syncs api abi tx p.1 → (clock (tx.api api)).toNat = (reserves api p.1).ts.toNat) := by
  obtain ⟨s, last⟩ := p
  cases hc : call (tx.api api) abi tx.callData (tx.before s) with
  | error e t =>
      have hno := rewrites_of_error tx hc
      have hstep : step api abi tx s = tx.before s := by rw [step, rollback, hc, final_error]
      refine iff_of_true ?_ fun h => absurd h.2 (by rw [hno]; exact Bool.false_ne_true)
      rw [timedStep, hno, hstep]
      exact hp
  | ok out t =>
      have hstep : step api abi tx s = t := by rw [step, rollback, hc, final_ok]
      obtain ⟨f, hf, hx⟩ := executed_of_call hc
      have hrw := rewrites_of_ok tx hf hc
      have keeps' : KeepsSlots (tx.api api) := keeps
      have hts : (reserves api t).ts =
          if updating f then stamp (tx.api api) f (tx.before s) else (reserves api s).ts :=
        ts_of_executed (separated_api sep tx) keeps' hx
      rw [timedStep, hrw, hstep, hts]
      by_cases hu : updating f = true
      · rw [if_pos hu, if_pos hu, stamp]
        by_cases hsync : f = .sync
        · subst f
          rw [if_pos rfl]
          exact ⟨fun h _ => h.symm, fun h => (h ⟨hf, hrw⟩).symm⟩
        · have hclock := clock_of_call hf hu hsync hc
          rw [if_neg hsync]
          refine iff_of_true ?_ fun h => absurd (Option.some.inj (hf.symm.trans h.1)) hsync
          rw [BitVec.toNat_setWidth, Nat.mod_eq_of_lt hclock]
      · rw [if_neg hu, if_neg hu]
        exact iff_of_true hp fun h => absurd (hrw ▸ h.2) hu

omit sep keeps in
theorem ts_deployed (api : Api κ W) (f : Address) (world : W) :
    (reserves api (deployed api f world)).ts.toNat = 0 := by
  rw [reserves, slots_deployed, Function.update_of_ne (by decide), Function.update_of_ne (by decide)]
  rfl

theorem timedStep_states_iff (f : Address) (world : W) (txs : List (Tx W)) :
    (∀ p ∈ states (timedStep api abi) txs (deployed api f world, 0), reported api p.1 = some p.2) ↔
      Steps (timedStep api abi)
        (fun tx p => Syncs api abi tx p.1 → some (clock (tx.api api)).toNat = reported api p.1) txs
        (deployed api f world, 0) := by
  simp only [reported_eq, Option.some.injEq]
  apply forall_states_iff (I := fun p : State κ W × Nat => (reserves api p.1).ts.toNat = p.2)
  · exact fun p hp => hp
  · exact fun tx p hp hc => (ts_timedStep sep keeps tx hp).mpr hc
  · exact fun tx p hp hc h => hc ((ts_timedStep sep keeps tx hp).mp h)
  · exact ts_deployed api f world

end Stamps

section Runs

variable {base : Api κ (World κ)} (sep : Separated base)

include sep

/-- Along a run from deployment, with tokens that call back as they like,
`getReserves` returns the time of the latest update in every state, exactly
when every `sync` that goes through runs at the time stored already. -/
theorem timestamp_follows_iff (abi : PairAbi) (n : Nat) (f : Address) (world : World κ)
    (txs : List (Tx (World κ))) :
    let api := host base abi n
    (∀ p ∈ states (timedStep api abi) txs (deployed api f world, 0), reported api p.1 = some p.2) ↔
      Steps (timedStep api abi)
        (fun tx p => Syncs api abi tx p.1 → some (clock (tx.api api)).toNat = reported api p.1) txs
        (deployed api f world, 0) := by
  intro api
  exact timedStep_states_iff (separated_host sep n) (host_keepsSlots sep n) f world txs

end Runs

def txAt (time : Nat) (balance : U256) (callData : Buffer) : Tx (World Key) where
  caller := 7
  now := ⟨(beBytes 32 time).toArray, by simp⟩
  callData := callData
  outside w := { w with script := List.replicate 2 (.mk [] (some (toBeBytes balance))) }

/-- A new pair is set up and synchronised at time 5; it reports time 0. -/
theorem sync_keeps_old_time :
    let api := host (scriptedApi 7 9) standardAbi 1
    ¬ ∀ p ∈ states (timedStep api standardAbi)
      [txAt 4 0 (initializeData 1 2), txAt 5 3 PairFn.sync.selector]
      (deployed api 7 { script := [], log := [] }, 0), reported api p.1 = some p.2 := by
  decide +kernel

theorem timestamp_follows_sample :
    let api := host (scriptedApi 7 9) standardAbi 1
    let run := states (timedStep api standardAbi)
      [txAt 4 0 (initializeData 1 2), txAt 5 65536 (mintData 7), txAt 5 65537 PairFn.sync.selector]
      (deployed api 7 { script := [], log := [] }, 0)
    (run.map Prod.snd = [0, 0, 5, 5]) ∧ ∀ p ∈ run, reported api p.1 = some p.2 := by
  intro api run
  have sep : Separated (scriptedApi 7 9) := (freeKeccak_key rfl rfl).separated
  refine ⟨by decide +kernel, (timestamp_follows_iff sep standardAbi 1 7 { script := [], log := [] }
    [txAt 4 0 (initializeData 1 2), txAt 5 65536 (mintData 7), txAt 5 65537 PairFn.sync.selector]).mpr
    ⟨?_, ?_, ?_, trivial⟩⟩
  · exact fun h => absurd h.1 (by decide +kernel)
  · exact fun h => absurd h.1 (by decide +kernel)
  · exact fun _ => by decide +kernel

end RiscVContracts.Timestamps
