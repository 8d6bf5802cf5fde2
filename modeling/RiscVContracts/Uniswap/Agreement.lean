import RiscVContracts.Uniswap.Exchange
import RiscVContracts.Uniswap.PairInvariants

namespace RiscVContracts.Agreement

open Programs Bytes Host Storage Pair PairView PairSpec PairSlots PairInvariants Symbolic Factory
  FactorySpec PairRegistry Registries Calldata Tokens Exchange

variable {κ W : Type} {sys : Setup κ W} {s t : Store κ} {r r' : Book}

section Invariant

def kept : List U32 := [Pair.slotFactory, slotToken0, slotToken1]

structure Matches (sys : Setup κ W) (s : Store κ) (e : Sym2 Address × Address) : Prop where
  factory : factoryOf sys s e.2 = sys.factory
  sorted : token0Of sys s e.2 < token1Of sys s e.2
  tokens : e.1 = s(token0Of sys s e.2, token1Of sys s e.2)

/-- The registry holds the book, which lists exactly the pairs in existence,
and each pair stores what the book says of it. -/
structure Agree (sys : Setup κ W) (s : Store κ) (r : Book) : Prop where
  registry : Refines (registry sys s) r
  created : ∀ p, p ∈ s.world.pairs ↔ p ∈ r.entries.map Prod.snd
  outside : sys.factory ∉ s.world.pairs
  matched : ∀ e ∈ r.entries, Matches sys s e

def Within (sys : Setup κ W) (r : Book) (s : Store κ) : Prop :=
  ∃ r' : Book, r.entries <+: r'.entries ∧ Agree sys s r'

theorem Agree.within (h : Agree sys s r) : Within sys r s := ⟨r, List.prefix_refl _, h⟩

theorem Within.mono (hr : r.entries <+: r'.entries) (h : Within sys r' s) : Within sys r s := by
  obtain ⟨r'', hr', h⟩ := h
  exact ⟨r'', hr.trans hr', h⟩

theorem Matches.of_cells {e : Sym2 Address × Address} (h : Matches sys s e)
    (hc : ∀ n ∈ kept, cells sys e.2 t n = cells sys e.2 s n) : Matches sys t e := by
  have hf : factoryOf sys t e.2 = factoryOf sys s e.2 := congrArg lowAddress (hc _ (by decide))
  have h0 : token0Of sys t e.2 = token0Of sys s e.2 := congrArg lowAddress (hc _ (by decide))
  have h1 : token1Of sys t e.2 = token1Of sys s e.2 := congrArg lowAddress (hc _ (by decide))
  refine ⟨?_, ?_, ?_⟩
  · rw [hf, h.factory]
  · rw [h0, h1]
    exact h.sorted
  · rw [h0, h1]
    exact h.tokens

theorem Agree.of_eq (h : Agree sys s r) (hw : t.world.pairs = s.world.pairs)
    (hr : Exchange.registry sys t = Exchange.registry sys s)
    (hc : ∀ p ∈ s.world.pairs, ∀ n ∈ kept, cells sys p t n = cells sys p s n) : Agree sys t r where
  registry := hr ▸ h.registry
  created := hw ▸ h.created
  outside := hw ▸ h.outside
  matched e he := by
    have hp : e.2 ∈ s.world.pairs := (h.created _).mpr (List.mem_map_of_mem he)
    exact (h.matched e he).of_cells (hc _ hp)

theorem Agree.token0_ne (h : Agree sys s r) {p : Address} (hp : p ∈ s.world.pairs) :
    token0Of sys s p ≠ 0 := by
  obtain ⟨e, he, rfl⟩ := List.mem_map.mp ((h.created p).mp hp)
  intro h0
  have hz := (r.tokens e he).2
  rw [(h.matched e he).tokens, h0] at hz
  exact hz (Sym2.mem_mk_left _ _)

theorem Agree.undone (h : Agree sys s r) (t : Store κ) : Agree sys (undone s t) r :=
  h.of_eq rfl rfl fun _ _ _ _ => rfl

theorem Within.scripted {script : List Reaction} (h : Within sys r s) :
    Within sys r { s with world := { s.world with script := script } } := by
  obtain ⟨r', hr, h⟩ := h
  exact ⟨r', hr, h.of_eq rfl rfl fun _ _ _ _ => rfl⟩

theorem frame_within {x : Program (Address × κ) World Buffer} (hs : Within sys r s)
    (hx : ∀ output t, x s = .ok output t → Within sys r t) : Within sys r (frame x s).2 := by
  unfold frame
  cases h : x s with
  | ok output t => exact hx output t h
  | error e t =>
      obtain ⟨r', hr, hs⟩ := hs
      exact ⟨r', hr, hs.undone t⟩

end Invariant

section Pairs

variable [DecidableEq κ] {external : Store κ → Option Buffer × Store κ} {p caller : Address}
  {now : Vector UInt8 32}

theorem Within.set (h : Within sys r s) (hp : p ∈ r.entries.map Prod.snd) {k : κ}
    (hk : ∀ n ∈ kept, slotKey sys.base n ≠ k) (v : U256) : Within sys r (s.set (p, k) v) := by
  obtain ⟨r', ⟨es, hes⟩, h⟩ := h
  refine ⟨r', ⟨es, hes⟩, ?_⟩
  have hp' : p ∈ s.world.pairs := by
    rw [h.created, ← hes, List.map_append]
    exact List.mem_append_left _ hp
  have hne : sys.factory ≠ p := fun he => h.outside (he ▸ hp')
  refine h.of_eq rfl (registry_set_of_ne hne s k v) fun q _ n hn => ?_
  by_cases hq : q = p
  · subst q
    exact cells_set_key (hk n hn) s v
  · rw [cells_set_of_ne hq]

variable (free : FreeKeccak sys.base) (hext : ∀ r s, Within sys r s → Within sys r (external s).2)

include free hext

theorem stable_pair (hp : p ∈ r.entries.map Prod.snd) :
    Stable (pairApi sys external p caller now) (Within sys r) (fun _ => True) where
  balance s a v h := h.set hp (fun n _ he => free.separated.balance_slot a n he.symm) v
  allowance s o q v h := h.set hp (fun n _ he => free.separated.allowance_slot o q n he.symm) v
  failed _ _ := trivial
  supply s v h := h.set hp (fun n hn he => by
    obtain rfl := slotKey_injective sys.base he
    exact absurd hn (by decide)) v
  reserves s v h := h.set hp (fun n hn he => by
    obtain rfl := slotKey_injective sys.base he
    exact absurd hn (by decide)) v
  token _ _ s h := hext r s h
  rejected _ _ := trivial

theorem callPair_within {callData : Buffer} (h : Within sys r s) :
    Within sys r (callPair sys external p caller now callData s).2 := by
  obtain ⟨r', hr, h⟩ := h
  unfold callPair
  split
  · rename_i hp
    refine frame_within (h.within.mono hr) fun output t hc => ?_
    have hp' : p ∈ r'.entries.map Prod.snd := (h.created p).mp hp
    have st : Stable (pairApi sys external p caller now) (Within sys r') (fun _ => True) :=
      stable_pair free hext hp'
    obtain ⟨-, f, -, hrun⟩ := call_ok.mp hc
    have hlock (u : Store κ) (v : U256) (hu : Within sys r' u) :
        Within sys r' (u.set (slotKey (pairApi sys external p caller now) slotUnlocked) v) := by
      refine hu.set hp' (fun n hn he => ?_) v
      obtain rfl := slotKey_injective sys.base he
      exact absurd hn (by decide)
    cases hg : f.guarded with
    | false => exact ((st.toUnaffected.run hg).of_ok h.within hrun).mono hr
    | true =>
        by_cases hi : f = .initializePair
        · subst f
          obtain ⟨_, hi, -⟩ := bind_pure_ok.mp hrun
          obtain ⟨-, -, -, h0, -⟩ := initializePair_slots hi
          have hz : token0Of sys s p = 0 := by
            rw [token0Of, show cells sys p s slotToken0 = 0 from h0]
            rfl
          exact absurd hz (h.token0_ne hp)
        · obtain ⟨u, hu, rfl⟩ := (st.run hg hi).of_ok ⟨trivial, fun _ => hlock s 0 h.within⟩ hrun
          exact (hlock u 1 hu).mono hr
  · exact h.within.mono hr

end Pairs

section Creation

variable [DecidableEq κ] {external : Store κ → Option Buffer × Store κ} {p caller : Address}
  {now : Vector UInt8 32}

def constructed (sys : Setup κ W) (s : Store κ) (p : Address) (rest : List Address) : Store κ :=
  ((opened s p rest).set (p, slotKey sys.base Pair.slotFactory) (padAddress sys.factory)).set
    (p, slotKey sys.base slotUnlocked) 1

theorem instantiatePair_some {input : Buffer} (h : instantiatePair sys now input s = (some p, t)) :
    p ≠ 0 ∧ p ≠ sys.factory ∧ p ∉ s.world.pairs ∧ ∃ rest, constructed sys s p rest = t := by
  unfold instantiatePair at h
  split at h
  · cases h
  · rename_i q rest hsupply
    split at h
    · rename_i hq
      obtain ⟨hp, ht⟩ := Prod.ext_iff.mp h
      obtain rfl : q = p := Option.some.inj hp
      exact ⟨hq.2.1, hq.2.2.1, hq.2.2.2, rest, ht⟩
    · cases h

def initialized (sys : Setup κ W) (s : Store κ) (p token0 token1 : Address) : Store κ :=
  (((s.set (p, slotKey sys.base slotUnlocked) 0).set (p, slotKey sys.base slotToken0)
    (padAddress token0)).set (p, slotKey sys.base slotToken1) (padAddress token1)).set
    (p, slotKey sys.base slotUnlocked) 1

def Decodes (abi : PairAbi) : Prop := ∀ token0 token1,
  abi.initializeCall (initializeData token0 token1) = some { token0 := token0, token1 := token1 }

theorem callPair_initialize (decodes : Decodes sys.pairAbi) {token0 token1 : Address} {output : Buffer}
    (h : callPair sys external p caller now (encodeInitialize token0 token1) s = (some output, t)) :
    initialized sys s p token0 token1 = t := by
  unfold callPair frame at h
  split at h
  · split at h
    · rename_i hc
      obtain ⟨-, rfl⟩ := Prod.mk.inj h
      obtain ⟨-, f, hf, hrun⟩ := call_ok.mp hc
      rw [encodeInitialize_eq, initializeData, pairFn_encodeCall] at hf
      obtain rfl := Option.some.inj hf
      obtain ⟨_, hi, -⟩ := bind_pure_ok.mp hrun
      obtain ⟨-, decoded, hd, -, rfl⟩ := initializePair_ok.mp hi
      rw [encodeInitialize_eq, decodes] at hd
      obtain rfl := Option.some.inj hd
      rfl
    · cases h
  · cases h

theorem cells_set_slot (p : Address) (s : Store κ) (n : U32) (v : U256) :
    cells sys p (s.set (p, slotKey sys.base n) v) = Function.update (cells sys p s) n v :=
  slots_set_slot s n v

def fixedSlots (sys : Setup κ W) (token0 token1 : Address) : U32 → U256 :=
  Function.update (Function.update (Function.update (Function.update (fun _ => 0) Pair.slotFactory
    (padAddress sys.factory)) slotToken0 (padAddress token0)) slotToken1 (padAddress token1)) slotUnlocked 1

theorem cells_created (p token0 token1 : Address) (rest : List Address) (q : Address) :
    cells sys q (initialized sys (constructed sys s p rest) p token0 token1) =
      if q = p then fixedSlots sys token0 token1 else cells sys q s := by
  split
  · rename_i h
    subst q
    have ho : cells sys p (opened s p rest) = fun _ => 0 := funext fun n => if_pos rfl
    rw [initialized, constructed, cells_set_slot, cells_set_slot, cells_set_slot, cells_set_slot,
      cells_set_slot, cells_set_slot, ho]
    funext n
    simp only [fixedSlots, Function.update_apply]
    split <;> rfl
  · rename_i h
    have ho : cells sys q (opened s p rest) = cells sys q s := funext fun n => if_neg h
    rw [initialized, constructed, cells_set_of_ne h, cells_set_of_ne h, cells_set_of_ne h,
      cells_set_of_ne h, cells_set_of_ne h, cells_set_of_ne h, ho]

theorem registry_initialized (hp : sys.factory ≠ p) (token0 token1 : Address) :
    Exchange.registry sys (initialized sys s p token0 token1) = Exchange.registry sys s := by
  rw [initialized, registry_set_of_ne hp, registry_set_of_ne hp, registry_set_of_ne hp,
    registry_set_of_ne hp]

theorem registry_constructed (hp : sys.factory ≠ p) (rest : List Address) :
    Exchange.registry sys (constructed sys s p rest) = Exchange.registry sys s := by
  have ho (k : κ) : (opened s p rest).storage (sys.factory, k) = s.storage (sys.factory, k) := if_neg hp
  have hopen : Exchange.registry sys (opened s p rest) = Exchange.registry sys s := by
    simp only [Exchange.registry, view, View.mk.injEq]
    exact ⟨ho _, funext fun _ => congrArg lowAddress (ho _),
      funext fun _ => funext fun _ => congrArg lowAddress (ho _)⟩
  rw [constructed, registry_set_of_ne hp, registry_set_of_ne hp, hopen]

/-- The pair contract is one of those whose instantiation leaves the registry alone. -/
theorem freshInstances_factory (decodes : Decodes sys.pairAbi) :
    FactoryRegistry.FreshInstances (factoryApi sys external caller now)
      (fun w => {a | a ∈ w.pairs ∨ a = sys.factory}) where
  instantiate {input s a t} h := by
    obtain ⟨ha, haf, hnew, rest, rfl⟩ := instantiatePair_some h
    refine ⟨ha, not_or.mpr ⟨hnew, haf⟩, ?_, registry_constructed haf.symm rest⟩
    rintro b (rfl | hb | hb)
    · exact .inl (List.mem_cons_self ..)
    · exact .inl (List.mem_cons_of_mem _ hb)
    · exact .inr hb
  call {input s a t token0 token1 output u} hi hc := by
    obtain ⟨-, haf, -, -⟩ := instantiatePair_some hi
    obtain rfl := callPair_initialize decodes hc
    exact ⟨subset_rfl, registry_initialized haf.symm token0 token1⟩

theorem cells_registered {q : Address} (hq : q ≠ sys.factory) (token0 token1 : Address) :
    cells sys q (registered (factoryApi sys external caller now) s token0 token1 p) = cells sys q s := by
  have hset (u : Store κ) (k : κ) (v : U256) : cells sys q (u.set (sys.factory, k) v) = cells sys q u :=
    cells_set_of_ne hq u k v
  exact (hset _ _ _).trans ((hset _ _ _).trans ((hset _ _ _).trans (hset _ _ _)))

theorem registry_registered (free : FreeKeccak sys.base) (token0 token1 : Address) :
    Exchange.registry sys (registered (factoryApi sys external caller now) s token0 token1 p) =
      (Exchange.registry sys s).register token0 token1 p := by
  have apart : Apart (account sys sys.factory caller now) := apart_account free
  exact view_registered apart s token0 token1 p

omit [DecidableEq κ] in
theorem matches_of_fixedSlots {e : Sym2 Address × Address} {token0 token1 : Address} (hlt : token0 < token1)
    (he : e.1 = s(token0, token1)) (hc : cells sys e.2 t = fixedSlots sys token0 token1) :
    Matches sys t e := by
  have hf : factoryOf sys t e.2 = sys.factory := by
    rw [factoryOf, hc]
    exact lowAddress_padAddress _
  have h0 : token0Of sys t e.2 = token0 := by
    rw [token0Of, hc]
    exact lowAddress_padAddress _
  have h1 : token1Of sys t e.2 = token1 := by
    rw [token1Of, hc]
    exact lowAddress_padAddress _
  refine ⟨hf, ?_, ?_⟩
  · rw [h0, h1]
    exact hlt
  · rw [h0, h1]
    exact he

theorem Agree.createPair (free : FreeKeccak sys.base) (decodes : Decodes sys.pairAbi) {abi : FactoryAbi}
    {callData : Buffer} (h : Agree sys s r)
    (hc : createPair (factoryApi sys external caller now) abi callData s = .ok p t) : Within sys r t := by
  have hview : Refines (view (factoryApi sys external caller now) s) r := h.registry
  obtain ⟨token0, token1, u, v, output, hlt, hent, hi, hcall, rfl⟩ := createPair_enters hview hc
  obtain ⟨hp, hpf, hnew, rest, rfl⟩ := instantiatePair_some hi
  obtain rfl := callPair_initialize decodes hcall
  have hunknown : p ∉ r.entries.map Prod.snd := mt (h.created p).mpr hnew
  have he := hent hp hunknown
  refine ⟨r.enter he, List.prefix_append .., ?_⟩
  let t := registered (factoryApi sys external caller now)
    (initialized sys (constructed sys s p rest) p token0 token1) token0 token1 p
  have hcells {q : Address} (hq : q ≠ sys.factory) :
      cells sys q t = if q = p then fixedSlots sys token0 token1 else cells sys q s :=
    (cells_registered hq token0 token1).trans (cells_created p token0 token1 rest q)
  change Agree sys t (r.enter he)
  refine { registry := ?_, created := ?_, outside := ?_, matched := ?_ }
  · rw [registry_registered free, registry_initialized hpf.symm, registry_constructed hpf.symm]
    exact h.registry.register he
  · intro q
    change q ∈ p :: s.world.pairs ↔ _
    rw [enter_entries, List.map_append, List.mem_append, List.mem_cons, h.created]
    simp [or_comm]
  · change sys.factory ∉ p :: s.world.pairs
    exact List.not_mem_cons_of_ne_of_not_mem hpf.symm h.outside
  · intro e hmem
    rw [enter_entries] at hmem
    rcases List.mem_append.mp hmem with hmem | hmem
    · have hin : e.2 ∈ s.world.pairs := (h.created _).mpr (List.mem_map_of_mem hmem)
      have hne : e.2 ≠ p := fun heq => hnew (heq ▸ hin)
      have hnf : e.2 ≠ sys.factory := fun heq => h.outside (heq ▸ hin)
      refine (h.matched e hmem).of_cells fun n _ => ?_
      rw [hcells hnf, if_neg hne]
    · obtain rfl := List.mem_singleton.mp hmem
      refine matches_of_fixedSlots hlt rfl ?_
      rw [hcells hpf, if_pos rfl]

end Creation

section Run

variable [DecidableEq κ] (free : FreeKeccak sys.base) (decodes : Decodes sys.pairAbi)

include free decodes

theorem Agree.executed {external : Store κ → Option Buffer × Store κ} {caller : Address}
    {now : Vector UInt8 32} {abi : FactoryAbi} {callData : Buffer} {f : FactoryFn} (h : Agree sys s r)
    (hx : FactorySpec.Executed (factoryApi sys external caller now) abi callData s t f) :
    Within sys r t := by
  cases hx with
  | view _ => exact h.within
  | fee slot v hslot _ =>
      have hne : slot ≠ slotAllPairs := by
        rintro rfl
        exact absurd hslot (by decide)
      have apart : Apart (account sys sys.factory caller now) := apart_account free
      have hreg : Exchange.registry sys (s.set (sys.factory, slotKey sys.base slot) v) =
          Exchange.registry sys s := view_set_slot apart s hne v
      have hset : Agree sys (s.set (sys.factory, slotKey sys.base slot) v) r := by
        refine h.of_eq rfl hreg fun p hp n _ => ?_
        have hpf : p ≠ sys.factory := fun heq => h.outside (heq ▸ hp)
        exact congrFun (cells_set_of_ne hpf s (slotKey sys.base slot) v) n
      exact hset.within
  | createPair hc => exact h.createPair free decodes hc

theorem enter_within {external : Store κ → Option Buffer × Store κ}
    (hext : ∀ r s, Within sys r s → Within sys r (external s).2) (tx : Tx Reaction)
    (h : Within sys r s) : Within sys r (enter sys external s tx) := by
  have hs : Within sys r { s with world := { s.world with script := tx.script } } := h.scripted
  unfold enter
  apply Within.scripted
  cases tx.target with
  | factory =>
      refine frame_within hs fun output t hc => ?_
      obtain ⟨f, -, hx⟩ := executed_of_call hc
      obtain ⟨r', hr, hs⟩ := hs
      exact (hs.executed free decodes hx).mono hr
  | pair p => exact callPair_within free hext hs

theorem calls_within {external : Store κ → Option Buffer × Store κ}
    (hext : ∀ r s, Within sys r s → Within sys r (external s).2) (calls : List (Tx Reaction))
    (h : Within sys r s) : Within sys r (calls.foldl (enter sys external) s) := by
  induction calls generalizing s with
  | nil => exact h
  | cons c calls ih => exact ih (enter_within free decodes hext c h)

theorem external_within (n : Nat) (r : Book) (s : Store κ) (h : Within sys r s) :
    Within sys r (external sys n s).2 := by
  induction n generalizing r s with
  | zero => exact h
  | succ n ih =>
      unfold external react
      split
      · exact h
      · rename_i calls reply rest _
        cases reply with
        | some output => exact calls_within free decodes ih calls h.scripted
        | none =>
            obtain ⟨r', hr, h⟩ := h
            exact ⟨r', hr, h.undone _⟩

omit free decodes in
theorem agree_deployed (free : FreeKeccak sys.base) (setter : U256) (supply : List Address) :
    Agree sys (deployed sys setter supply) Book.empty := by
  have apart : Apart (account sys sys.factory sys.factory (Vector.replicate 32 0)) := apart_account free
  have hworld : (deployed sys setter supply).world.pairs = [] := by
    rw [deployed, FactoryRegistry.deployed_world]
  refine { registry := ?_, created := ?_, outside := ?_, matched := ?_ }
  · have hrec : FactoryRegistry.Records _ (fun _ => ∅) (deployed sys setter supply) Book.empty :=
      FactoryRegistry.records_deployed apart _ _
    rw [registry_eq_view]
    exact hrec.refines
  · intro p
    rw [hworld]
    exact Iff.rfl
  · rw [hworld]
    exact List.not_mem_nil
  · intro e he
    exact absurd he List.not_mem_nil

theorem run_within (n : Nat) (txs : List (Tx Reaction)) (h : Agree sys s r) :
    ∀ t ∈ states (step sys n) txs s, Within sys r t :=
  invariant_states (C := fun _ _ => True)
    (fun tx _ _ hu => enter_within free decodes (external_within free decodes n) tx hu) txs h.within
    (steps_true ..)

end Run

section Agreed

/-- The factory and its pair `p` tell the same. -/
structure Agrees (sys : Setup κ W) (s : Store κ) (p : Address) : Prop where
  factory : factoryOf sys s p = sys.factory
  token0 : token0Of sys s p ≠ 0
  sorted : addressBytes (token0Of sys s p) < addressBytes (token1Of sys s p)
  getPair : (Exchange.registry sys s).reported (token0Of sys s p) (token1Of sys s p) = p ∧
    (Exchange.registry sys s).reported (token1Of sys s p) (token0Of sys s p) = p

theorem Agree.agrees (h : Agree sys s r) {e : Sym2 Address × Address} (he : e ∈ r.entries) :
    Agrees sys s e.2 := by
  have hm := h.matched e he
  have hin : e.2 ∈ s.world.pairs := (h.created _).mpr (List.mem_map_of_mem he)
  have hl : r.lookup s(token0Of sys s e.2, token1Of sys s e.2) = some e.2 := by
    rw [← hm.tokens]
    exact Registry.lookup_eq_some.mpr he
  have hg : (Exchange.registry sys s).reported (token0Of sys s e.2) (token1Of sys s e.2) = e.2 := by
    rw [h.registry.reported, hl, Option.getD_some]
  exact ⟨hm.factory, h.token0_ne hin, addressBytes_lt.mpr hm.sorted, hg,
    (View.reported_comm _ _ _).trans hg⟩

theorem Matches.tokens_eq {e : Sym2 Address × Address} (h : Matches sys s e) (h' : Matches sys t e) :
    token0Of sys t e.2 = token0Of sys s e.2 ∧ token1Of sys t e.2 = token1Of sys s e.2 := by
  rcases Sym2.eq_iff.mp (h'.tokens.symm.trans h.tokens) with heq | ⟨h0, h1⟩
  · exact heq
  · have hlt := h'.sorted
    rw [h0, h1] at hlt
    exact absurd hlt (BitVec.lt_asymm h.sorted)

variable [DecidableEq κ]

/-- In every state the system can reach, each registered pair agrees with the
factory, and it does so ever after over the same tokens. -/
theorem factory_pairs_agree (free : FreeKeccak sys.base) (decodes : Decodes sys.pairAbi) (n : Nat)
    (setter : U256) (supply : List Address) (txs : List (Tx Reaction)) :
    ∀ s ∈ states (step sys n) txs (deployed sys setter supply),
    ∀ i < (Exchange.registry sys s).length.toNat,
      let p := (Exchange.registry sys s).allPairs (BitVec.ofNat 256 i)
      Agrees sys s p ∧ ∀ later, ∀ t ∈ states (step sys n) later s,
        i < (Exchange.registry sys t).length.toNat ∧
        (Exchange.registry sys t).allPairs (BitVec.ofNat 256 i) = p ∧ Agrees sys t p ∧
        token0Of sys t p = token0Of sys s p ∧ token1Of sys t p = token1Of sys s p := by
  intro s hs i hi p
  obtain ⟨r, -, h⟩ := run_within free decodes n txs (agree_deployed free setter supply) s hs
  obtain ⟨e, he, hp, -⟩ := h.registry.entry hi
  have hmem := List.mem_of_getElem? he
  have hpe : p = e.2 := hp
  rw [hpe]
  refine ⟨h.agrees hmem, fun later t ht => ?_⟩
  obtain ⟨r', hr, h'⟩ := run_within free decodes n later h t ht
  have hext := h.registry.extends h'.registry hr
  have hmem' := hr.subset hmem
  refine ⟨hi.trans_le hext.length, (hext.allPairs i hi).trans hp, h'.agrees hmem', ?_⟩
  exact (h.matched e hmem).tokens_eq (h'.matched e hmem')

end Agreed

section Sample

theorem decodes_standardAbi : Decodes standardAbi := by
  intro token0 token1
  have hs := selector_length .initializePair
  simp only [standardAbi, initializeData]
  rw [addressAt_encodeCall hs rfl, addressAt_encodeCall hs rfl]
  rfl

def sampleSetup : Setup Key (List Address) where
  base := FactoryRegistry.supplyApi
  pairAbi := standardAbi
  factoryAbi := standardFactoryAbi
  factory := 8
  codeHash := 1

def sampleTx (target : Target) (callData : Buffer) : Tx Reaction where
  target := target
  caller := 5
  now := Vector.replicate 32 0
  callData := callData
  script := []

theorem factory_pairs_agree_sample :
    let txs := [sampleTx .factory (createPairData 2 1), sampleTx (.pair 20) (initializeData 4 5),
      sampleTx .factory (createPairData 1 3)]
    let s := txs.foldl (fun s tx => step sampleSetup 1 tx s) (deployed sampleSetup 7 [20, 21])
    (Exchange.registry sampleSetup s).length = 2 ∧ Agrees sampleSetup s 20 ∧ Agrees sampleSetup s 21 := by
  intro txs s
  have free : FreeKeccak sampleSetup.base := freeKeccak_key rfl rfl
  obtain ⟨hlen, hp0, hp1⟩ : (Exchange.registry sampleSetup s).length = 2 ∧
      (Exchange.registry sampleSetup s).allPairs (BitVec.ofNat 256 0) = 20 ∧
      (Exchange.registry sampleSetup s).allPairs (BitVec.ofNat 256 1) = 21 := by decide +kernel
  have h := factory_pairs_agree free decodes_standardAbi 1 7 [20, 21] txs s (foldl_mem_states ..)
  have h0 := (h 0 (by rw [hlen]; decide)).1
  have h1 := (h 1 (by rw [hlen]; decide)).1
  rw [hp0] at h0
  rw [hp1] at h1
  exact ⟨hlen, h0, h1⟩

end Sample

end RiscVContracts.Agreement
