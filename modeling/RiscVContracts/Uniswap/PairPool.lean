import RiscVContracts.Uniswap.Allowances
import RiscVContracts.Uniswap.Pool

namespace RiscVContracts.PairPool

open Programs Bytes Host Storage Pair PairView PairSpec PairSlots Calldata Symbolic Tokens Runs ShareValue
  Commits Supply SwapPrice Redemption FirstMints Allowances ReserveCodec Simulation Outcomes Pools

section Represents

variable {κ W : Type} {api : Api κ W} {view : W → Ledger} {tokens : Set Address} {lock : U256}
  {s t : State κ W} {p : Pool}

def moving : List U32 := [slotReserves, slotTotalSupply, slotUnlocked]

def standing (p : Pool) (n : U32) : U256 :=
  if n = slotFactory then padAddress p.factory
  else if n = slotToken0 then padAddress p.token0
  else if n = slotToken1 then padAddress p.token1
  else 0

/-- The storage of the pair and its balances of the tokens are those of the pool. -/
structure Represents (api : Api κ W) (view : W → Ledger) (tokens : Set Address) (lock : U256)
    (s : State κ W) (p : Pool) : Prop where
  account : api.address = p.account
  standing : ∀ n, n ∉ moving → slots api s n = standing p n
  reserves : reserves api s = p.reserves
  supply : totalSupply api s = p.supply
  lock : slots api s slotUnlocked = lock
  shares : lp api s = p.shares
  allowed : allowance api s = p.allowed
  ledger : view s.world = p.ledger
  known0 : p.token0 ∈ tokens
  known1 : p.token1 ∈ tokens
  token0_ne : p.token0 ≠ 0

section Reads

variable (h : Represents api view tokens lock s p)

include h

theorem Represents.token0 : token0 api s = p.token0 := by
  rw [PairView.token0, h.standing slotToken0 (by decide)]
  exact lowAddress_padAddress _

theorem Represents.token1 : token1 api s = p.token1 := by
  rw [PairView.token1, h.standing slotToken1 (by decide)]
  exact lowAddress_padAddress _

theorem Represents.with_ledger {ledger : Ledger} (hs : t.storage = s.storage) (hv : view t.world = ledger) :
    Represents api view tokens lock t { p with ledger := ledger } := by
  have hslots : slots api t = slots api s := funext fun _ => congrFun hs _
  refine ⟨h.account, hslots ▸ h.standing, ?_, ?_, hslots ▸ h.lock, ?_, ?_, hv, h.known0, h.known1,
    h.token0_ne⟩
  · rw [PairView.reserves, hslots]
    exact h.reserves
  · rw [totalSupply, hslots]
    exact h.supply
  · rw [lp_of_storage hs, h.shares]
  · rw [← h.allowed]
    exact funext fun _ => funext fun _ => congrFun hs _

theorem Represents.of_storage (hs : t.storage = s.storage) (hv : view t.world = view s.world) :
    Represents api view tokens lock t p := h.with_ledger hs (hv.trans h.ledger)

end Reads

section Writes

variable [DecidableEq κ] (h : Represents api view tokens lock s p)

include h

theorem Represents.set_slot (sep : Separated api) {n : U32} (hn : n ∈ moving) (v : U256) :
    Represents api view tokens (Function.update (slots api s) n v slotUnlocked) (s.set (slotKey api n) v)
      { p with
        reserves := unpackReserves (Function.update (slots api s) n v slotReserves)
        supply := Function.update (slots api s) n v slotTotalSupply } := by
  have hsl : slots api (s.set (slotKey api n) v) = Function.update (slots api s) n v := slots_set_slot s n v
  refine ⟨h.account, fun m hm => ?_, congrArg unpackReserves (congrFun hsl _), congrFun hsl _,
    congrFun hsl _, (lp_set_slot sep s n v).trans h.shares, (allowance_set_slot sep s n v).trans h.allowed,
    h.ledger, h.known0, h.known1, h.token0_ne⟩
  have hne : m ≠ n := fun he => hm (he.symm ▸ hn)
  rw [hsl, Function.update_of_ne hne]
  exact h.standing m hm

theorem Represents.set_lock (sep : Separated api) (v : U256) :
    Represents api view tokens v (s.set (slotKey api slotUnlocked) v) p := by
  have hs := h.set_slot sep (n := slotUnlocked) (by decide) v
  have hr : unpackReserves (slots api s slotReserves) = p.reserves := h.reserves
  have hts : slots api s slotTotalSupply = p.supply := h.supply
  rwa [Function.update_self, Function.update_of_ne (by decide), Function.update_of_ne (by decide), hr,
    hts] at hs

theorem Represents.set_supply (sep : Separated api) (v : U256) :
    Represents api view tokens lock (s.set (slotKey api slotTotalSupply) v) { p with supply := v } := by
  have hs := h.set_slot sep (n := slotTotalSupply) (by decide) v
  have hr : unpackReserves (slots api s slotReserves) = p.reserves := h.reserves
  rwa [Function.update_self, Function.update_of_ne (by decide), Function.update_of_ne (by decide), hr,
    h.lock] at hs

theorem Represents.set_reserves (sep : Separated api) (r0 r1 : U128) (ts : U32) :
    Represents api view tokens lock (s.set (slotKey api slotReserves) (packReserves r0 r1 ts))
      { p with reserves := noted r0 r1 ts } := by
  have hs := h.set_slot sep (n := slotReserves) (by decide) (packReserves r0 r1 ts)
  have hts : slots api s slotTotalSupply = p.supply := h.supply
  rwa [Function.update_self, Function.update_of_ne (by decide), Function.update_of_ne (by decide),
    unpackReserves_packReserves, hts, h.lock] at hs

theorem Represents.set_balance (sep : Separated api) (a : Address) (v : U256) :
    Represents api view tokens lock (s.set (mappingKey1 api slotBalanceOf a) v)
      { p with shares := Function.update p.shares a v } := by
  have hslots : slots api (s.set (mappingKey1 api slotBalanceOf a) v) = slots api s :=
    slots_set_balance sep s a v
  refine ⟨h.account, hslots ▸ h.standing, ?_, ?_, hslots ▸ h.lock, ?_, ?_, h.ledger, h.known0, h.known1,
    h.token0_ne⟩
  · rw [PairView.reserves, hslots]
    exact h.reserves
  · rw [totalSupply, hslots]
    exact h.supply
  · rw [lp_set_balance sep, h.shares]
  · rw [allowance_set_balance sep, h.allowed]

theorem Represents.set_allowance (cells : Distinct api) (o a : Address) (v : U256) :
    Represents api view tokens lock (s.set (mappingKey2 api slotAllowance o a) v) (p.allowing o a v) := by
  have sep := cells.toSeparated
  have hslots : slots api (s.set (mappingKey2 api slotAllowance o a) v) = slots api s :=
    slots_set_allowance sep s o a v
  refine ⟨h.account, hslots ▸ h.standing, ?_, ?_, hslots ▸ h.lock, ?_, ?_, h.ledger, h.known0, h.known1,
    h.token0_ne⟩
  · rw [PairView.reserves, hslots]
    exact h.reserves
  · rw [totalSupply, hslots]
    exact h.supply
  · rw [lp_set_allowance sep, h.shares]
    rfl
  · funext o' a'
    rw [allowance_set_allowance cells, h.allowed]
    change _ = Function.update p.allowed o (Function.update (p.allowed o) a v) o' a'
    by_cases ho : o' = o
    · subst o'
      by_cases ha : a' = a
      · subst a'
        rw [if_pos ⟨rfl, rfl⟩, Function.update_self, Function.update_self]
      · rw [if_neg fun he => ha he.2, Function.update_self, Function.update_of_ne ha]
    · rw [if_neg fun he => ho he.1, Function.update_of_ne ho]

end Writes

end Represents

section Steps

variable {κ W β : Type} [DecidableEq κ] {api : Api κ W} {view : W → Ledger} {tokens : Set Address}
  {lock : U256} {R : State κ W → Pool → Prop} {s t : State κ W} {p : Pool} {o : Option (β × Pool)}

theorem comes_reject {c : Prop} [Decidable c] {f : Unit → Program κ W β} (hc : c → o = none)
    (hf : ¬ c → ComesTo R (f () s) o) : ComesTo R ((rejectIf api c >>= f) s) o :=
  .check (fun _ _ => by rw [rejectIf_ok]; simp only [true_and]) (fun h => hc (not_not.mp h)) hf

omit [DecidableEq κ] in
theorem comes_decode {α : Type} {a : Option α} {f : α → Program κ W β} {g : α → Option (β × Pool)}
    (hf : ∀ x, ComesTo R (f x s) (g x)) : ComesTo R ((orRevert a >>= f) s) (a.bind g) := by
  cases a with
  | none => exact .fail fun _ _ => revert_ok
  | some x => exact .step (orRevert_ok.mpr ⟨rfl, rfl⟩) (hf x)

section Tokens

variable (exact : ExactTokens api view tokens) (alone : NoCallback api)
  (h : Represents api view tokens lock s p)

include exact alone h

omit [DecidableEq κ] in
theorem comes_transfer {token : Address} (ht : token ∈ tokens) (recipient : Address) (v : U256) :
    ComesTo (Represents api view tokens lock) (safeTransfer api token recipient v s)
      ((p.pays token recipient v).map (Prod.mk ())) := by
  have hheld : view s.world token api.address = p.ledger token p.account := by rw [h.ledger, h.account]
  rw [Pool.pays]
  by_cases hv : v ≤ p.ledger token p.account
  · rw [if_pos hv]
    rw [← hheld] at hv
    obtain ⟨t, hx, hp⟩ := safeTransfer_exact (s := s) exact ht recipient hv
    refine ⟨t, hx, h.with_ledger (safeTransfer_storage alone hx) ?_⟩
    rw [update_of_paid hp, h.ledger, h.account]
  · rw [if_neg hv]
    rw [← hheld] at hv
    intro u t hx
    obtain ⟨output, hc⟩ := safeTransfer_ok.mp hx
    obtain ⟨t', hc'⟩ := exact.refuse token ht recipient v s hv
    rw [hc', Prod.mk.injEq] at hc
    cases hc.1

omit [DecidableEq κ] in
theorem comes_payout {token : Address} (ht : token ∈ tokens) (recipient : Address) (v : U256) :
    ComesTo (Represents api view tokens lock) (payout api token recipient v s)
      ((p.pays token recipient v).map (Prod.mk ())) := by
  by_cases hv : v = 0
  · subst v
    rw [p.pays_zero]
    exact ⟨s, payout_ok.mpr (.inl ⟨rfl, rfl⟩), h⟩
  · have hpos : 0 < v := BitVec.lt_def.mpr (Nat.pos_of_ne_zero fun h0 => hv (BitVec.eq_of_toNat_eq h0))
    rw [payout, if_pos hpos]
    exact comes_transfer exact alone h ht recipient v

omit [DecidableEq κ] in
theorem observes : ∃ t, observeBalances api p.token0 p.token1 s = .ok p.held t ∧
    Represents api view tokens lock t p := by
  obtain ⟨t, ht⟩ := observeBalances_exact exact h.known0 h.known1 s
  obtain ⟨-, -, hv⟩ := observeBalances_view (paying_of_exact exact).toStandardTokens h.known0 h.known1 ht
  rw [h.ledger, h.account] at ht
  exact ⟨t, ht, h.of_storage (observeBalances_storage alone ht) hv⟩

end Tokens

section Settling

variable (sep : Separated api) (h : Represents api view tokens lock s p)

include sep h

theorem comes_settle : ComesTo (Represents api view tokens lock) (updateReserves api p.held s)
    ((p.settles (clock api)).map (Prod.mk ())) := by
  have hnone (hn : ¬ (p.Fits ∧ (clock api).toNat < 2 ^ 32)) :
      (p.settles (clock api)).map (Prod.mk ()) = none := by
    rw [Pool.settles, if_neg hn]
    rfl
  refine .check (fun _ _ => toUint_ok) (fun h0 => hnone fun hn => h0 hn.1.1) fun h0 => ?_
  refine .check (fun _ _ => toUint_ok) (fun h1 => hnone fun hn => h1 hn.1.2) fun h1 => ?_
  refine .check (fun _ _ => nowSecs_ok) (fun hc => hnone fun hn => hc hn.2) fun hc => ?_
  rw [Pool.settles, if_pos ⟨⟨h0, h1⟩, hc⟩]
  exact ⟨_, rfl, h.set_reserves sep _ _ _⟩

omit h in
theorem comes_unlock {x : Program κ W Unit} {o : Option Pool}
    (hx : ComesTo (Represents api view tokens lock) (x t) (o.map (Prod.mk ()))) :
    ComesTo (Represents api view tokens 1) ((x >>= fun _ => setUnlocked api) t) (o.map (Prod.mk ())) := by
  have hc := hx.close (f := fun _ => setUnlocked api) (g := id) fun _ u q hq => ⟨_, rfl, hq.set_lock sep 1⟩
  rwa [Option.map_map] at hc

omit h in
theorem comes_guarded {α : Type} {a : Option α} {f : α → Program κ W β} {g : α → Option (β × Pool)}
    (h : Represents api view tokens 1 s p)
    (hf : ∀ x t, Represents api view tokens 0 t p → ComesTo R (f x t) (g x)) :
    ComesTo R ((requireUnlocked api >>= fun _ => orRevert a >>= f) s) (a.bind g) :=
  .step (a := ()) (requireUnlocked_ok.mpr ⟨h.lock, rfl⟩) (comes_decode fun x => hf x _ (h.set_lock sep 0))

end Settling

end Steps

section Functions

variable {κ W : Type} [DecidableEq κ] {api : Api κ W} {abi : PairAbi} {callData : Buffer}
  {view : W → Ledger} {tokens : Set Address} {lock : U256} {s : State κ W} {p : Pool}

section Reads

variable (h : Represents api view tokens lock s p)

include h

omit [DecidableEq κ] in
theorem reads_reserves : getReserves api s = .ok p.reserves s := getReserves_ok.mpr ⟨h.reserves, rfl⟩

omit [DecidableEq κ] in
theorem reads_token0 : getToken0 api s = .ok p.token0 s := getToken0_ok.mpr ⟨h.token0, rfl⟩

omit [DecidableEq κ] in
theorem reads_token1 : getToken1 api s = .ok p.token1 s := getToken1_ok.mpr ⟨h.token1, rfl⟩

omit [DecidableEq κ] in
theorem reads_supply : storageGetU256 api slotTotalSupply s = .ok p.supply s :=
  storageGetU256_ok.mpr ⟨h.supply, rfl⟩

omit [DecidableEq κ] in
theorem reads_balance (a : Address) : getBalance api a s = .ok (p.shares a) s :=
  getBalance_ok.mpr ⟨congrFun h.shares a, rfl⟩

omit [DecidableEq κ] in
theorem reads_allowance (o a : Address) : getAllowance api o a s = .ok (p.allowed o a) s :=
  getAllowance_ok.mpr ⟨congrFun (congrFun h.allowed o) a, rfl⟩

end Reads

section Guarded

variable (exact : ExactTokens api view tokens) (alone : NoCallback api) (sep : Separated api)
  (h : Represents api view tokens 1 s p)

include sep in
theorem comes_issue {x : U256 × U256} (h : Represents api view tokens lock s p) :
    ComesTo (Represents api view tokens lock) (mintLiquidity api p.supply x.1 x.2 p.reserves s)
      ((issue p.supply x p.reserves).map fun l => (l, p.growing l)) := by
  cases hi : issue p.supply x p.reserves with
  | none =>
      intro l t hl
      rw [mintLiquidity_issue.mp ⟨t, hl⟩] at hi
      cases hi
  | some l =>
      obtain ⟨t, ht⟩ : ∃ t, mintLiquidity api p.supply x.1 x.2 p.reserves s = .ok l t :=
        mintLiquidity_issue.mpr hi
      refine ⟨t, ht, ?_⟩
      unfold mintLiquidity at ht
      rw [Pool.growing, supplyAfterMint]
      split at ht
      · rename_i h0
        obtain ⟨liq, -, -, -, rfl⟩ := firstLiquidity_ok.mp ht
        rw [if_pos h0, if_pos h0]
        exact (h.set_supply sep _).set_balance sep _ _
      · rename_i h0
        obtain ⟨-, -, -, -, rfl⟩ := laterLiquidity_ok.mp ht
        rw [if_neg h0, if_neg h0]
        exact h.set_supply sep _

include exact alone sep h

theorem comes_mint : ComesTo (Represents api view tokens 1) (mint api abi callData s)
    ((abi.mintCall callData).bind fun recipient => p.mint recipient (clock api)) := by
  simp only [mint, mintSettle, bind_assoc, pure_bind]
  refine comes_guarded sep h fun recipient t ht => ?_
  refine .step (reads_reserves ht) (.step (reads_token0 ht) (.step (reads_token1 ht) ?_))
  obtain ⟨u, hu, ht⟩ := observes exact alone ht
  refine .step hu (.step (reads_supply ht) ?_)
  refine .bind (comes_issue (x := p.surplus) sep ht) fun l u _ hu => ?_
  refine .step (reads_balance hu recipient) (.step (a := ()) (setBalance_ok.mpr rfl) ?_)
  refine .bind (comes_settle sep (hu.set_balance sep recipient _)) fun q v _ hv => ?_
  exact .step (a := ()) (setUnlocked_ok.mpr rfl) (.pure (hv.set_lock sep 1))

theorem comes_burn : ComesTo (Represents api view tokens 1) (burn api abi callData s)
    ((abi.burnCall callData).bind fun recipient => p.burn recipient (clock api)) := by
  simp only [burn, burnSettle, bind_assoc, pure_bind, h.account]
  refine comes_guarded sep h fun recipient t ht => ?_
  refine .step (reads_balance ht _) (comes_reject (fun h0 => if_pos (.inl h0)) fun h0 => ?_)
  refine .step (reads_supply ht) (.step (reads_token0 ht) (.step (reads_token1 ht) ?_))
  obtain ⟨u, hu, ht⟩ := observes exact alone ht
  refine .step hu (.check (fun _ _ => divU256_ok) (fun hn => if_pos (.inr (.inl (not_not.mp hn)))) fun h1 => ?_)
  refine .check (fun _ _ => divU256_ok) (fun hn => absurd h1 hn) fun _ => ?_
  refine comes_reject (fun hn => if_pos (.inr (.inr hn))) fun h2 => ?_
  have hworth : ¬ p.Worthless := not_or.mpr ⟨h0, not_or.mpr ⟨h1, h2⟩⟩
  rw [Pool.burn, if_neg hworth]
  refine .step (a := ()) (setBalance_ok.mpr rfl) (.step (a := ()) (storageSetU256_ok.mpr rfl) ?_)
  have hr : Represents api view tokens 0 _ p.redeeming := (ht.set_balance sep _ _).set_supply sep _
  refine .bind (comes_transfer exact alone hr ht.known0 recipient _) fun q v hq hv => ?_
  refine .bind (comes_transfer exact alone hv ht.known1 recipient _) fun r w hr hw => ?_
  obtain ⟨-, rfl⟩ := Pool.pays_eq_some.mp hq
  obtain ⟨-, rfl⟩ := Pool.pays_eq_some.mp hr
  obtain ⟨t, ht, hw⟩ := observes exact alone hw
  refine .step ht (.bind (comes_settle sep hw) fun q v _ hv => ?_)
  exact .step (a := ()) (setUnlocked_ok.mpr rfl) (.pure (hv.set_lock sep 1))

theorem comes_swap : ComesTo (Represents api view tokens 1) (swap api abi callData s)
    ((abi.swapCall callData).bind fun order => (p.swap order (clock api)).map (Prod.mk ())) := by
  simp only [swap, swapSettle, bind_assoc, pure_bind]
  refine comes_guarded sep h fun order t ht => ?_
  have hnone (hn : ¬ p.Takes order) : (p.swap order (clock api)).map (Prod.mk ()) = none := by
    rw [Pool.swap, if_neg hn]
    rfl
  refine comes_reject (fun hn => hnone fun ht => ht.1 hn) fun h0 => ?_
  refine .step (reads_reserves ht) (comes_reject (fun hn => hnone fun ht => ?_) fun h1 => ?_)
  · exact hn.elim (BitVec.not_le.mpr ht.2.1) (BitVec.not_le.mpr ht.2.2.1)
  refine .step (reads_token0 ht) (.step (reads_token1 ht) ?_)
  refine comes_reject (fun hn => hnone fun ht => hn.elim ht.2.2.2.1 ht.2.2.2.2) fun h2 => ?_
  obtain ⟨h10, h11⟩ := not_or.mp h1
  have htakes : p.Takes order :=
    ⟨h0, BitVec.not_le.mp h10, BitVec.not_le.mp h11, (not_or.mp h2).1, (not_or.mp h2).2⟩
  simp only [Pool.swap, if_pos htakes, Option.bind_eq_bind, Option.map_bind, Function.comp_def]
  refine .bind (comes_payout exact alone ht ht.known0 order.recipient _) fun q u hq hu => ?_
  refine .bind (comes_payout exact alone hu ht.known1 order.recipient _) fun r v hr hv => ?_
  obtain ⟨-, rfl⟩ := Pool.pays_eq_some.mp hq
  obtain ⟨-, rfl⟩ := Pool.pays_eq_some.mp hr
  obtain ⟨w, hw, hv⟩ := observes exact alone hv
  refine .step hw (comes_reject (fun hn => ?_) fun h3 => comes_reject (fun hn => ?_) fun h4 => ?_)
  · rw [if_neg fun hl => hl.1 hn]
    rfl
  · rw [if_neg fun hl => hl.2 hn]
    rfl
  rw [if_pos ⟨h3, h4⟩]
  exact comes_unlock sep (comes_settle sep hv)

theorem comes_skim : ComesTo (Represents api view tokens 1) (skim api abi callData s)
    ((abi.skimCall callData).bind fun recipient => (p.skim recipient).map (Prod.mk ())) := by
  refine comes_guarded sep h fun recipient t ht => ?_
  refine .step (reads_reserves ht) (.step (reads_token0 ht) (.step (reads_token1 ht) ?_))
  obtain ⟨u, hu, ht⟩ := observes exact alone ht
  refine .step hu ?_
  simp only [Pool.skim, Option.bind_eq_bind, Option.map_bind, Function.comp_def]
  refine .bind (comes_transfer exact alone ht ht.known0 recipient _) fun q v _ hv => ?_
  exact comes_unlock sep (comes_transfer exact alone hv ht.known1 recipient _)

theorem comes_sync : ComesTo (Represents api view tokens 1) (sync api s) (p.sync.map (Prod.mk ())) := by
  simp only [sync, syncSettle, bind_assoc]
  refine .step (a := ()) (requireUnlocked_ok.mpr ⟨h.lock, rfl⟩) ?_
  have ht := h.set_lock sep 0
  refine .step (reads_token0 ht) (.step (reads_token1 ht) ?_)
  obtain ⟨u, hu, ht⟩ := observes exact alone ht
  refine .step hu (.step (reads_reserves ht) ?_)
  have hnone (hn : ¬ p.Fits) : p.sync.map (Prod.mk ()) = none := by
    rw [Pool.sync, if_neg hn]
    rfl
  refine .check (fun _ _ => toUint_ok) (fun h0 => hnone fun hn => h0 hn.1) fun h0 => ?_
  refine .check (fun _ _ => toUint_ok) (fun h1 => hnone fun hn => h1 hn.2) fun h1 => ?_
  rw [Pool.sync, if_pos ⟨h0, h1⟩]
  exact ⟨_, rfl, (ht.set_reserves sep _ _ _).set_lock sep 1⟩

end Guarded

theorem comes_initialize (h : Represents api view tokens 1 s p) :
    ComesTo (Represents api view tokens 1) (initializePair api abi callData s) none := by
  intro u t hx
  obtain ⟨decoded, -, -, h0, -⟩ := initializePair_slots hx
  have hword : slots api s slotToken0 = padAddress p.token0 := h.standing slotToken0 (by decide)
  exact h.token0_ne (padAddress_injective (hword.symm.trans h0))

section Shares

variable (cells : Distinct api) (h : Represents api view tokens lock s p)

include cells h

theorem comes_approve : ComesTo (Represents api view tokens lock) (approve api abi callData s)
    ((abi.approveCall callData).bind fun d => some ((), p.allowing api.caller d.spender d.value)) :=
  comes_decode fun _ => ⟨_, rfl, h.set_allowance cells _ _ _⟩

theorem comes_move (sender recipient : Address) (v : U256) :
    ComesTo (Represents api view tokens lock) (move api sender recipient (p.shares sender) v s)
      (some ((), p.moving sender recipient v)) := by
  have hd := h.set_balance cells.toSeparated sender (p.shares sender - v)
  refine .step (a := ()) (setBalance_ok.mpr rfl) (.step (reads_balance hd recipient) ?_)
  exact ⟨_, rfl, hd.set_balance cells.toSeparated recipient _⟩

theorem comes_spend (owner : Address) (v : U256) :
    ComesTo (Represents api view tokens lock) (spendAllowance api owner (p.allowed owner api.caller) v s)
      (some ((), p.spending owner api.caller v)) := by
  rw [spendAllowance, Pool.spending]
  by_cases hmax : p.allowed owner api.caller = BitVec.allOnes 256
  · rw [if_neg (not_not.mpr hmax), if_pos hmax]
    exact .pure h
  · rw [if_pos hmax, if_neg hmax]
    exact ⟨_, rfl, h.set_allowance cells _ _ _⟩

theorem comes_send : ComesTo (Represents api view tokens lock) (transfer api abi callData s)
    ((abi.transferCall callData).bind fun d =>
      (p.transfer api.caller d.recipient d.value).map (Prod.mk ())) := by
  refine comes_decode fun d => .step (reads_balance h _) ?_
  rw [Pool.transfer]
  by_cases hv : p.shares api.caller < d.value
  · rw [if_pos hv, if_neg (BitVec.not_le.mpr hv)]
    exact fun _ _ => revert_ok
  · rw [if_neg hv, if_pos (BitVec.not_lt.mp hv)]
    exact comes_move cells h _ _ _

theorem comes_sendFrom : ComesTo (Represents api view tokens lock) (transferFrom api abi callData s)
    ((abi.transferFromCall callData).bind fun d =>
      (p.transferFrom api.caller d.sender d.recipient d.value).map (Prod.mk ())) := by
  refine comes_decode fun d => .step (reads_allowance h _ _) ?_
  rw [Pool.transferFrom]
  by_cases ha : p.allowed d.sender api.caller ≠ BitVec.allOnes 256 ∧
      p.allowed d.sender api.caller < d.value
  · rw [if_pos ha, if_neg fun hn => hn.elim ha.1 (BitVec.not_le.mpr ha.2)]
    exact fun _ _ => revert_ok
  · have hallowed : p.allowed d.sender api.caller = BitVec.allOnes 256 ∨
        d.value ≤ p.allowed d.sender api.caller := by
      rw [← BitVec.not_lt]
      tauto
    rw [if_neg ha, if_pos hallowed, Pool.transfer, Pool.spending_shares]
    refine .step (reads_balance h _) ?_
    by_cases hv : p.shares d.sender < d.value
    · rw [if_pos hv, if_neg (BitVec.not_le.mpr hv)]
      exact fun _ _ => revert_ok
    · rw [if_neg hv, if_pos (BitVec.not_lt.mp hv)]
      obtain ⟨t, ht, h'⟩ := comes_spend cells h d.sender d.value
      refine .step ht ?_
      rw [← Pool.spending_shares p d.sender api.caller d.value]
      exact comes_move cells h' _ _ _

end Shares

end Functions

section Calls

def request (abi : PairAbi) (callData : Buffer) : PairFn → Option Request
  | .factory => some .factory
  | .token0 => some .token0
  | .token1 => some .token1
  | .getReserves => some .reserves
  | .totalSupply => some .supply
  | .balanceOf => (abi.balanceOfCall callData).map .shares
  | .allowance => (abi.allowanceCall callData).map fun d => .allowed d.1 d.2
  | .minimumLiquidity => some .minimum
  | .price0CumulativeLast | .price1CumulativeLast | .kLast => some .dormant
  | .initializePair => some .setUp
  | .mint => (abi.mintCall callData).map .mint
  | .burn => (abi.burnCall callData).map .burn
  | .swap => (abi.swapCall callData).map .swap
  | .skim => (abi.skimCall callData).map .skim
  | .sync => some .sync
  | .approve => (abi.approveCall callData).map fun d => .approve d.spender d.value
  | .transfer => (abi.transferCall callData).map fun d => .transfer d.recipient d.value
  | .transferFrom => (abi.transferFromCall callData).map fun d => .transferFrom d.sender d.recipient d.value

def asked (abi : PairAbi) (callData : Buffer) : Option Request :=
  (pairFn callData).bind (request abi callData)

def spoken (words : List U256) : Buffer := words.flatMap toBeBytes

theorem spoken_one (v : U256) : spoken [v] = toBeBytes v := by
  rw [spoken, List.flatMap_singleton]

theorem spoken_two (v w : U256) : spoken [v, w] = toBeBytes v ++ toBeBytes w := by
  simp [spoken]

theorem returnTuple_eq (r : Reserves) :
    returnTuple r = spoken [fromUint r.reserve0, fromUint r.reserve1, fromUint r.ts] := by
  unfold returnTuple
  generalize fromUint r.reserve0 = x
  generalize fromUint r.reserve1 = y
  generalize fromUint r.ts = z
  have h0 : copyFromSlice ([] ++ (zeros 32 ++ (zeros 32 ++ zeros 32))) 0 (toBeBytes x) =
      [] ++ (toBeBytes x ++ (zeros 32 ++ zeros 32)) := copyFromSlice_append rfl (by simp)
  have h1 : copyFromSlice (toBeBytes x ++ (zeros 32 ++ zeros 32)) 32 (toBeBytes y) =
      toBeBytes x ++ (toBeBytes y ++ zeros 32) := copyFromSlice_append (by simp) (by simp)
  have h2 : copyFromSlice ((toBeBytes x ++ toBeBytes y) ++ (zeros 32 ++ [])) 64 (toBeBytes z) =
      (toBeBytes x ++ toBeBytes y) ++ (toBeBytes z ++ []) := copyFromSlice_append (by simp) (by simp)
  rw [List.append_nil, List.append_nil] at h2
  dsimp only
  rw [show zeros 96 = [] ++ (zeros 32 ++ (zeros 32 ++ zeros 32)) from rfl, h0, List.nil_append, h1,
    ← List.append_assoc, h2]
  simp [spoken]

variable {κ W : Type} [DecidableEq κ] {api : Api κ W} {abi : PairAbi} {callData : Buffer}
  {view : W → Ledger} {tokens : Set Address} {lock : U256} {s : State κ W} {p : Pool}

def foreseen (api : Api κ W) (p : Pool) (r : Option Request) : Option (Buffer × Pool) :=
  (r.bind (p.serve api.caller (clock api))).map (Prod.map spoken id)

omit [DecidableEq κ] in
theorem comes_answer {α δ : Type} {R : State κ W → Pool → Prop} {x : Program κ W α} {d : Option δ}
    {r : δ → Request} {o : δ → Option (α × Pool)} {g : α → Buffer} (hx : ComesTo R (x s) (d.bind o))
    (ho : ∀ a, foreseen api p (some (r a)) = (o a).map fun a => (g a.1, a.2)) :
    ComesTo R ((x >>= fun v => pure (g v)) s) (foreseen api p (d.map r)) := by
  have hc := hx.close (f := fun v => pure (g v)) fun _ u _ hu => ⟨u, rfl, hu⟩
  cases d with
  | none => exact hc
  | some a =>
      change ComesTo R _ (foreseen api p (some (r a)))
      rw [ho]
      exact hc

omit [DecidableEq κ] in
theorem comes_ask {δ : Type} {R : State κ W → Pool → Prop} {d : Option δ} {r : δ → Request}
    {f : δ → Program κ W Buffer} (hf : ∀ a, ComesTo R (f a s) (foreseen api p (some (r a)))) :
    ComesTo R ((orRevert d >>= f) s) (foreseen api p (d.map r)) := by
  cases d with
  | none => exact .fail fun _ _ => revert_ok
  | some a => exact .step (orRevert_ok.mpr ⟨rfl, rfl⟩) (hf a)

omit [DecidableEq κ] in
theorem comes_say {α : Type} {R : State κ W → Pool → Prop} {x : Program κ W α} {v : α} {g : α → U256}
    {r : Request} (h : R s p) (hx : x s = .ok v s)
    (hr : p.serve api.caller (clock api) r = some ([g v], p)) :
    ComesTo R ((x >>= fun v => pure (toBeBytes (g v))) s) (foreseen api p (some r)) := by
  have hsaid : foreseen api p (some r) = some (toBeBytes (g v), p) := by
    rw [foreseen, Option.bind_some, hr, Option.map_some, Prod.map_apply, spoken_one, id_eq]
  rw [hsaid]
  exact .step hx (.pure h)

variable (exact : ExactTokens api view tokens) (alone : NoCallback api) (cells : Distinct api)
  (h : Represents api view tokens 1 s p)

include exact alone cells h

theorem comes_run (f : PairFn) : ComesTo (Represents api view tokens 1) (run api abi callData f s)
    (foreseen api p (request abi callData f)) := by
  have sep := cells.toSeparated
  cases f with
  | factory =>
      have hf : getFactory api s = .ok p.factory s := by
        rw [getFactory_ok, h.standing slotFactory (by decide)]
        exact ⟨lowAddress_padAddress _, rfl⟩
      exact comes_say h hf rfl
  | token0 => exact comes_say h (reads_token0 h) rfl
  | token1 => exact comes_say h (reads_token1 h) rfl
  | getReserves =>
      have hsaid : foreseen api p (some .reserves) = some (returnTuple p.reserves, p) := by
        rw [returnTuple_eq]
        rfl
      refine .step (reads_reserves h) ?_
      rw [request, hsaid]
      exact .pure h
  | totalSupply => exact comes_say (g := id) h (reads_supply h) rfl
  | balanceOf => exact comes_ask fun owner => comes_say (g := id) h (reads_balance h owner) rfl
  | allowance => exact comes_ask fun d => comes_say (g := id) h (reads_allowance h d.1 d.2) rfl
  | minimumLiquidity => exact comes_say (g := id) (x := pure minimumLiquidity) h rfl rfl
  | price0CumulativeLast | price1CumulativeLast | kLast =>
      exact comes_say (g := id) h (storageGetU256_ok.mpr ⟨h.standing _ (by decide), rfl⟩) rfl
  | initializePair => exact .fail fun u t hu => comes_initialize h u t hu
  | mint =>
      refine comes_answer (comes_mint exact alone sep h) fun a => ?_
      simp [foreseen, Pool.serve, spoken_one, Function.comp_def]
  | burn =>
      refine comes_answer (comes_burn exact alone sep h) fun a => ?_
      simp [foreseen, Pool.serve, spoken_two, Function.comp_def]
  | swap =>
      refine comes_answer (comes_swap exact alone sep h) fun a => ?_
      simp [foreseen, Pool.serve, spoken, Function.comp_def]
  | skim =>
      refine comes_answer (comes_skim exact alone sep h) fun a => ?_
      simp [foreseen, Pool.serve, spoken, Function.comp_def]
  | sync =>
      refine comes_answer (d := some ()) (r := fun _ => .sync)
        (o := fun _ => p.sync.map (Prod.mk ())) (comes_sync exact alone sep h) fun a => ?_
      simp [foreseen, Pool.serve, spoken, Function.comp_def]
  | approve =>
      refine comes_answer (comes_approve cells h) fun a => ?_
      simp [foreseen, Pool.serve, spoken_one]
  | transfer =>
      refine comes_answer (comes_send cells h) fun a => ?_
      simp [foreseen, Pool.serve, spoken_one, Function.comp_def]
  | transferFrom =>
      refine comes_answer (comes_sendFrom cells h) fun a => ?_
      simp [foreseen, Pool.serve, spoken_one, Function.comp_def]

theorem comes_call : ComesTo (Represents api view tokens 1) (call api abi callData s)
    (foreseen api p (asked abi callData)) := by
  rw [asked]
  cases hf : pairFn callData with
  | none =>
      intro out t hc
      obtain ⟨-, f, hf', -⟩ := call_ok.mp hc
      cases hf.symm.trans hf'
  | some f =>
      rw [call_eq_run hf]
      exact comes_run exact alone cells h f

end Calls

section Runs

variable {κ W : Type} [DecidableEq κ] {api : Api κ W} {abi : PairAbi} {view : W → Ledger}
  {tokens : Set Address} {s : State κ W} {p : Pool}

def execute (api : Api κ W) (abi : PairAbi) (tx : Tx W) (s : State κ W) : Option Buffer × State κ W :=
  (value (rollback (call (tx.api api) abi tx.callData) (tx.before s)), step api abi tx s)

def visit (api : Api κ W) (abi : PairAbi) (view : W → Ledger) (tx : Tx W) (s : State κ W) : Visit where
  caller := tx.caller
  clock := clock (tx.api api)
  request := asked abi tx.callData
  ledger := view (tx.before s).world

theorem allowance_deployed (sep : Separated api) (f : Address) (w : W) (o a : Address) :
    allowance api (deployed api f w) o a = 0 := by
  change allowance api (((State.fresh w).set (slotKey api slotFactory) (padAddress f)).set
    (slotKey api slotUnlocked) 1) o a = _
  rw [allowance_set_slot sep, allowance_set_slot sep]
  rfl

variable (exact : ExactTokens api view tokens) (alone : NoCallback api) (cells : Distinct api)

section Step

include exact alone cells

theorem execute_attends (abi : PairAbi) (tx : Tx W) (h : Represents api view tokens 1 s p) :
    (execute api abi tx s).1 = (attend (visit api abi view tx s) p).1.map spoken ∧
      Represents api view tokens 1 (execute api abi tx s).2 (attend (visit api abi view tx s) p).2 := by
  let q : Pool := { p with ledger := view (tx.before s).world }
  have exact' : ExactTokens (tx.api api) view tokens := ⟨exact.balanceOf, exact.transfer, exact.refuse⟩
  have cells' : Distinct (tx.api api) := ⟨separated_api cells.toSeparated tx, cells.allowance⟩
  have hb : Represents api view tokens 1 (tx.before s) q := h.with_ledger rfl rfl
  have hb' : Represents (tx.api api) view tokens 1 (tx.before s) q := { hb with }
  have hcall : ComesTo (Represents (tx.api api) view tokens 1)
      (call (tx.api api) abi tx.callData (tx.before s)) (foreseen (tx.api api) q (asked abi tx.callData)) :=
    comes_call exact' alone cells' hb'
  obtain ⟨hv, hr⟩ := hcall.rollback hb'
  have ha : attempt (foreseen (tx.api api) q (asked abi tx.callData)) q =
      Prod.map (Option.map spoken) id (attend (visit api abi view tx s) p) := attempt_map spoken id _ _
  rw [ha] at hv hr
  exact ⟨hv, { hr with }⟩

theorem run_attends (abi : PairAbi) (txs : List (Tx W)) (h : Represents api view tokens 1 s p) :
    let visits := readings (execute api abi) (visit api abi view) txs s
    answers (execute api abi) txs s = (answers attend visits p).map (Option.map spoken) ∧
      Represents api view tokens 1 (txs.foldl (fun s tx => step api abi tx s) s)
        (visits.foldl (fun p v => (attend v p).2) p) :=
  answers_readings (fun tx _ _ ht => execute_attends exact alone cells abi tx ht) txs h

end Step

include cells

theorem represents_opened {a b : Address} (ha : a ≠ 0) {setup : Tx W}
    (hf : pairFn setup.callData = some .initializePair)
    (hd : abi.initializeCall setup.callData = some { token0 := a, token1 := b }) (f : Address) (w : W) :
    let s := step api abi setup (deployed api f w)
    Represents api view {x | x = a ∨ x = b} 1 s (Pool.opened api.address f a b (view (setup.outside w))) := by
  have sep := cells.toSeparated
  have sep' := separated_api sep setup
  let start : State κ W := setup.before (deployed api f w)
  have hslots : slots api start =
      Function.update (Function.update (fun _ => 0) slotFactory (padAddress f)) slotUnlocked 1 :=
    slots_deployed api f w
  obtain ⟨t, ht⟩ : ∃ t, initializePair (setup.api api) abi setup.callData start = .ok () t := by
    refine ⟨_, initializePair_ok.mpr ⟨?_, _, hd, ?_, rfl⟩⟩
    · change slots api start slotUnlocked = 1
      rw [hslots, Function.update_self]
    · rw [slots_locked_of_ne _ (by decide)]
      change slots api start slotToken0 = 0
      rw [hslots, Function.update_of_ne (by decide), Function.update_of_ne (by decide)]
  have hcall : call (setup.api api) abi setup.callData start = .ok [] t := by
    rw [call_eq_run hf]
    exact bind_of_ok ht
  intro s
  have hs : s = t := step_of_ok hcall
  obtain ⟨decoded, hd', -, -, hsl⟩ := initializePair_slots ht
  obtain rfl := Option.some.inj (hd'.symm.trans hd)
  change slots api t = Function.update (Function.update (slots api start) _ _) _ _ at hsl
  rw [hslots] at hsl
  have hlp : lp api t = fun _ => 0 :=
    (initializePair_lp sep' ht).trans (funext fun _ => lp_deployed sep f w _)
  obtain ⟨hkept, hworld⟩ := initializePair_allowance sep' ht
  have hallowed : allowance api t = fun _ _ => 0 :=
    hkept.trans (funext fun _ => funext fun _ => allowance_deployed sep f w _ _)
  rw [hs]
  refine ⟨rfl, fun n hn => ?_, ?_, ?_, ?_, hlp, hallowed, congrArg view hworld, .inl rfl,
    .inr rfl, ha⟩
  · have hne : n ≠ slotUnlocked := fun he => hn (he ▸ by decide)
    rw [hsl, standing]
    by_cases h1 : n = slotToken1
    · subst n
      rfl
    by_cases h0 : n = slotToken0
    · subst n
      rfl
    rw [Function.update_of_ne h1, Function.update_of_ne h0, Function.update_of_ne hne, if_neg h0, if_neg h1]
    by_cases hfac : n = slotFactory
    · subst n
      rfl
    · rw [Function.update_of_ne hfac, if_neg hfac]
  · have hword : slots api t slotReserves = 0 := by
      rw [hsl]
      rfl
    have hzero : unpackReserves 0 = { reserve0 := 0, reserve1 := 0, ts := 0 } := by decide
    rw [PairView.reserves, hword, hzero]
    rfl
  · rw [totalSupply, hsl]
    rfl
  · rw [hsl]
    rfl

include alone

/-- The pair refines the pool: over tokens that move exactly what is covered
and do not call back, any run of calls gets the pool's answers. -/
theorem pair_refines_pool (abi : PairAbi) {a b : Address} (ha : a ≠ 0)
    (exact : ExactTokens api view {x | x = a ∨ x = b}) {setup : Tx W}
    (hf : pairFn setup.callData = some .initializePair)
    (hd : abi.initializeCall setup.callData = some { token0 := a, token1 := b }) (f : Address) (w : W)
    (txs : List (Tx W)) :
    let s := step api abi setup (deployed api f w)
    let p := Pool.opened api.address f a b (view (setup.outside w))
    let visits := readings (execute api abi) (visit api abi view) txs s
    answers (execute api abi) txs s = (answers attend visits p).map (Option.map spoken) ∧
      Represents api view {x | x = a ∨ x = b} 1 (txs.foldl (fun s tx => step api abi tx s) s)
        (visits.foldl (fun p v => (attend v p).2) p) :=
  run_attends exact alone cells abi txs (represents_opened cells ha hf hd f w)

end Runs

theorem pair_refines_pool_sample :
    let api := ledgerApi 5 9
    let txs := [ledgerTx 5 (mintData 5), Trades.sellTx 61000,
      ledgerTx 5 (encodeCall PairFn.transfer.selector [padAddress 9, 500]), ledgerTx 5 (burnData 5)]
    let s := samplePair (2 ^ 20) (2 ^ 20)
    let p := Pool.opened 9 7 1 2 (holding (2 ^ 20) (2 ^ 20))
    let visits := readings (execute api standardAbi) (visit api standardAbi id) txs s
    answers (execute api standardAbi) txs s = (answers attend visits p).map (Option.map spoken) ∧
      answers attend visits p = [some [2 ^ 20 - 1000], some [], some [1], some [557056, 493788]] := by
  intro api txs s p visits
  have exact : ExactTokens api id {x | x = 1 ∨ x = 2} := exactTokens_ledger rfl _
  have cells : Distinct api := distinct_of_free (freeKeccak_ledgerApi 5 9)
  have hf : pairFn (ledgerTx 7 (initializeData 1 2)).callData = some .initializePair := by decide +kernel
  have hd : standardAbi.initializeCall (ledgerTx 7 (initializeData 1 2)).callData =
      some { token0 := 1, token1 := 2 } := by decide +kernel
  have h := pair_refines_pool (noCallback_ledger rfl) cells standardAbi (by decide) exact hf hd 7
    (holding (2 ^ 20) (2 ^ 20)) txs
  exact ⟨h.1, by decide +kernel⟩

end RiscVContracts.PairPool
