import RiscVContracts.Uniswap.Callbacks

namespace RiscVContracts.LostUpdates

open Programs Bytes Host Storage Pair PairView PairSpec PairSlots PairInvariants Calldata Symbolic
  Tokens Runs Supply Debits Totals Callbacks
open Reentrancy (Callback Reaction)

section Losses

def Credit.lost (c : Credit) : Nat := carry c.balance c.amount

def Entry.lost (e : Entry) : Nat := e.credit.elim 0 Credit.lost

def lost (calls : List Entry) : Nat := (calls.map Entry.lost).sum

theorem lost_eq_zero_or (calls : List Entry) : lost calls = 0 ∨ 2 ^ 256 ≤ lost calls := by
  have hentry (e : Entry) : Entry.lost e = 0 ∨ Entry.lost e = 2 ^ 256 := by
    cases h : e.credit with
    | none => exact .inl (by rw [Entry.lost, h]; rfl)
    | some c =>
        rw [Entry.lost, h]
        exact ite_eq_or_eq _ _ _
  induction calls with
  | nil => exact .inl rfl
  | cons e calls ih =>
      have hcons : lost (e :: calls) = Entry.lost e + lost calls := List.sum_cons
      have he := hentry e
      omega

variable {κ W : Type} [DecidableEq κ]

/-- How far the LP balances add up to more than the supply. -/
def excess (api : Api κ W) (s : State κ W) : Int := (total (lp api s) : Int) - (totalSupply api s).toNat

end Losses

section Frozen

variable {κ : Type} [DecidableEq κ]

/-- The fixed slots are `S`, and the LP balances add up to `T` but for what
additions have lost. -/
def Frozen (api : Api κ Journal) (S : U32 → U256) (T : Nat) (s : State κ Journal) : Prop :=
  slots api s = S ∧ total (lp api s) + lost s.world.calls = T

variable {base api : Api κ Journal} {abi : PairAbi} {S : U32 → U256} {T : Nat} {s t : State κ Journal}

theorem frozen_host (n : Nat) : Frozen (host base abi n) S T = Frozen base S T := by
  funext s
  rw [Frozen, slots_host, lp_host, Frozen]

omit [DecidableEq κ] in
theorem frozen_committed {e : Entry} (r : State κ Journal) (h : Frozen api S T s)
    (hslots : slots api t = slots api s) (hcalls : t.world.calls = s.world.calls)
    (he : total (lp api t) + Entry.lost e = total (lp api s)) :
    Frozen api S T (committed r t e) := by
  refine ⟨hslots.trans h.1, ?_⟩
  change total (lp api t) + lost (e :: t.world.calls) = T
  rw [hcalls, lost, List.map_cons, List.sum_cons, ← h.2, lost]
  omega

/-- A function that returns on the locked pair loses nothing but what its
addition does: those under the lock revert, and the others only move LP tokens. -/
theorem run_frozen (sep : Separated api) (hS : S slotUnlocked ≠ 1) (r : State κ Journal) {e : Entry}
    {f : PairFn} {out : Buffer} (hf : pairFn e.callData = some f)
    (hcredit : e.credit = credit api abi e.callData s) (h : Frozen api S T s)
    (hr : run api abi e.callData f s = .ok out t) : Frozen api S T (committed r t e) := by
  have hlock : ¬ slots api s slotUnlocked = 1 := by
    rw [h.1]
    exact hS
  have hnone (hm : f ≠ .mint) (ht : f ≠ .transfer) (htf : f ≠ .transferFrom) : Entry.lost e = 0 := by
    rw [Entry.lost, hcredit, credit_none hf hm ht htf]
    rfl
  cases executed_of_run hr with
  | initializePair hi => exact absurd (initializePair_ok.mp hi).1 hlock
  | mint hm => exact absurd (mint_ok.mp hm).1 hlock
  | burn hb => exact absurd (burn_ok.mp hb).1 hlock
  | swap hw => exact absurd (swap_ok.mp hw).1 hlock
  | skim hk => exact absurd (skim_ok.mp hk).1 hlock
  | sync hy => exact absurd (sync_ok.mp hy).1 hlock
  | view hv ht =>
      subst t
      refine frozen_committed r h rfl rfl ?_
      rw [hnone, Nat.add_zero] <;>
        · rintro rfl
          exact absurd hv (by decide)
  | approve ha =>
      have hlp := approve_lp sep ha
      have hslots := approve_slots sep ha
      obtain ⟨decoded, -, rfl⟩ := approve_ok.mp ha
      refine frozen_committed r h hslots rfl ?_
      rw [hlp, hnone (by decide) (by decide) (by decide), Nat.add_zero]
  | transfer ht =>
      obtain ⟨decoded, hd, hv, hlp⟩ := transfer_lp sep ht
      refine frozen_committed r h (transfer_slots sep ht) ?_ ?_
      · obtain ⟨_, -, -, rfl⟩ := transfer_ok.mp ht
        rfl
      · rw [Entry.lost, hcredit, credit_transfer hf hd ht, hlp]
        exact total_move_add _ hv
  | transferFrom ht =>
      obtain ⟨decoded, hd, hv, hlp⟩ := transferFrom_lp sep ht
      refine frozen_committed r h (transferFrom_slots sep ht) ?_ ?_
      · obtain ⟨_, -, -, -, rfl⟩ := transferFrom_ok.mp ht
        simp only [moved, spent]
        split <;> rfl
      · rw [Entry.lost, hcredit, credit_transferFrom hf hd ht, hlp]
        exact total_move_add _ hv

theorem enter_frozen (sep : Separated api) (abi : PairAbi) (hS : S slotUnlocked ≠ 1)
    (s : State κ Journal) (c : Callback Reaction) (h : Frozen api S T s) :
    Frozen api S T (enter api abi s c) := by
  obtain he | ⟨f, out, t, hf, hr, he⟩ := enter_cases api abi s c
  · rw [he]
    exact h
  · rw [he]
    exact run_frozen (e := entry api abi s c) (separated_onBehalf sep c) hS s hf rfl
      (show Frozen (onBehalf c api) S T (scripted s c.script) from h) hr

theorem token_frozen (sep : Separated base) (abi : PairAbi) (n : Nat) (hS : S slotUnlocked ≠ 1)
    (callee : Address) (input : Buffer) (s : State κ Journal) (h : Frozen (host base abi n) S T s) :
    Frozen (host base abi n) S T ((host base abi n).callEvm callee input s).2 := by
  rw [frozen_host] at h ⊢
  refine keeps_host (fun _ _ h => h) (fun m _ s c hs => ?_) n callee input s h
  rw [← frozen_host m] at hs ⊢
  exact enter_frozen (separated_host sep m) abi hS s c hs

end Frozen

section Operations

variable {κ : Type} [DecidableEq κ] {base api : Api κ Journal} {abi : PairAbi} {callData : Buffer}
  {s t : State κ Journal}

/-- A token call takes nothing from the LP balances of the locked pair but by overflow. -/
def Careful (api : Api κ Journal) : Prop :=
  ∀ (S : U32 → U256) (T : Nat), S slotUnlocked ≠ 1 → ∀ callee input s,
    Frozen api S T s → Frozen api S T (api.callEvm callee input s).2

theorem careful_host (sep : Separated base) (abi : PairAbi) (n : Nat) : Careful (host base abi n) :=
  fun _ _ hS => token_frozen sep abi n hS

def asked (api : Api κ Journal) (s : State κ Journal) : State κ Journal :=
  final (observeBalances api (token0 api s) (token1 api s) (locked api s))

theorem asked_of_ok {b : Balances} (h : observeBalances api (token0 api (locked api s))
    (token1 api (locked api s)) (locked api s) = .ok b t) : asked api s = t := by
  rw [token0_locked, token1_locked] at h
  rw [asked, h, final_ok]

variable (sep : Separated api) (careful : Careful api)

section Calls

variable {S : U32 → U256} {T : Nat}

omit [DecidableEq κ] sep in
include careful in
theorem careful_keepsSlots : KeepsSlots api := fun callee input s hs =>
  (careful (slots api s) _ hs callee input s ⟨rfl, rfl⟩).1

omit [DecidableEq κ] sep in
include careful in
theorem observeBalances_frozen (hS : S slotUnlocked ≠ 1) {a b : Address} {v : Balances}
    (hs : Frozen api S T s) (h : observeBalances api a b s = .ok v t) : Frozen api S T t := by
  have hask (token account : Address) :
      Keeps (Frozen api S T) (fun _ => True) (safeBalanceOf api token account) :=
    keeps_safeBalanceOf (fun _ _ => trivial) (careful S T hS) token account
  have hkeeps : Keeps (Frozen api S T) (fun _ => True) (observeBalances api a b) :=
    .bind (hask a _) fun _ => .bind (hask b _) fun _ => .pure _
  exact hkeeps.of_ok hs h

omit [DecidableEq κ] sep in
include careful in
theorem safeTransfer_frozen (hS : S slotUnlocked ≠ 1) {token recipient : Address} {v : U256} {x : Unit}
    (hs : Frozen api S T s) (h : safeTransfer api token recipient v s = .ok x t) : Frozen api S T t :=
  (keeps_safeTransfer (E := fun _ => True) (fun _ _ => trivial) (careful S T hS) token recipient v).of_ok
    hs h

end Calls

include sep

theorem total_locked (s : State κ Journal) : Frozen api (slots api (locked api s))
    (total (lp api s) + lost s.world.calls) (locked api s) := by
  refine ⟨rfl, ?_⟩
  rw [lp_locked sep]
  rfl

theorem total_updateReserves {b : Balances} {x : Unit} (h : updateReserves api b s = .ok x t) :
    lp api (unlocked api t) = lp api s ∧ (unlocked api t).world = s.world := by
  refine ⟨(lp_unlocked sep t).trans (lp_updateReserves sep h), ?_⟩
  obtain ⟨-, -, -, rfl⟩ := updateReserves_ok.mp h
  rfl

include careful

theorem total_burn {p : U256 × U256} (h : burn api abi callData s = .ok p t) :
    total (lp api t) + lost t.world.calls + (lp api (asked api s) api.address).toNat =
      total (lp api s) + lost s.world.calls := by
  obtain ⟨-, recipient, b, u, v, -, hb, hv, rfl⟩ := burn_ok.mp h
  obtain ⟨-, -, -, -, b', u0, u1, u2, hobs, -, -, hp0, hp1, hleft⟩ := burnSettle_ok.mp hb
  have hlock : slots api (locked api s) slotUnlocked ≠ 1 := locked_slotUnlocked s
  have h0 := observeBalances_frozen careful hlock (total_locked sep s) hobs
  have hclear := total_update (lp api u0) api.address 0
  rw [asked_of_ok hobs]
  generalize totalSupply api (locked api s) - lp api (locked api s) api.address = supply at hp0
  have hlp : lp api (burned api u0 supply) = Function.update (lp api u0) api.address 0 := by
    rw [burned, lp_set_slot sep, lp_set_balance sep]
  have hslots : slots api (burned api u0 supply) slotUnlocked ≠ 1 := by
    rw [burned, slots_set_slot, Function.update_of_ne (by decide), slots_set_balance sep, h0.1]
    exact hlock
  have hburned : Frozen api (slots api (burned api u0 supply))
      (total (lp api (burned api u0 supply)) + lost u0.world.calls) (burned api u0 supply) := ⟨rfl, rfl⟩
  have h1 := safeTransfer_frozen careful hslots hburned hp0
  have h2 := safeTransfer_frozen careful hslots h1 hp1
  have h3 := observeBalances_frozen careful hslots h2 hleft
  obtain ⟨hlpt, hw⟩ := total_updateReserves sep hv
  rw [hlpt, hw, h3.2, hlp, ← h0.2]
  rw [show (0 : U256).toNat = 0 from rfl] at hclear
  omega

theorem total_mint {l : U256} (h : mint api abi callData s = .ok l t) (hts : totalSupply api s ≠ 0) :
    ∃ recipient b, abi.mintCall callData = some recipient ∧
      observeBalances api (token0 api s) (token1 api s) (locked api s) = .ok b (asked api s) ∧
      mintShare (totalSupply api s) (b.balance0 - fromUint (reserves api s).reserve0)
        (b.balance1 - fromUint (reserves api s).reserve1) (reserves api s) = l ∧
      total (lp api t) + lost t.world.calls + carry (lp api (asked api s) recipient) l =
        total (lp api s) + lost s.world.calls + l.toNat := by
  obtain ⟨-, recipient, b, u, v, hd, hm, hv, rfl⟩ := mint_ok.mp h
  obtain ⟨u0, u1, hobs, hl, rfl⟩ := mintSettle_ok.mp hm
  have hlock : slots api (locked api s) slotUnlocked ≠ 1 := locked_slotUnlocked s
  have h0 := observeBalances_frozen careful hlock (total_locked sep s) hobs
  have hsup : totalSupply api u0 = totalSupply api s :=
    (congrFun h0.1 _).trans (totalSupply_locked s)
  rw [mintLiquidity, hsup, if_neg hts, laterLiquidity_ok, reserves_locked] at hl
  obtain ⟨-, -, -, hshare, rfl⟩ := hl
  rw [asked_of_ok hobs]
  refine ⟨recipient, b, hd, ?_, hshare, ?_⟩
  · rwa [token0_locked, token1_locked] at hobs
  obtain ⟨hlpt, hw⟩ := total_updateReserves sep hv
  rw [hlpt, hw, lp_set_balance sep, lp_set_slot sep, ← h0.2]
  have hadd := total_add (lp api u0) recipient l
  change total (Function.update (lp api u0) recipient (lp api u0 recipient + l)) +
    lost u0.world.calls + _ = _
  omega

theorem excess_burn_iff {p : U256 × U256} (h : burn api abi callData s = .ok p t)
    (hcalls : s.world.calls = []) : excess api t = excess api s ↔
      lost t.world.calls = 0 ∧ lp api s api.address ≤ totalSupply api s ∧
        lp api (asked api s) api.address = lp api s api.address := by
  have hsup := supply_burn sep (careful_keepsSlots careful) h
  have htotal := total_burn sep careful h
  rw [hcalls, show lost [] = 0 from rfl] at htotal
  have hsub := toNat_add_carry (totalSupply api s - lp api s api.address) (lp api s api.address)
  rw [BitVec.sub_add_cancel] at hsub
  have hL := (lp api s api.address).isLt
  have hlt := (totalSupply api s - lp api s api.address).isLt
  have hts := (totalSupply api s).isLt
  have hcarry : carry (totalSupply api s - lp api s api.address) (lp api s api.address) = 0 ∨
      carry (totalSupply api s - lp api s api.address) (lp api s api.address) = 2 ^ 256 :=
    ite_eq_or_eq _ _ _
  have hlost := lost_eq_zero_or t.world.calls
  rw [excess, excess, hsup, BitVec.le_def, ← BitVec.toNat_inj]
  omega

theorem excess_mint_iff {l : U256} (h : mint api abi callData s = .ok l t)
    (hts : totalSupply api s ≠ 0) (hcalls : s.world.calls = []) :
    ∃ recipient b, abi.mintCall callData = some recipient ∧
      observeBalances api (token0 api s) (token1 api s) (locked api s) = .ok b (asked api s) ∧
      mintShare (totalSupply api s) (b.balance0 - fromUint (reserves api s).reserve0)
        (b.balance1 - fromUint (reserves api s).reserve1) (reserves api s) = l ∧
      (excess api t = excess api s ↔
        lost t.world.calls + carry (lp api (asked api s) recipient) l = carry (totalSupply api s) l) := by
  have hsup := supply_mint sep (careful_keepsSlots careful) h
  rw [supplyAfterMint, if_neg hts] at hsup
  obtain ⟨recipient, b, hd, hobs, hl, htotal⟩ := total_mint sep careful h hts
  refine ⟨recipient, b, hd, hobs, hl, ?_⟩
  rw [hcalls, show lost [] = 0 from rfl] at htotal
  have hadd := toNat_add_carry (totalSupply api s) l
  rw [excess, excess, hsup]
  omega

/-- Nothing is lost: a burn clears the balance it has read, and no sum
overflows. In a later mint, the supply loses what the LP additions lose. -/
def Intact (api : Api κ Journal) (abi : PairAbi) (callData : Buffer) (s : State κ Journal) (f : PairFn)
    (calls : List Entry) : Prop :=
  if f = .burn then
    lost calls = 0 ∧ lp api s api.address ≤ totalSupply api s ∧
      lp api (asked api s) api.address = lp api s api.address
  else ∃ recipient b, abi.mintCall callData = some recipient ∧
    observeBalances api (token0 api s) (token1 api s) (locked api s) = .ok b (asked api s) ∧
    let liquidity := mintShare (totalSupply api s) (b.balance0 - fromUint (reserves api s).reserve0)
      (b.balance1 - fromUint (reserves api s).reserve1) (reserves api s)
    lost calls + carry (lp api (asked api s) recipient) liquidity = carry (totalSupply api s) liquidity

theorem excess_iff {f : PairFn} {out : Buffer} (hf : pairFn callData = some f)
    (hop : f = .burn ∨ f = .mint ∧ totalSupply api s ≠ 0) (hcalls : s.world.calls = [])
    (h : call api abi callData s = .ok out t) :
    excess api t = excess api s ↔ Intact api abi callData s f t.world.calls := by
  obtain ⟨-, f', hf', hr⟩ := call_ok.mp h
  obtain rfl : f' = f := Option.some.inj (hf'.symm.trans hf)
  obtain rfl | ⟨rfl, hts⟩ := hop
  · obtain ⟨p, hb, -⟩ := bind_pure_ok.mp hr
    rw [Intact, if_pos rfl]
    exact excess_burn_iff sep careful hb hcalls
  · obtain ⟨l, hm, -⟩ := bind_pure_ok.mp hr
    obtain ⟨recipient, b, hd, hobs, rfl, hiff⟩ := excess_mint_iff sep careful hm hts hcalls
    rw [Intact, if_neg (by decide), hiff]
    constructor
    · intro heq
      exact ⟨recipient, b, hd, hobs, heq⟩
    · rintro ⟨recipient', b', hd', hobs', heq⟩
      obtain rfl := Option.some.inj (hd.symm.trans hd')
      obtain ⟨rfl, -⟩ := EStateM.Result.ok.inj (hobs.symm.trans hobs')
      exact heq

end Operations

section Host

variable {κ : Type} [DecidableEq κ] {base : Api κ Journal}

theorem excess_host (abi : PairAbi) (n : Nat) : excess (host base abi n) = excess base := by
  funext s
  rw [excess, excess, lp_host, totalSupply, totalSupply, slots_host]

/-- Whatever the tokens call back, a burn or a later mint keeps the LP balances
as far from the supply as they were exactly when it is `Intact`. -/
theorem updates_kept_iff (sep : Separated base) (abi : PairAbi) (n : Nat) (callData : Buffer) {f : PairFn}
    (s : State κ Journal) (hcalls : s.world.calls = []) (hf : pairFn callData = some f)
    (hop : f = .burn ∨ f = .mint ∧ totalSupply base s ≠ 0) {out : Buffer} {t : State κ Journal}
    (h : call (host base abi n) abi callData s = .ok out t) :
    excess base t = excess base s ↔ Intact (host base abi n) abi callData s f t.world.calls := by
  rw [← excess_host abi n]
  refine excess_iff (separated_host sep n) (careful_host sep abi n) hf ?_ hcalls h
  rwa [totalSupply, slots_host]

end Host

section Samples

def sendingPair (recipient : Address) : State Key Journal :=
  let base := journalApi 5 9
  let send : Callback Reaction :=
    { caller := 3, now := Vector.replicate 32 0, script := []
      callData := encodeCall PairFn.transfer.selector [padAddress recipient, 100] }
  let answer (v : U256) : Reaction := .mk [] (some (toBeBytes v))
  { storage := fun key =>
      if key = slotKey base slotUnlocked then 1
      else if key = slotKey base slotTotalSupply then 1000
      else if key = mappingKey1 base slotBalanceOf 9 then 500
      else if key = mappingKey1 base slotBalanceOf 3 then 300
      else if key = mappingKey1 base slotBalanceOf 0 then 200
      else 0
    world :=
      { script := [.mk [send] (some (toBeBytes 4000)), answer 6000, answer 1, answer 1, answer 2000,
          answer 3000]
        calls := [] } }

/-- The burn overwrites the 100 LP tokens that the pair is sent. -/
theorem sent_tokens_lost :
    let base := journalApi 5 9
    ∃ out t, call (host base standardAbi 1) standardAbi (burnData 5) (sendingPair 9) = .ok out t ∧
      excess base t = excess base (sendingPair 9) - 100 := by
  intro base
  have sep : Separated base := (freeKeccak_key rfl rfl).separated
  have hcall : call (host base standardAbi 1) standardAbi (burnData 5) (sendingPair 9) =
      .ok (toBeBytes 2000 ++ toBeBytes 3000) _ := ok_of_value (by decide +kernel)
  refine ⟨_, _, hcall, ?_⟩
  have hburn : pairFn (burnData 5) = some .burn := by decide
  obtain ⟨-, f, hf, hr⟩ := call_ok.mp hcall
  obtain rfl : f = .burn := Option.some.inj (hf.symm.trans hburn)
  obtain ⟨p, hb, -⟩ := bind_pure_ok.mp hr
  have htotal := total_burn (separated_host sep 1) (careful_host sep standardAbi 1) hb
  rw [lp_host] at htotal
  rw [excess, excess]
  generalize ht : final (call (host base standardAbi 1) standardAbi (burnData 5) (sendingPair 9)) = t
    at htotal ⊢
  have hlost : lost t.world.calls = 0 := by rw [← ht]; decide +kernel
  have hasked : (lp base (asked (host base standardAbi 1) (sendingPair 9)) 9).toNat = 600 := by
    decide +kernel
  have hstart : (totalSupply base (sendingPair 9)).toNat = 1000 := by decide +kernel
  have hend : (totalSupply base t).toNat = 500 := by rw [← ht]; decide +kernel
  have h9 : (host base standardAbi 1).address = 9 := rfl
  have hnone : lost (sendingPair 9).world.calls = 0 := rfl
  rw [h9] at htotal
  omega

theorem updates_kept_sample :
    let base := journalApi 5 9
    ∃ out t, call (host base standardAbi 1) standardAbi (burnData 5) (sendingPair 4) = .ok out t ∧
      excess base t = excess base (sendingPair 4) := by
  intro base
  have sep : Separated base := (freeKeccak_key rfl rfl).separated
  have hcall : call (host base standardAbi 1) standardAbi (burnData 5) (sendingPair 4) =
      .ok (toBeBytes 2000 ++ toBeBytes 3000) _ := ok_of_value (by decide +kernel)
  refine ⟨_, _, hcall, (updates_kept_iff (f := .burn) sep standardAbi 1 (burnData 5) (sendingPair 4) rfl
    (by decide) (.inl rfl) hcall).mpr ?_⟩
  rw [Intact, if_pos rfl]
  decide +kernel

end Samples

end RiscVContracts.LostUpdates
