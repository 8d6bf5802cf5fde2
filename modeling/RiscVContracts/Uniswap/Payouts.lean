import RiscVContracts.Uniswap.Noting
import RiscVContracts.Uniswap.Runs

namespace RiscVContracts.Payouts

open Programs Bytes Host Storage Pair PairView PairSpec PairSlots Calldata Symbolic Tokens
  Runs Noting

section Answers

/-- How a token takes a payout: it fails, answers with the word of `false`, or accepts. -/
inductive Answer
  | failed
  | refused
  | accepted
  deriving DecidableEq, Repr

def answer : Option Buffer → Answer
  | none => .failed
  | some output => if 32 ≤ output.length ∧ readOutput output = 0 then .refused else .accepted

theorem answer_some_ne_failed (output : Buffer) : answer (some output) ≠ .failed := by
  rw [answer]
  split <;> decide

/-- What the tokens answered during a call, in order: to the payouts, and to the
questions for the pair's balances. -/
structure Answers where
  payouts : List Answer
  balances : List (Option U256)

def silence : Answers where
  payouts := []
  balances := []

def Answers.observed (a : Answers) (k : Nat) : Balances where
  balance0 := (a.balances[2 * k]?.join).getD 0
  balance1 := (a.balances[2 * k + 1]?.join).getD 0

def listen (input : Buffer) (output : Option Buffer) (a : Answers) : Answers :=
  if pairFn input = some .transfer then { a with payouts := a.payouts ++ [answer output] }
  else { a with balances := a.balances ++ [output.map readOutput] }

theorem listen_transfer (recipient : Address) (v : U256) (output : Option Buffer) (a : Answers) :
    listen (transferInput recipient v) output a = { a with payouts := a.payouts ++ [answer output] } :=
  if_pos (pairFn_transferInput recipient v)

theorem listen_balanceOf (account : Address) (output : Option Buffer) (a : Answers) :
    listen (balanceOfInput account) output a =
      { a with balances := a.balances ++ [output.map readOutput] } := by
  rw [listen, pairFn_balanceOfInput, if_neg (by decide)]

variable {κ W : Type}

def watched (api : Api κ W) : Api κ (W × Answers) := noting listen api

/-- The answers of the tokens during a call, whether or not it returns. -/
def heard [DecidableEq κ] (api : Api κ W) (abi : PairAbi) (callData : Buffer) (s : State κ W) : Answers :=
  (final (call (watched api) abi callData (blank silence s))).world.2

def payouts [DecidableEq κ] (api : Api κ W) (abi : PairAbi) (callData : Buffer) (s : State κ W) :
    List Answer :=
  (heard api abi callData s).payouts

end Answers

section Checks

variable {κ W : Type} [DecidableEq κ] (api : Api κ W) (abi : PairAbi) (callData : Buffer)
  (s : State κ W) (a : Answers)

def part (balance : U256) : U256 :=
  lp api (locked api s) api.address * balance / totalSupply api s

/-- The checks of `burn`: the first balances reported are those it shares out,
the second those it leaves. -/
structure BurnChecks : Prop where
  unlocked : slots api s slotUnlocked = 1
  decodes : ∃ recipient, abi.burnCall callData = some recipient
  shares : lp api (locked api s) api.address ≠ 0
  supply : totalSupply api s ≠ 0
  part0 : part api s (a.observed 0).balance0 ≠ 0
  part1 : part api s (a.observed 0).balance1 ≠ 0
  paid : .failed ∉ a.payouts
  reported : none ∉ a.balances
  fits0 : (a.observed 1).balance0.toNat < 2 ^ 128
  fits1 : (a.observed 1).balance1.toNat < 2 ^ 128
  clock : (clock api).toNat < 2 ^ 32

structure SwapChecks (decoded : SwapArgs) : Prop where
  unlocked : slots api s slotUnlocked = 1
  decodes : abi.swapCall callData = some decoded
  someOut : ¬ (decoded.amount0Out = 0 ∧ decoded.amount1Out = 0)
  out0 : decoded.amount0Out < fromUint (reserves api s).reserve0
  out1 : decoded.amount1Out < fromUint (reserves api s).reserve1
  recipient0 : decoded.recipient ≠ token0 api s
  recipient1 : decoded.recipient ≠ token1 api s
  paid : .failed ∉ a.payouts
  reported : none ∉ a.balances
  someIn : ¬ (amountIn (a.observed 0).balance0 (fromUint (reserves api s).reserve0) decoded.amount0Out = 0 ∧
    amountIn (a.observed 0).balance1 (fromUint (reserves api s).reserve1) decoded.amount1Out = 0)
  fee : feeCheck (reserves api s) decoded (a.observed 0)
  fits0 : (a.observed 0).balance0.toNat < 2 ^ 128
  fits1 : (a.observed 0).balance1.toNat < 2 ^ 128
  clock : (clock api).toNat < 2 ^ 32

structure SkimChecks : Prop where
  unlocked : slots api s slotUnlocked = 1
  decodes : ∃ recipient, abi.skimCall callData = some recipient
  paid : .failed ∉ a.payouts
  reported : none ∉ a.balances

/-- The checks of a call that pays, on the state, the clock and the answers of the tokens. -/
def Passes : PairFn → Prop
  | .burn => BurnChecks api abi callData s a
  | .swap => ∃ decoded, SwapChecks api abi callData s a decoded
  | .skim => SkimChecks api abi callData s a
  | _ => False

end Checks

section Tokens

variable {κ W : Type} {api : Api κ W} {u t : State κ (W × Answers)} {e : Halt}

/-- No payout has failed so far, and the tokens reported the balances given. -/
structure Paid (balances : List U256) (a : Answers) : Prop where
  paid : .failed ∉ a.payouts
  reported : a.balances = balances.map some

variable {balances : List U256}

theorem paid_silence : Paid [] silence := ⟨List.not_mem_nil, rfl⟩

theorem Paid.answered {a : Answers} (h : Paid balances a) : none ∉ a.balances := by
  rw [h.reported]
  simp

theorem Paid.observed_zero {b : Balances} {rest : List U256} {a : Answers}
    (h : Paid (b.balance0 :: b.balance1 :: rest) a) : a.observed 0 = b := by
  rw [Answers.observed, h.reported]
  rfl

theorem Paid.observed_one {b left : Balances} {a : Answers}
    (h : Paid [b.balance0, b.balance1, left.balance0, left.balance1] a) : a.observed 1 = left := by
  rw [Answers.observed, h.reported]
  rfl

theorem paid_of_safeTransfer {token recipient : Address} {v : U256} {x : Unit}
    (h : safeTransfer (watched api) token recipient v u = .ok x t) (hu : Paid balances u.world.2) :
    Paid balances t.world.2 := by
  obtain ⟨output, ho⟩ := safeTransfer_ok.mp h
  obtain ⟨hr, rfl⟩ := Prod.mk.inj ho
  change Paid balances (listen (transferInput recipient v) _ u.world.2)
  rw [hr, listen_transfer]
  refine ⟨?_, hu.reported⟩
  simp [hu.paid, (answer_some_ne_failed output).symm]

theorem failed_of_safeTransfer {token recipient : Address} {v : U256}
    (h : safeTransfer (watched api) token recipient v u = .error e t) :
    .failed ∈ t.world.2.payouts := by
  have hcall := safeTransfer_stopped h
  obtain ⟨hr, rfl⟩ := Prod.mk.inj hcall
  change .failed ∈ (listen (transferInput recipient v) _ u.world.2).payouts
  rw [hr, listen_transfer]
  exact List.mem_append_right _ (List.mem_singleton_self _)

theorem paid_of_payout {token recipient : Address} {v : U256} {x : Unit}
    (h : payout (watched api) token recipient v u = .ok x t) (hu : Paid balances u.world.2) :
    Paid balances t.world.2 := by
  rcases payout_ok.mp h with ⟨-, rfl⟩ | ⟨-, h⟩
  · exact hu
  · exact paid_of_safeTransfer h hu

theorem failed_of_payout {token recipient : Address} {v : U256}
    (h : payout (watched api) token recipient v u = .error e t) :
    .failed ∈ t.world.2.payouts := by
  unfold payout at h
  split at h
  · exact failed_of_safeTransfer h
  · cases h

theorem paid_of_safeBalanceOf {token account : Address} {v : U256}
    (h : safeBalanceOf (watched api) token account u = .ok v t) (hu : Paid balances u.world.2) :
    Paid (balances ++ [v]) t.world.2 := by
  obtain ⟨output, ho, rfl⟩ := safeBalanceOf_ok.mp h
  obtain ⟨hr, rfl⟩ := Prod.mk.inj ho
  change Paid _ (listen (balanceOfInput account) _ u.world.2)
  rw [hr, listen_balanceOf]
  exact ⟨hu.paid, by rw [hu.reported, List.map_append]; rfl⟩

theorem none_of_safeBalanceOf {token account : Address}
    (h : safeBalanceOf (watched api) token account u = .error e t) :
    none ∈ t.world.2.balances := by
  have hcall := safeBalanceOf_stopped h
  obtain ⟨hr, rfl⟩ := Prod.mk.inj hcall
  change none ∈ (listen (balanceOfInput account) _ u.world.2).balances
  rw [hr, listen_balanceOf]
  exact List.mem_append_right _ (List.mem_singleton_self _)

theorem paid_of_observeBalances {token0 token1 : Address} {b : Balances}
    (h : observeBalances (watched api) token0 token1 u = .ok b t) (hu : Paid balances u.world.2) :
    Paid (balances ++ [b.balance0, b.balance1]) t.world.2 := by
  obtain ⟨v, h0, h1⟩ := observeBalances_ok.mp h
  have ht := paid_of_safeBalanceOf h1 (paid_of_safeBalanceOf h0 hu)
  rwa [List.append_assoc] at ht

theorem none_of_observeBalances {token0 token1 : Address}
    (h : observeBalances (watched api) token0 token1 u = .error e t) :
    none ∈ t.world.2.balances := by
  rcases bind_error.mp h with h | ⟨b0, v, -, h⟩
  · exact none_of_safeBalanceOf h
  · rcases bind_error.mp h with h | ⟨b1, w, -, h⟩
    · exact none_of_safeBalanceOf h
    · cases h

end Tokens

section Parts

variable {κ W α β : Type} [DecidableEq κ] {api : Api κ W} {s : State κ W} {C : State κ W → Prop}

theorem decides_guarded {o : Option α} {g : α → Program κ W β}
    (hlock : ∀ t, C t → slots api s slotUnlocked = 1) (hdecodes : ∀ t, C t → ∃ a, o = some a)
    (h : slots api s slotUnlocked = 1 → ∀ a, o = some a → Decides C (g a (locked api s))) :
    Decides C ((requireUnlocked api >>= fun _ => orRevert o >>= g) s) := by
  refine .bind (fun e t hr hc => requireUnlocked_stopped hr (hlock t hc)) fun x t hr => ?_
  obtain ⟨hu, rfl⟩ := requireUnlocked_ok.mp hr
  refine .bind (fun e t hr hc => ?_) fun a t hr => ?_
  · obtain ⟨a, ha⟩ := hdecodes t hc
    rw [orRevert_stopped hr] at ha
    cases ha
  · obtain ⟨ha, rfl⟩ := orRevert_ok.mp hr
    exact h hu a ha

/-- The reserve update decides what is left open of the checks. -/
theorem decides_update {b : Balances} {k : Program κ W β}
    (hc : ∀ t, t.world = s.world → (C t ↔
      b.balance0.toNat < 2 ^ 128 ∧ b.balance1.toNat < 2 ^ 128 ∧ (clock api).toNat < 2 ^ 32))
    (hk : ∀ u, ∃ a t, k u = .ok a t ∧ t.world = u.world) :
    Decides C ((updateReserves api b >>= fun _ => k) s) := by
  refine .bind (fun e t h => ?_) fun x u h => ?_
  · obtain ⟨hfits, rfl⟩ := updateReserves_stopped h
    exact (hc _ rfl).not.mpr hfits
  · obtain ⟨h0, h1, hclock, rfl⟩ := updateReserves_ok.mp h
    obtain ⟨a, t, ht, hw⟩ := hk (s.set (slotKey api slotReserves) _)
    rw [ht]
    exact .ok ((hc t hw).mpr ⟨h0, h1, hclock⟩)

end Parts

section Outcomes

variable {κ W : Type} [DecidableEq κ] {api : Api κ W} {abi : PairAbi} {callData : Buffer}
  {s : State κ W} {f : PairFn}

theorem burn_decides : Decides (fun t => BurnChecks api abi callData s t.world.2)
    (burn (watched api) abi callData (blank silence s)) := by
  simp only [burn, burnSettle, bind_assoc]
  refine decides_guarded (fun t hp => hp.unlocked) (fun t hp => hp.decodes) fun hu recipient hd => ?_
  refine .bind_of_ok (getBalance_ok.mpr ⟨rfl, rfl⟩) ?_
  refine .bind (fun e t h hp => hp.shares (rejectIf_stopped h).1) fun x t h => ?_
  obtain ⟨hl, rfl⟩ := rejectIf_ok.mp h
  refine .bind_of_ok (storageGetU256_ok.mpr ⟨totalSupply_locked (blank silence s), rfl⟩) ?_
  refine .bind_of_ok (getToken0_ok.mpr ⟨rfl, rfl⟩) ?_
  refine .bind_of_ok (getToken1_ok.mpr ⟨rfl, rfl⟩) ?_
  refine .bind (fun e t h hp => hp.reported (none_of_observeBalances h)) fun b u h => ?_
  have hb : Paid _ u.world.2 := paid_of_observeBalances h paid_silence
  refine .bind (fun e t h hp => hp.supply (divU256_stopped h)) fun amount0 t h => ?_
  obtain ⟨hts, h0, rfl⟩ := divU256_ok.mp h
  refine .bind (fun e t h hp => hp.supply (divU256_stopped h)) fun amount1 t h => ?_
  obtain ⟨-, h1, rfl⟩ := divU256_ok.mp h
  refine .bind (fun e t h hp => ?_) fun x t h => ?_
  · obtain ⟨hzero, ht⟩ := rejectIf_stopped h
    have hp0 := hp.part0
    have hp1 := hp.part1
    rw [ht, hb.observed_zero] at hp0 hp1
    exact hzero.elim (fun hz => hp0 (h0.trans hz)) fun hz => hp1 (h1.trans hz)
  obtain ⟨hparts, rfl⟩ := rejectIf_ok.mp h
  refine .bind_of_ok (a := ()) (setBalance_ok.mpr rfl) ?_
  refine .bind_of_ok (a := ()) (storageSetU256_ok.mpr rfl) ?_
  refine .bind (fun e t h hp => hp.paid (failed_of_safeTransfer h)) fun x v h => ?_
  have hv : Paid _ v.world.2 := paid_of_safeTransfer h hb
  refine .bind (fun e t h hp => hp.paid (failed_of_safeTransfer h)) fun x w h => ?_
  have hw : Paid _ w.world.2 := paid_of_safeTransfer h hv
  refine .bind (fun e t h hp => hp.reported (none_of_observeBalances h)) fun left z h => ?_
  have hz : Paid _ z.world.2 := paid_of_observeBalances h hw
  have hfirst : z.world.2.observed 0 = b := hz.observed_zero
  have hsecond : z.world.2.observed 1 = left := hz.observed_one
  refine .bind_of_ok (pure_ok.mpr ⟨rfl, rfl⟩) (decides_update (fun t ht => ?_) fun u => ⟨_, _, rfl, rfl⟩)
  rw [ht]
  constructor
  · intro hp
    rw [← hsecond]
    exact ⟨hp.fits0, hp.fits1, hp.clock⟩
  · rintro ⟨hf0, hf1, hc⟩
    refine ⟨hu, ⟨recipient, hd⟩, hl, hts, ?_, ?_, hz.paid, hz.answered, hsecond ▸ hf0, hsecond ▸ hf1, hc⟩
    · exact fun hpart => hparts (.inl (h0.symm.trans (hfirst ▸ hpart)))
    · exact fun hpart => hparts (.inr (h1.symm.trans (hfirst ▸ hpart)))

theorem swap_decides : Decides (fun t => ∃ decoded, SwapChecks api abi callData s t.world.2 decoded)
    (swap (watched api) abi callData (blank silence s)) := by
  simp only [swap, swapSettle, bind_assoc]
  refine decides_guarded ?_ ?_ fun hu decoded hd => ?_
  · rintro t ⟨decoded, hp⟩
    exact hp.unlocked
  · rintro t ⟨decoded, hp⟩
    exact ⟨decoded, hp.decodes⟩
  have hone (t : State κ (W × Answers)) : SwapChecks api abi callData s t.world.2 decoded ↔
      ∃ other, SwapChecks api abi callData s t.world.2 other := by
    constructor
    · exact fun hp => ⟨decoded, hp⟩
    · rintro ⟨other, hp⟩
      rwa [← Option.some.inj (hp.decodes.symm.trans hd)]
  refine .congr ?_ hone
  refine .bind (fun e t h hp => hp.someOut (rejectIf_stopped h).1) fun x t h => ?_
  obtain ⟨hout, rfl⟩ := rejectIf_ok.mp h
  refine .bind_of_ok (getReserves_ok.mpr ⟨reserves_locked (blank silence s), rfl⟩) ?_
  refine .bind (fun e t h hp => ?_) fun x t h => ?_
  · rcases (rejectIf_stopped h).1 with h0 | h1
    · exact BitVec.not_lt.mpr h0 hp.out0
    · exact BitVec.not_lt.mpr h1 hp.out1
  obtain ⟨hlt, rfl⟩ := rejectIf_ok.mp h
  obtain ⟨hlt0, hlt1⟩ := not_or.mp hlt
  refine .bind_of_ok (getToken0_ok.mpr ⟨token0_locked (blank silence s), rfl⟩) ?_
  refine .bind_of_ok (getToken1_ok.mpr ⟨token1_locked (blank silence s), rfl⟩) ?_
  refine .bind (fun e t h hp => (rejectIf_stopped h).1.elim hp.recipient0 hp.recipient1)
    fun x t h => ?_
  obtain ⟨hto, rfl⟩ := rejectIf_ok.mp h
  obtain ⟨hto0, hto1⟩ := not_or.mp hto
  refine .bind (fun e t h hp => hp.paid (failed_of_payout h)) fun x u h => ?_
  have hpaid0 : Paid [] u.world.2 := paid_of_payout h paid_silence
  refine .bind (fun e t h hp => hp.paid (failed_of_payout h)) fun x v h => ?_
  have hpaid1 : Paid [] v.world.2 := paid_of_payout h hpaid0
  refine .bind (fun e t h hp => hp.reported (none_of_observeBalances h)) fun b w h => ?_
  have hw : Paid [b.balance0, b.balance1] w.world.2 := paid_of_observeBalances h hpaid1
  have hobs : w.world.2.observed 0 = b := hw.observed_zero
  refine .bind (fun e t h hp => ?_) fun x t h => ?_
  · obtain ⟨hin, ht⟩ := rejectIf_stopped h
    have hsome := hp.someIn
    rw [ht, hobs] at hsome
    exact hsome hin
  obtain ⟨hin, rfl⟩ := rejectIf_ok.mp h
  refine .bind (fun e t h hp => ?_) fun x t h => ?_
  · obtain ⟨hlow, ht⟩ := rejectIf_stopped h
    have hfee := hp.fee
    rw [ht, hobs, feeCheck] at hfee
    exact absurd hlow hfee
  obtain ⟨hfee, rfl⟩ := rejectIf_ok.mp h
  refine .bind_of_ok (pure_ok.mpr ⟨rfl, rfl⟩) (decides_update (fun t ht => ?_) fun u => ⟨_, _, rfl, rfl⟩)
  rw [ht, ← hobs]
  rw [← hobs] at hin hfee
  constructor
  · exact fun hp => ⟨hp.fits0, hp.fits1, hp.clock⟩
  · rintro ⟨hf0, hf1, hc⟩
    exact ⟨hu, hd, hout, BitVec.not_le.mp hlt0, BitVec.not_le.mp hlt1, hto0, hto1, hw.paid, hw.answered,
      hin, hfee, hf0, hf1, hc⟩

theorem skim_decides : Decides (fun t => SkimChecks api abi callData s t.world.2)
    (skim (watched api) abi callData (blank silence s)) := by
  simp only [skim]
  refine decides_guarded (fun t hp => hp.unlocked) (fun t hp => hp.decodes) fun hu recipient hd => ?_
  refine .bind_of_ok (getReserves_ok.mpr ⟨rfl, rfl⟩) ?_
  refine .bind_of_ok (getToken0_ok.mpr ⟨rfl, rfl⟩) ?_
  refine .bind_of_ok (getToken1_ok.mpr ⟨rfl, rfl⟩) ?_
  refine .bind (fun e t h hp => hp.reported (none_of_observeBalances h)) fun b u h => ?_
  have hb : Paid _ u.world.2 := paid_of_observeBalances h paid_silence
  refine .bind (fun e t h hp => hp.paid (failed_of_safeTransfer h)) fun x v h => ?_
  have hv : Paid _ v.world.2 := paid_of_safeTransfer h hb
  refine .bind (fun e t h hp => hp.paid (failed_of_safeTransfer h)) fun x w h => ?_
  have hw : Paid _ w.world.2 := paid_of_safeTransfer h hv
  exact .ok ⟨hu, ⟨recipient, hd⟩, hw.paid, hw.answered⟩

theorem passes_iff (hf : pairFn callData = some f) (hpays : f = .burn ∨ f = .swap ∨ f = .skim) :
    (∃ out t, call api abi callData s = .ok out t) ↔
      Passes api abi callData s (heard api abi callData s) f := by
  rw [← forget_blank silence s, (call_noting listen api abi callData).returns_iff, forget_blank]
  have hcall : call (noting listen api) abi callData (blank silence s) =
      run (watched api) abi callData f (blank silence s) := call_eq_run hf
  change Decides (fun t => Passes api abi callData s t.world.2 f) (call (noting listen api) abi callData _)
  rw [hcall]
  rcases hpays with rfl | rfl | rfl
  · exact burn_decides.map
  · exact swap_decides.map
  · exact skim_decides.map

theorem Passes.not_failed {a : Answers} (h : Passes api abi callData s a f) : .failed ∉ a.payouts := by
  cases f with
  | burn => exact BurnChecks.paid h
  | swap =>
      obtain ⟨decoded, h⟩ := h
      exact h.paid
  | skim => exact SkimChecks.paid h
  | factory | token0 | token1 | getReserves | totalSupply | balanceOf | allowance
  | minimumLiquidity | price0CumulativeLast | price1CumulativeLast | kLast
  | initializePair | mint | sync | approve | transfer | transferFrom => exact h.elim

/-- A burn, swap or skim reverts whenever one of its payouts fails or answers
false, exactly when no payout answers false in a call that passes its checks. -/
theorem payouts_respected_iff (api : Api κ W) (abi : PairAbi) (callData : Buffer) (s : State κ W)
    (hf : pairFn callData = some f) (hpays : f = .burn ∨ f = .swap ∨ f = .skim) :
    ((∃ a ∈ payouts api abi callData s, a ≠ .accepted) →
      (¬ ∃ out t, call api abi callData s = .ok out t) ∧
        (final (rollback (call api abi callData) s)).storage = s.storage) ↔
    (.refused ∈ payouts api abi callData s →
      ¬ Passes api abi callData s (heard api abi callData s) f) := by
  rw [passes_iff hf hpays]
  constructor
  · intro h hr hp
    exact (h ⟨_, hr, by decide⟩).1 hp
  · rintro h ⟨a, ha, hne⟩
    have hno : ¬ Passes api abi callData s (heard api abi callData s) f := by
      cases a with
      | refused => exact h ha
      | accepted => exact absurd rfl hne
      | failed => exact fun hp => hp.not_failed ha
    obtain ⟨out, ht⟩ | ht := final_rollback (call api abi callData) s
    · exact absurd ((passes_iff hf hpays).mp ⟨out, _, ht⟩) hno
    · exact ⟨hno, by rw [ht]⟩

end Outcomes

section Samples

def refusingApi (caller address : Address) : Api Key Ledger :=
  { ledgerApi caller address with
    callEvm := fun callee input s =>
      if pairFn input = some .transfer then (some (toBeBytes 0), s) else ledgerCall address callee input s }

def fundedPair : State Key Ledger :=
  ledgerStep 5 (encodeCall PairFn.transfer.selector [padAddress 9, 500]) (mintedPair (2 ^ 20) (2 ^ 20))

/-- Both payouts of a burn are refused, and the LP tokens are gone. -/
theorem refused_burn_commits :
    payouts (refusingApi 5 9) standardAbi (burnData 5) fundedPair = [.refused, .refused] ∧
      lp (ledgerApi 5 9) fundedPair 9 = 500 ∧
      ∃ out t, call (refusingApi 5 9) standardAbi (burnData 5) fundedPair = .ok out t ∧
        lp (ledgerApi 5 9) t 9 = 0 ∧ t.world 1 5 = 0 ∧ t.world 2 5 = 0 := by
  refine ⟨by decide +kernel, by decide +kernel, toBeBytes 524288 ++ toBeBytes 524288, _,
    ok_of_value ?_, ?_, ?_, ?_⟩ <;> decide +kernel

theorem payouts_respected_sample :
    let api : Api Key Ledger :=
      { ledgerApi 5 9 with
        callEvm := fun callee input s =>
          if pairFn input = some .transfer ∧ callee = 2 then (none, s) else ledgerCall 9 callee input s }
    let callData := encodeCall PairFn.skim.selector [5]
    let s := samplePair 30 40
    (∃ a ∈ payouts api standardAbi callData s, a ≠ .accepted) ∧
      ¬ ∃ out t, call api standardAbi callData s = .ok out t := by
  intro api callData s
  have hanswers : payouts api standardAbi callData s = [.accepted, .failed] := by decide +kernel
  have hfailed : ∃ a ∈ payouts api standardAbi callData s, a ≠ .accepted := by
    rw [hanswers]
    decide
  refine ⟨hfailed, ((payouts_respected_iff (f := .skim) api standardAbi callData s
    (by decide +kernel) (by decide)).mpr ?_ hfailed).1⟩
  rw [hanswers]
  exact fun h => absurd h (by decide)

end Samples

end RiscVContracts.Payouts
