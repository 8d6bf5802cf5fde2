import RiscVContracts.Lib.Shares
import RiscVContracts.Uniswap.FeeCheck
import RiscVContracts.Uniswap.Deposits

namespace RiscVContracts.ShareValue

open Programs Bytes Host Storage Pair PairView PairSpec PairSlots Calldata Symbolic Tokens Runs Shares
  FeeCheck Deposits

section Payments

/-- A payment in one token, as far as the payer can tell: it may have been a
payment to itself, or refused. -/
structure PaidAtMost (before after : Ledger) (token payer : Address) (v : U256) : Prop where
  upper : (after token payer).toNat ≤ (before token payer).toNat
  lower : (before token payer).toNat - v.toNat ≤ (after token payer).toNat
  others : ∀ other, other ≠ token → after other = before other

theorem PaidAtMost.of_eq {before after : Ledger} (h : after = before) (token payer : Address) (v : U256) :
    PaidAtMost before after token payer v := by
  subst after
  exact ⟨le_rfl, Nat.sub_le _ _, fun _ _ => rfl⟩

theorem paidAtMost_of_paid {before after : Ledger} {token sender recipient : Address} {v : U256}
    (h : Paid before after token sender recipient v) : PaidAtMost before after token sender v := by
  have hs := (congrFun h.paid sender).trans (pay_sender ..)
  have hv : (before token sender - v).toNat = (before token sender).toNat - v.toNat :=
    BitVec.toNat_sub_of_le h.covered
  split at hs
  · exact ⟨by rw [hs], by rw [hs]; exact Nat.sub_le _ _, h.others⟩
  · exact ⟨by rw [hs, hv]; exact Nat.sub_le _ _, by rw [hs, hv], h.others⟩

variable {κ W : Type} {api : Api κ W} {view : W → Ledger} {tokens : Set Address} {s t : State κ W}
  {token token0 token1 recipient : Address} {v v0 v1 : U256} {b : Balances} {x : Unit}

variable (std : StandardTokens api view tokens)

include std

theorem safeTransfer_view (ht : token ∈ tokens) (h : safeTransfer api token recipient v s = .ok x t) :
    PaidAtMost (view s.world) (view t.world) token api.address v := by
  obtain ⟨output, h⟩ := safeTransfer_ok.mp h
  obtain hp | ⟨-, hp⟩ := std.transfer token ht recipient v s output t h
  · exact paidAtMost_of_paid hp
  · exact .of_eq hp ..

theorem payout_view (ht : token ∈ tokens) (h : payout api token recipient v s = .ok x t) :
    PaidAtMost (view s.world) (view t.world) token api.address v := by
  obtain ⟨-, rfl⟩ | ⟨-, h⟩ := payout_ok.mp h
  · exact .of_eq rfl ..
  · exact safeTransfer_view std ht h

theorem observeBalances_view (h0 : token0 ∈ tokens) (h1 : token1 ∈ tokens)
    (h : observeBalances api token0 token1 s = .ok b t) :
    b.balance0 = view s.world token0 api.address ∧ b.balance1 = view s.world token1 api.address ∧
      view t.world = view s.world := by
  obtain ⟨u, hu, ht⟩ := observeBalances_ok.mp h
  obtain ⟨o0, hu, e0⟩ := safeBalanceOf_ok.mp hu
  obtain ⟨o1, ht, e1⟩ := safeBalanceOf_ok.mp ht
  obtain ⟨r0, w0⟩ := std.balanceOf token0 h0 _ _ _ _ hu
  obtain ⟨r1, w1⟩ := std.balanceOf token1 h1 _ _ _ _ ht
  exact ⟨e0.symm.trans r0, e1.symm.trans (r1.trans (by rw [w0])), w1.trans w0⟩

theorem balances_after_payments (h0 : token0 ∈ tokens) (h1 : token1 ∈ tokens) (hne : token0 ≠ token1)
    {before between after : Ledger} {u : State κ W}
    (hp0 : PaidAtMost before between token0 api.address v0)
    (hp1 : PaidAtMost between after token1 api.address v1) (hu : view u.world = after)
    (h : observeBalances api token0 token1 u = .ok b t) :
    (before token0 api.address).toNat - v0.toNat ≤ b.balance0.toNat ∧
      b.balance0.toNat ≤ (before token0 api.address).toNat ∧
      (before token1 api.address).toNat - v1.toNat ≤ b.balance1.toNat ∧
      b.balance1.toNat ≤ (before token1 api.address).toNat := by
  obtain ⟨e0, e1, -⟩ := observeBalances_view std h0 h1 h
  rw [hu, hp1.others token0 hne] at e0
  rw [hu] at e1
  have hb1 := hp0.others token1 hne.symm
  rw [e0, e1, ← hb1]
  exact ⟨hp0.lower, hp0.upper, hp1.lower, hp1.upper⟩

end Payments

section Operations

variable {κ W : Type} [DecidableEq κ] {api : Api κ W} {abi : PairAbi} {callData : Buffer}
  {view : W → Ledger} {s t : State κ W}

omit [DecidableEq κ] in
def held (api : Api κ W) (view : W → Ledger) (s : State κ W) : Balances where
  balance0 := view s.world (token0 api s) api.address
  balance1 := view s.world (token1 api s) api.address

omit [DecidableEq κ] in
/-- The amounts `a0` and `a1` were sent to a pair whose reserves were its balances. -/
structure Deposited (api : Api κ W) (view : W → Ledger) (s s₁ : State κ W) (a0 a1 : Nat) : Prop where
  reserve0 : (reserves api s).reserve0.toNat = (held api view s).balance0.toNat
  reserve1 : (reserves api s).reserve1.toNat = (held api view s).balance1.toNat
  storage : s₁.storage = s.storage
  balance0 : (held api view s₁).balance0.toNat = (held api view s).balance0.toNat + a0
  balance1 : (held api view s₁).balance1.toNat = (held api view s).balance1.toNat + a1

/-- A pair with a supply, holding at least its reserves in two different
tokens, all within the declared width. -/
structure Solvent (api : Api κ W) (view : W → Ledger) (s : State κ W) : Prop where
  tokens_ne : token0 api s ≠ token1 api s
  supply_pos : 0 < (totalSupply api s).toNat
  supply_lt : (totalSupply api s).toNat < 2 ^ 112
  own_le : (lp api s api.address).toNat ≤ (totalSupply api s).toNat
  reserve0_le : (reserves api s).reserve0.toNat ≤ (held api view s).balance0.toNat
  reserve1_le : (reserves api s).reserve1.toNat ≤ (held api view s).balance1.toNat
  balance0_lt : (held api view s).balance0.toNat < 2 ^ 112
  balance1_lt : (held api view s).balance1.toNat < 2 ^ 112

def reservesAfter (api : Api κ W) (abi : PairAbi) (callData : Buffer) (s : State κ W) : Nat × Nat :=
  match handed api abi callData s with
  | some b => (b.balance0.toNat, b.balance1.toNat)
  | none => ((reserves api s).reserve0.toNat, (reserves api s).reserve1.toNat)

def ValueKept (api : Api κ W) (abi : PairAbi) (callData : Buffer) (s t : State κ W) : Prop :=
  (reserves api s).reserve0.toNat * (reserves api s).reserve1.toNat * (totalSupply api t).toNat ^ 2 ≤
    (reservesAfter api abi callData s).1 * (reservesAfter api abi callData s).2 *
      (totalSupply api s).toNat ^ 2

theorem valueKept_of_handed {b : Balances} (hb : handed api abi callData s = some b)
    (h0 : NotDiluted (reserves api s).reserve0.toNat (totalSupply api s).toNat b.balance0.toNat
      (totalSupply api t).toNat)
    (h1 : NotDiluted (reserves api s).reserve1.toNat (totalSupply api s).toNat b.balance1.toNat
      (totalSupply api t).toNat) : ValueKept api abi callData s t := by
  simpa only [ValueKept, reservesAfter, hb] using h0.mul h1

theorem valueKept_of_slots (hb : handed api abi callData s = none) (ht : slots api t = slots api s) :
    ValueKept api abi callData s t := by
  simp only [ValueKept, reservesAfter, hb, totalSupply, ht, le_refl]

variable (std : StandardTokens api view {x | x = token0 api s ∨ x = token1 api s})
  (hs : Solvent api view s)

include std

theorem observes_held {b : Balances} {u : State κ W}
    (h : observeBalances api (token0 api (locked api s)) (token1 api (locked api s)) (locked api s) =
      .ok b u) : b = held api view s ∧ view u.world = view s.world := by
  rw [token0_locked, token1_locked] at h
  obtain ⟨h0, h1, hv⟩ := observeBalances_view std (.inl rfl) (.inr rfl) h
  refine ⟨?_, hv⟩
  cases b
  exact congrArg₂ Balances.mk h0 h1

theorem mint_held (keeps : KeepsSlots api) (hts : totalSupply api s ≠ 0) {l : U256}
    (h : mint api abi callData s = .ok l t) :
    (∃ recipient, MintPasses api abi callData s recipient (held api view s) (totalSupply api s)) ∧
      l = issued (reserves api s) (held api view s) (totalSupply api s) := by
  obtain ⟨-, recipient, b, u, v, -, hm, -⟩ := mint_ok.mp h
  obtain ⟨u', v', hobs, -, -⟩ := mintSettle_ok.mp hm
  have hread : value (mintObserves api (locked api s)) = some (b, totalSupply api u') :=
    value_eq_some.mpr ⟨u', mintObserves_ok.mpr ⟨hobs, rfl⟩⟩
  have hsup := mintObserves_supply keeps hread
  rw [hsup] at hread
  obtain ⟨rfl, -⟩ := observes_held std hobs
  exact mintPasses_of_mint h hread hts

/-- A burn pays the part that the pair's LP tokens are of the supply, rounded down. -/
theorem burn_pays (sep : Separated api) {p : U256 × U256} (h : burn api abi callData s = .ok p t) :
    lp api s api.address * (held api view s).balance0 / totalSupply api s = p.1 ∧
      lp api s api.address * (held api view s).balance1 / totalSupply api s = p.2 := by
  obtain ⟨-, recipient, b, u, v, -, hb, -⟩ := burn_ok.mp h
  obtain ⟨-, -, -, -, b0, u0, u1, u2, hobs, ha0, ha1, -⟩ := burnSettle_ok.mp hb
  obtain ⟨rfl, -⟩ := observes_held std hobs
  rw [lp_locked sep, totalSupply_locked] at ha0 ha1
  exact ⟨ha0, ha1⟩

include hs

theorem sync_valueKept (keeps : KeepsSlots api) (hf : pairFn callData = some .sync)
    (h : sync api s = .ok () t) : ValueKept api abi callData s t := by
  obtain ⟨b, u, hb, -, -, ht⟩ := sync_slots keeps h
  have hts : totalSupply api t = totalSupply api s := by
    rw [totalSupply, ht, Function.update_of_ne (by decide), totalSupply]
  obtain ⟨rfl, -⟩ := observes_held std (syncSettle_ok.mp hb)
  apply valueKept_of_handed (handed_of_settle hf (settle_sync hb))
  · rw [hts]
    exact .of_le hs.reserve0_le
  · rw [hts]
    exact .of_le hs.reserve1_le

theorem mint_valueKept (sep : Separated api) (keeps : KeepsSlots api)
    (hf : pairFn callData = some .mint) {l : U256} (h : mint api abi callData s = .ok l t) :
    ValueKept api abi callData s t := by
  obtain ⟨recipient, b, u, hd, hm, -, -, ht⟩ := mint_slots sep keeps h
  obtain ⟨v, -, hobs, -, -⟩ := mintSettle_ok.mp hm
  obtain ⟨rfl, -⟩ := observes_held std hobs
  have hne : totalSupply api s ≠ 0 := fun h0 => absurd hs.supply_pos (by rw [h0]; decide)
  obtain ⟨⟨_, hp⟩, hl⟩ := mint_held std keeps hne h
  have hcov : Covered (reserves api s) (held api view s) (totalSupply api s) l :=
    hl ▸ covered_issued hs.reserve0_le hs.reserve1_le
  obtain ⟨hc0, hc1⟩ := hcov.nat
  have hts : totalSupply api t = totalSupply api s + l := by
    rw [totalSupply, ht, Function.update_of_ne (by decide), Function.update_self, supplyAfterMint,
      if_neg hne]
  have hnat : (totalSupply api t).toNat = (totalSupply api s).toNat + l.toNat := by
    have hr : (reserves api s).reserve0.toNat ≠ 0 := fun h0 =>
      hp.divisor0 (BitVec.eq_of_toNat_eq ((toNat_fromUint _ (by decide)).trans h0))
    have hlt : l.toNat < 2 ^ 112 * 2 ^ 112 :=
      calc l.toNat ≤ l.toNat * (reserves api s).reserve0.toNat :=
            Nat.le_mul_of_pos_right _ (Nat.pos_of_ne_zero hr)
        _ ≤ ((held api view s).balance0.toNat - (reserves api s).reserve0.toNat) *
            (totalSupply api s).toNat := hc0
        _ < 2 ^ 112 * 2 ^ 112 :=
            Nat.mul_lt_mul'' ((Nat.sub_le _ _).trans_lt hs.balance0_lt) hs.supply_lt
    have hsupply := hs.supply_lt
    rw [hts, BitVec.toNat_add_of_lt (by omega)]
  apply valueKept_of_handed (handed_of_settle hf (settle_mint hd hm))
  · rw [hnat]
    exact .deposit hs.reserve0_le hc0
  · rw [hnat]
    exact .deposit hs.reserve1_le hc1

omit std hs in
theorem toNat_part {l b ts : U256} (hl : l.toNat < 2 ^ 112) (hb : b.toNat < 2 ^ 112) :
    (l * b / ts).toNat = l.toNat * b.toNat / ts.toNat := by
  have hlt : l.toNat * b.toNat < 2 ^ 112 * 2 ^ 112 := Nat.mul_lt_mul'' hl hb
  rw [BitVec.toNat_udiv, BitVec.toNat_mul_of_lt (hlt.trans (by decide))]

theorem burn_valueKept (sep : Separated api) (keeps : KeepsSlots api)
    (hf : pairFn callData = some .burn) {p : U256 × U256} (h : burn api abi callData s = .ok p t) :
    ValueKept api abi callData s t := by
  obtain ⟨recipient, b, u, hd, hb, -, -, ht⟩ := burn_slots sep keeps h
  obtain ⟨-, -, -, -, b0, u0, u1, u2, hobs, -, -, hp0, hp1, hleft⟩ := burnSettle_ok.mp hb
  obtain ⟨rfl, hv⟩ := observes_held std hobs
  obtain ⟨ha0, ha1⟩ := burn_pays std sep h
  rw [token0_locked] at hp0 hleft
  rw [token1_locked] at hp1 hleft
  have hown := hs.own_le.trans_lt hs.supply_lt
  have hpay0 := safeTransfer_view std (.inl rfl) hp0
  have hpay1 := safeTransfer_view std (.inr rfl) hp1
  obtain ⟨hle0, -, hle1, -⟩ := balances_after_payments std (.inl rfl) (.inr rfl) hs.tokens_ne hpay0 hpay1
    rfl hleft
  have hpart0 := (congrArg BitVec.toNat ha0).symm.trans (toNat_part hown hs.balance0_lt)
  have hpart1 := (congrArg BitVec.toNat ha1).symm.trans (toNat_part hown hs.balance1_lt)
  rw [hpart0, burned, State.set_world, State.set_world, hv] at hle0
  rw [hpart1, burned, State.set_world, State.set_world, hv] at hle1
  have hnat : (totalSupply api t).toNat = (totalSupply api s).toNat - (lp api s api.address).toNat := by
    rw [totalSupply, ht, Function.update_of_ne (by decide), Function.update_self,
      BitVec.toNat_sub_of_le hs.own_le, totalSupply]
  apply valueKept_of_handed (handed_of_settle hf (settle_burn hd hb))
  · rw [hnat]
    exact (NotDiluted.of_le hs.reserve0_le).trans hs.supply_pos (.withdraw hle0)
  · rw [hnat]
    exact (NotDiluted.of_le hs.reserve1_le).trans hs.supply_pos (.withdraw hle1)

theorem swap_valueKept (keeps : KeepsSlots api) (hf : pairFn callData = some .swap)
    (h : swap api abi callData s = .ok () t) : ValueKept api abi callData s t := by
  obtain ⟨decoded, b, u, hd, hb, -, -, ht⟩ := swap_slots keeps h
  obtain ⟨-, -, -, -, -, u0, u1, hp0, hp1, hobs, -, -⟩ := swapSettle_ok.mp hb
  have hread := value_eq_some.mpr ⟨u, swapObserves_ok.mpr ⟨u0, u1, hp0, hp1, hobs⟩⟩
  rw [token0_locked] at hp0 hobs
  rw [token1_locked] at hp1 hobs
  have hpay0 := payout_view std (.inl rfl) hp0
  have hpay1 := payout_view std (.inr rfl) hp1
  obtain ⟨-, hle0, -, hle1⟩ := balances_after_payments std (.inl rfl) (.inr rfl) hs.tokens_ne hpay0 hpay1
    rfl hobs
  have hgrow := (swapPasses_of_swap h hd hread).grows (hs.reserve0_le.trans_lt hs.balance0_lt)
    (hs.reserve1_le.trans_lt hs.balance1_lt) (hle0.trans_lt hs.balance0_lt)
    (hle1.trans_lt hs.balance1_lt)
  have hts : totalSupply api t = totalSupply api s := by
    rw [totalSupply, ht, Function.update_of_ne (by decide), totalSupply]
  rw [ValueKept, reservesAfter, handed_of_settle hf (settle_swap hd hb), hts]
  exact Nat.mul_le_mul_right _ hgrow.le

/-- Whatever the call, a share keeps its value. -/
theorem share_value_kept (sep : Separated api) (keeps : KeepsSlots api) {out : Buffer}
    (h : call api abi callData s = .ok out t) : ValueKept api abi callData s t := by
  obtain ⟨f, hf, hr⟩ := executed_of_call h
  cases hr with
  | view hv ht => exact valueKept_of_slots (handed_of_settle hf (settle_view hv)) (by rw [ht])
  | initializePair hi =>
      obtain ⟨decoded, -, -, -, ht⟩ := initializePair_slots hi
      have hts : totalSupply api t = totalSupply api s := by
        rw [totalSupply, ht, Function.update_of_ne (by decide), Function.update_of_ne (by decide),
          totalSupply]
      rw [ValueKept, reservesAfter, handed_of_settle hf rfl, hts]
  | mint hm => exact mint_valueKept std hs sep keeps hf hm
  | burn hb => exact burn_valueKept std hs sep keeps hf hb
  | swap hw => exact swap_valueKept std hs keeps hf hw
  | skim hk => exact valueKept_of_slots (handed_of_settle hf rfl) (skim_slots keeps hk)
  | sync hy => exact sync_valueKept std hs keeps hf hy
  | approve ha => exact valueKept_of_slots (handed_of_settle hf rfl) (approve_slots sep ha)
  | transfer htr => exact valueKept_of_slots (handed_of_settle hf rfl) (transfer_slots sep htr)
  | transferFrom htr => exact valueKept_of_slots (handed_of_settle hf rfl) (transferFrom_slots sep htr)

end Operations

theorem share_value_kept_sample :
    let s : State Key Ledger :=
      { mintedPair (2 ^ 20) (2 ^ 20) with world := holding (2 ^ 20 + 2 ^ 16) (2 ^ 21) }
    ∃ t, call (ledgerApi 5 9) standardAbi (mintData 5) s = .ok (toBeBytes 62) t ∧
      ValueKept (ledgerApi 5 9) standardAbi (mintData 5) s t := by
  intro s
  have hs : Solvent (ledgerApi 5 9) id s := by constructor <;> decide +kernel
  have h : call (ledgerApi 5 9) standardAbi (mintData 5) s = .ok (toBeBytes 62) _ :=
    ok_of_value (by decide +kernel)
  exact ⟨_, h, share_value_kept (standardTokens_ledger rfl _) hs (freeKeccak_ledgerApi 5 9).separated
    (noCallback_ledger rfl).keepsSlots h⟩

end RiscVContracts.ShareValue
