import RiscVContracts.Uniswap.SplitBurn
import RiscVContracts.Uniswap.SwapPrice

namespace RiscVContracts.Redemption

open Programs Bytes Host Storage Pair PairView PairSpec PairSlots Calldata Symbolic Tokens Runs ShareValue
  Commits SplitBurn SwapPrice

section Tokens

variable {κ W : Type} {api : Api κ W} {view : W → Ledger} {tokens : Set Address} {s t : State κ W}
  {token token0 token1 sender recipient : Address} {v : U256} {before after : Ledger}

/-- Tokens that fail only when they must satisfy every other notion of a standard token. -/
theorem paying_of_exact (exact : ExactTokens api view tokens) : PayingTokens api view tokens := by
  have hpaid (token : Address) (ht : token ∈ tokens) (recipient : Address) (v : U256) (s : State κ W)
      (output : Buffer) (t : State κ W)
      (hc : api.callEvm token (transferInput recipient v) s = (some output, t)) :
      Paid (view s.world) (view t.world) token api.address recipient v := by
    by_cases hv : v ≤ view s.world token api.address
    · obtain ⟨output', t', hc', hp⟩ := exact.transfer token ht recipient v s hv
      rw [hc', Prod.mk.injEq] at hc
      exact hc.2 ▸ hp
    · obtain ⟨t', hc'⟩ := exact.refuse token ht recipient v s hv
      rw [hc', Prod.mk.injEq] at hc
      cases hc.1
  refine ⟨⟨fun token ht account s output t hc => ?_, fun token ht recipient v s output t hc =>
    .inl (hpaid token ht recipient v s output t hc)⟩, hpaid⟩
  obtain ⟨output', t', hc', hr, hv⟩ := exact.balanceOf token ht account s
  rw [hc', Prod.mk.injEq, Option.some.injEq] at hc
  obtain ⟨rfl, rfl⟩ := hc
  exact ⟨hr, hv⟩

theorem safeTransfer_exact (exact : ExactTokens api view tokens) (ht : token ∈ tokens) (recipient : Address)
    (hv : v ≤ view s.world token api.address) : ∃ t, safeTransfer api token recipient v s = .ok () t ∧
      Paid (view s.world) (view t.world) token api.address recipient v := by
  obtain ⟨output, t, hc, hp⟩ := exact.transfer token ht recipient v s hv
  exact ⟨t, safeTransfer_ok.mpr ⟨output, hc⟩, hp⟩

def paidOut (token0 token1 sender recipient : Address) (p : U256 × U256) (ledger : Ledger) : Ledger :=
  Function.update (Function.update ledger token0 (pay (ledger token0) sender recipient p.1)) token1
    (pay (ledger token1) sender recipient p.2)

theorem update_of_paid (h : Paid before after token sender recipient v) :
    after = Function.update before token (pay (before token) sender recipient v) := by
  funext other
  by_cases ho : other = token
  · subst other
    rw [Function.update_self, h.paid]
  · rw [Function.update_of_ne ho, h.others other ho]

theorem paidOut_of_paid {middle : Ledger} {p : U256 × U256} (hne : token0 ≠ token1)
    (h0 : Paid before middle token0 sender recipient p.1)
    (h1 : Paid middle after token1 sender recipient p.2) :
    after = paidOut token0 token1 sender recipient p before := by
  rw [update_of_paid h1, h0.others token1 hne.symm, update_of_paid h0, paidOut]

end Tokens

section Burn

variable {κ W : Type} [DecidableEq κ] {api : Api κ W} {abi : PairAbi} {callData : Buffer}
  {view : W → Ledger} {s t : State κ W} {recipient : Address} {p : U256 × U256}

/-- What the LP tokens that the pair holds stand for in its two tokens. -/
def worth (api : Api κ W) (view : W → Ledger) (s : State κ W) : U256 × U256 :=
  (lp api s api.address * (held api view s).balance0 / totalSupply api s,
    lp api s api.address * (held api view s).balance1 / totalSupply api s)

def redeemed (api : Api κ W) (view : W → Ledger) (s : State κ W) (recipient : Address) : Ledger :=
  paidOut (token0 api s) (token1 api s) api.address recipient (worth api view s) (view s.world)

/-- There are LP tokens to burn, they stand for some of each token that the
pair can pay, and what it is left with fits the reserves. -/
structure Redeemable (api : Api κ W) (view : W → Ledger) (s : State κ W) (recipient : Address) : Prop where
  own : lp api s api.address ≠ 0
  supply : totalSupply api s ≠ 0
  some0 : (worth api view s).1 ≠ 0
  some1 : (worth api view s).2 ≠ 0
  covered0 : (worth api view s).1 ≤ (held api view s).balance0
  covered1 : (worth api view s).2 ≤ (held api view s).balance1
  fits0 : (redeemed api view s recipient (token0 api s) api.address).toNat < 2 ^ 128
  fits1 : (redeemed api view s recipient (token1 api s) api.address).toNat < 2 ^ 128
  clock : (clock api).toNat < 2 ^ 32

variable (exact : ExactTokens api view {x | x = token0 api s ∨ x = token1 api s})
  (hne : token0 api s ≠ token1 api s) (sep : Separated api)

include exact hne sep

theorem redeemed_of_burn (hd : abi.burnCall callData = some recipient)
    (h : burn api abi callData s = .ok p t) : slots api s slotUnlocked = 1 ∧
      Redeemable api view s recipient ∧ p = worth api view s ∧
      view t.world = redeemed api view s recipient := by
  have paying := paying_of_exact exact
  obtain ⟨hx0, hx1⟩ := burn_pays paying.toStandardTokens sep h
  obtain ⟨hs, recipient', b, u, v, hd', hb, hv, ht⟩ := burn_ok.mp h
  obtain rfl := Option.some.inj (hd'.symm.trans hd)
  obtain ⟨hf0, hf1, hclock, hv⟩ := updateReserves_ok.mp hv
  obtain ⟨hl, hts, hn0, hn1, b0, u0, u1, u2, hobs, -, -, hp0, hp1, hleft⟩ := burnSettle_ok.mp hb
  obtain ⟨-, hview⟩ := observes_held paying.toStandardTokens hobs
  rw [lp_locked sep] at hl
  rw [totalSupply_locked] at hts
  rw [token0_locked] at hp0 hleft
  rw [token1_locked] at hp1 hleft
  have h0 := safeTransfer_paid paying (.inl rfl) hp0
  have h1 := safeTransfer_paid paying (.inr rfl) hp1
  obtain ⟨hb0, hb1, hlast⟩ := observeBalances_view paying.toStandardTokens (.inl rfl) (.inr rfl) hleft
  change Paid (view u0.world) _ _ _ _ _ at h0
  rw [hview] at h0
  have hp : p = worth api view s := Prod.ext hx0.symm hx1.symm
  have hledger : view u2.world = redeemed api view s recipient' := by
    rw [redeemed, ← hp]
    exact paidOut_of_paid hne h0 h1
  have hcov1 := h1.covered
  rw [h0.others _ hne.symm] at hcov1
  have hworld : t.world = u.world := by
    rw [← ht, ← hv]
    rfl
  refine ⟨hs, ?_, hp, by rw [hworld, hlast, hledger]⟩
  rw [hledger] at hb0 hb1
  exact
    { own := hl
      supply := hts
      some0 := hp ▸ hn0
      some1 := hp ▸ hn1
      covered0 := hp ▸ h0.covered
      covered1 := hp ▸ hcov1
      fits0 := hb0 ▸ hf0
      fits1 := hb1 ▸ hf1
      clock := hclock }

theorem burn_of_redeemable (h : Redeemable api view s recipient) (hs : slots api s slotUnlocked = 1)
    (hd : abi.burnCall callData = some recipient) : ∃ p t, burn api abi callData s = .ok p t := by
  have paying := paying_of_exact exact
  obtain ⟨u, hu⟩ := observeBalances_exact exact (.inl rfl) (.inr rfl) (locked api s)
  obtain ⟨-, -, hview⟩ := observeBalances_view paying.toStandardTokens (.inl rfl) (.inr rfl) hu
  change view u.world = view s.world at hview
  let next := burned api u (totalSupply api s - lp api s api.address)
  have hnext : view next.world = view s.world := hview
  obtain ⟨v, hv, hp0⟩ := safeTransfer_exact (s := next) (v := (worth api view s).1) exact (.inl rfl) recipient
    (by rw [hnext]; exact h.covered0)
  rw [hnext] at hp0
  obtain ⟨w, hw, hp1⟩ := safeTransfer_exact (s := v) (v := (worth api view s).2) exact (.inr rfl) recipient
    (by rw [hp0.others _ hne.symm]; exact h.covered1)
  have hledger : view w.world = redeemed api view s recipient := paidOut_of_paid hne hp0 hp1
  obtain ⟨t, ht⟩ := observeBalances_exact exact (.inl rfl) (.inr rfl) w
  rw [hledger] at ht
  have hsettle : ∃ b, burnSettle api recipient (locked api s) = .ok (b, worth api view s) t ∧
      b.balance0.toNat < 2 ^ 128 ∧ b.balance1.toNat < 2 ^ 128 := by
    refine ⟨{ balance0 := redeemed api view s recipient (token0 api s) api.address
              balance1 := redeemed api view s recipient (token1 api s) api.address },
      burnSettle_ok.mpr ?_, h.fits0, h.fits1⟩
    simp only [lp_locked sep, totalSupply_locked, token0_locked, token1_locked]
    exact ⟨h.own, h.supply, h.some0, h.some1, _, u, v, w, hu, rfl, rfl, hv, hw, ht⟩
  obtain ⟨b, hb, hf0, hf1⟩ := hsettle
  exact ⟨_, _, burn_ok.mpr ⟨hs, recipient, b, t, _, hd, hb,
    updateReserves_ok.mpr ⟨hf0, hf1, h.clock, rfl⟩, rfl⟩⟩

/-- A call of `burn` returns exactly when the LP tokens sent to the pair can be
redeemed, and then answers with what they are worth and pays it. -/
theorem burn_redeems (hs : slots api s slotUnlocked = 1) (hf : pairFn callData = some .burn)
    (hd : abi.burnCall callData = some recipient) :
    ((∃ out t, call api abi callData s = .ok out t) ↔ Redeemable api view s recipient) ∧
      ∀ out t, call api abi callData s = .ok out t →
        out = toBeBytes (worth api view s).1 ++ toBeBytes (worth api view s).2 ∧
          view t.world = redeemed api view s recipient := by
  simp only [call_ok_of_fn hf, run, bind_pure_ok]
  refine ⟨⟨?_, fun h => ?_⟩, ?_⟩
  · rintro ⟨out, t, p, h, -⟩
    exact (redeemed_of_burn exact hne sep hd h).2.1
  · obtain ⟨p, t, hp⟩ := burn_of_redeemable exact hne sep h hs hd
    exact ⟨_, t, p, hp, rfl⟩
  · rintro out t ⟨p, h, rfl⟩
    obtain ⟨-, -, rfl, hv⟩ := redeemed_of_burn exact hne sep hd h
    exact ⟨rfl, hv⟩

end Burn

def placedPair : State Key Ledger :=
  ledgerStep 5 (encodeCall PairFn.transfer.selector [padAddress 9, 500]) (mintedPair (2 ^ 20) (2 ^ 20))

theorem burn_redeems_sample :
    let api := ledgerApi 5 9
    (∃ out t, call api standardAbi (burnData 5) placedPair = .ok out t) ∧
      worth api id placedPair = (524288, 524288) := by
  intro api
  have hr : Redeemable api id placedPair 5 := by
    constructor <;> decide +kernel
  have hf : pairFn (burnData 5) = some .burn := by decide +kernel
  have hd : standardAbi.burnCall (burnData 5) = some 5 := by decide +kernel
  have h := burn_redeems (exactTokens_ledger rfl _) (by decide +kernel) (freeKeccak_ledgerApi 5 9).separated
    (s := placedPair) (by decide +kernel) hf hd
  exact ⟨h.1.mpr hr, by decide +kernel⟩

section Skim

variable {κ W : Type} [DecidableEq κ] {api : Api κ W} {abi : PairAbi} {callData : Buffer}
  {view : W → Ledger} {s t : State κ W} {recipient : Address}
  (exact : ExactTokens api view {x | x = token0 api s ∨ x = token1 api s})
  (hne : token0 api s ≠ token1 api s)

def surplus (api : Api κ W) (view : W → Ledger) (s : State κ W) : U256 × U256 :=
  ((held api view s).balance0 - fromUint (reserves api s).reserve0,
    (held api view s).balance1 - fromUint (reserves api s).reserve1)

theorem sub_le_iff (a b : U256) : a - b ≤ a ↔ b ≤ a := by
  simp only [BitVec.le_def, BitVec.toNat_sub]
  have ha := a.isLt
  have hb := b.isLt
  omega

include exact hne

theorem surplus_of_skim (hd : abi.skimCall callData = some recipient)
    (h : skim api abi callData s = .ok () t) :
    fromUint (reserves api s).reserve0 ≤ (held api view s).balance0 ∧
      fromUint (reserves api s).reserve1 ≤ (held api view s).balance1 ∧
      view t.world = paidOut (token0 api s) (token1 api s) api.address recipient (surplus api view s)
        (view s.world) := by
  have paying := paying_of_exact exact
  obtain ⟨-, recipient', b, u, v, w, hd', hobs, hp0, hp1, rfl⟩ := skim_ok.mp h
  obtain rfl := Option.some.inj (hd'.symm.trans hd)
  obtain ⟨rfl, hview⟩ := observes_held paying.toStandardTokens hobs
  rw [token0_locked, reserves_locked] at hp0
  rw [token1_locked, reserves_locked] at hp1
  have h0 := safeTransfer_paid paying (.inl rfl) hp0
  have h1 := safeTransfer_paid paying (.inr rfl) hp1
  rw [hview] at h0
  have hcov1 := h1.covered
  rw [h0.others _ hne.symm] at hcov1
  exact ⟨(sub_le_iff _ _).mp h0.covered, (sub_le_iff _ _).mp hcov1, paidOut_of_paid hne h0 h1⟩

theorem skim_of_covered (hs : slots api s slotUnlocked = 1) (hd : abi.skimCall callData = some recipient)
    (hr0 : fromUint (reserves api s).reserve0 ≤ (held api view s).balance0)
    (hr1 : fromUint (reserves api s).reserve1 ≤ (held api view s).balance1) :
    ∃ t, skim api abi callData s = .ok () t := by
  have paying := paying_of_exact exact
  obtain ⟨u, hu⟩ := observeBalances_exact exact (.inl rfl) (.inr rfl) (locked api s)
  obtain ⟨-, -, hview⟩ := observeBalances_view paying.toStandardTokens (.inl rfl) (.inr rfl) hu
  change view u.world = view s.world at hview
  obtain ⟨v, hv, hp0⟩ := safeTransfer_exact (s := u) (v := (surplus api view s).1) exact (.inl rfl) recipient
    (by rw [hview]; exact (sub_le_iff _ _).mpr hr0)
  obtain ⟨w, hw, -⟩ := safeTransfer_exact (s := v) (v := (surplus api view s).2) exact (.inr rfl) recipient
    (by rw [hp0.others _ hne.symm, hview]; exact (sub_le_iff _ _).mpr hr1)
  refine ⟨_, skim_ok.mpr ⟨hs, recipient, held api view s, u, v, w, hd, ?_, ?_, ?_, rfl⟩⟩
  · rwa [token0_locked, token1_locked]
  · rwa [token0_locked, reserves_locked]
  · rwa [token1_locked, reserves_locked]

/-- A call of `skim` returns exactly when the tokens the pair holds cover the
reserves it reads, and pays out all that they hold beyond. -/
theorem skim_pays_surplus (hs : slots api s slotUnlocked = 1) (hf : pairFn callData = some .skim)
    (hd : abi.skimCall callData = some recipient) :
    ((∃ out t, call api abi callData s = .ok out t) ↔
        fromUint (reserves api s).reserve0 ≤ (held api view s).balance0 ∧
          fromUint (reserves api s).reserve1 ≤ (held api view s).balance1) ∧
      ∀ out t, call api abi callData s = .ok out t → view t.world = paidOut (token0 api s) (token1 api s)
        api.address recipient (surplus api view s) (view s.world) := by
  simp only [call_ok_of_fn hf, run, bind_pure_ok]
  refine ⟨⟨?_, ?_⟩, ?_⟩
  · rintro ⟨out, t, _, h, -⟩
    obtain ⟨hr0, hr1, -⟩ := surplus_of_skim exact hne hd h
    exact ⟨hr0, hr1⟩
  · rintro ⟨hr0, hr1⟩
    obtain ⟨t, ht⟩ := skim_of_covered exact hne hs hd hr0 hr1
    exact ⟨_, t, (), ht, rfl⟩
  · rintro out t ⟨_, h, -⟩
    exact (surplus_of_skim exact hne hd h).2.2

end Skim

def skimData (recipient : Address) : Buffer := encodeCall PairFn.skim.selector [padAddress recipient]

theorem skim_pays_surplus_sample :
    let api := ledgerApi 5 9
    let s : State Key Ledger :=
      { mintedPair (2 ^ 20) (2 ^ 20) with world := holding (2 ^ 20 + 3) (2 ^ 20 + 4) }
    (∃ out t, call api standardAbi (skimData 5) s = .ok out t) ∧ surplus api id s = (3, 4) := by
  intro api s
  have hf : pairFn (skimData 5) = some .skim := by decide +kernel
  have hd : standardAbi.skimCall (skimData 5) = some 5 := by decide +kernel
  have exact : ExactTokens api id {x | x = token0 api s ∨ x = token1 api s} := exactTokens_ledger rfl _
  have h := skim_pays_surplus exact (by decide +kernel) (by decide +kernel) hf hd
  exact ⟨h.1.mpr (by decide +kernel), by decide +kernel⟩

end RiscVContracts.Redemption
