import RiscVContracts.Uniswap.ShareValue
import RiscVContracts.Uniswap.Supply

namespace RiscVContracts.SplitBurn

open Programs Bytes Host Storage Pair PairView PairSpec PairSlots Calldata Symbolic Tokens Runs Shares
  Deposits ShareValue Supply

section Tokens

variable {κ W : Type}

/-- Standard tokens that refuse a transfer only by failing: one that returns
has moved exactly the amount. -/
structure PayingTokens (api : Api κ W) (view : W → Ledger) (tokens : Set Address) : Prop extends
    StandardTokens api view tokens where
  paid : ∀ token ∈ tokens, ∀ recipient v s output t,
    api.callEvm token (transferInput recipient v) s = (some output, t) →
      Paid (view s.world) (view t.world) token api.address recipient v

variable {api : Api κ W} {view : W → Ledger} {tokens : Set Address} {s t : State κ W}
  {token recipient : Address} {v : U256} {x : Unit}

theorem safeTransfer_paid (paying : PayingTokens api view tokens) (ht : token ∈ tokens)
    (h : safeTransfer api token recipient v s = .ok x t) :
    Paid (view s.world) (view t.world) token api.address recipient v := by
  obtain ⟨output, h⟩ := safeTransfer_ok.mp h
  exact paying.paid token ht recipient v s output t h

theorem paid_elsewhere {before after : Ledger} {sender : Address}
    (h : Paid before after token sender recipient v) (hne : recipient ≠ sender) :
    after token sender = before token sender - v := by
  rw [h.paid, pay_sender, if_neg hne]

theorem received_elsewhere {before after : Ledger} {sender : Address}
    (h : Paid before after token sender recipient v) (hne : recipient ≠ sender) :
    after token recipient = before token recipient + v := by
  rw [h.paid, pay, Function.update_self, Function.update_of_ne hne]

end Tokens

section Amounts

/-- The amounts of one token, in words that do not wrap. -/
theorem split_amounts {l₁ l₂ b ts ts' x y z : U256} (hts : ts.toNat < 2 ^ 112) (hb : b.toNat < 2 ^ 112)
    (hl : l₁.toNat + l₂.toNat ≤ ts.toNat) (hts' : ts' = ts - l₁) (hc : x ≤ b) (hx : l₁ * b / ts = x)
    (hy : l₂ * (b - x) / ts' = y) (hz : (l₁ + l₂) * b / ts = z) : x.toNat + y.toNat ≤ z.toNat := by
  have hsum : (l₁ + l₂).toNat = l₁.toNat + l₂.toNat := BitVec.toNat_add_of_lt (by omega)
  have hrest : (b - x).toNat = b.toNat - x.toNat := BitVec.toNat_sub_of_le hc
  have hsupply : (ts - l₁).toNat = ts.toNat - l₁.toNat :=
    BitVec.toNat_sub_of_le (BitVec.le_def.mpr (by omega))
  have hxn : x.toNat = l₁.toNat * b.toNat / ts.toNat := by rw [← hx, toNat_part (by omega) hb]
  rw [← hy, ← hz, toNat_part (by omega) (by omega), toNat_part (by omega) hb, hts', hsum, hrest, hsupply,
    hxn]
  exact split_withdraw hl

end Amounts

section Burns

variable {κ W : Type} [DecidableEq κ] {api : Api κ W} {abi : PairAbi} {callData : Buffer}
  {view : W → Ledger} {s s' t : State κ W} {recipient : Address} {p : U256 × U256}

/-- `l` LP tokens were sent to the pair; its slots and all token balances stand. -/
structure Placed (api : Api κ W) (view : W → Ledger) (s s' : State κ W) (l : U256) : Prop where
  own : lp api s' api.address = lp api s api.address + l
  slots : slots api s' = slots api s
  ledger : view s'.world = view s.world

theorem placed_transfer (sep : Separated api) (tx : Tx W) {l : U256} (hself : tx.caller ≠ api.address)
    (hd : abi.transferCall tx.callData = some { recipient := api.address, value := l })
    (h : transfer (tx.api api) abi tx.callData s = .ok () s') : Placed api view s s' l := by
  obtain ⟨decoded, hdec, -, hlp⟩ := transfer_lp (separated_api sep tx) h
  obtain rfl := Option.some.inj (hd.symm.trans hdec)
  change lp api s' = pay (lp api s) tx.caller api.address l at hlp
  have hslots := transfer_slots (separated_api sep tx) h
  rw [slots_api] at hslots
  refine ⟨?_, hslots, ?_⟩
  · rw [hlp, pay, Function.update_self, Function.update_of_ne hself.symm]
  · obtain ⟨_, -, -, rfl⟩ := transfer_ok.mp h
    rfl

theorem burn_tokens (sep : Separated api) (keeps : KeepsSlots api)
    (h : burn api abi callData s = .ok p t) : token0 api t = token0 api s ∧ token1 api t = token1 api s := by
  obtain ⟨_, _, _, -, -, -, -, hsl⟩ := burn_slots sep keeps h
  constructor
  · rw [token0, hsl, Function.update_of_ne (by decide), Function.update_of_ne (by decide), token0]
  · rw [token1, hsl, Function.update_of_ne (by decide), Function.update_of_ne (by decide), token1]

omit [DecidableEq κ] in
structure Paying (api : Api κ W) (view : W → Ledger) (s t : State κ W) (r : Address) (x : U256 × U256) :
    Prop where
  covered0 : x.1 ≤ (held api view s).balance0
  covered1 : x.2 ≤ (held api view s).balance1
  taken0 : (held api view t).balance0 = (held api view s).balance0 - x.1
  taken1 : (held api view t).balance1 = (held api view s).balance1 - x.2
  received0 : view t.world (token0 api s) r = view s.world (token0 api s) r + x.1
  received1 : view t.world (token1 api s) r = view s.world (token1 api s) r + x.2

theorem burn_paying (paying : PayingTokens api view {x | x = token0 api s ∨ x = token1 api s})
    (sep : Separated api) (keeps : KeepsSlots api) (hne : token0 api s ≠ token1 api s)
    (hd : abi.burnCall callData = some recipient) (hself : recipient ≠ api.address)
    (h : burn api abi callData s = .ok p t) : Paying api view s t recipient p := by
  obtain ⟨ht0, ht1⟩ := burn_tokens sep keeps h
  obtain ⟨-, recipient', b, u, v, hd', hb, hv, ht⟩ := burn_ok.mp h
  obtain rfl := Option.some.inj (hd'.symm.trans hd)
  obtain ⟨-, -, -, hv⟩ := updateReserves_ok.mp hv
  have hworld : t.world = u.world := by
    rw [← ht, ← hv]
    rfl
  obtain ⟨-, -, -, -, b0, u0, u1, u2, hobs, -, -, hp0, hp1, hleft⟩ := burnSettle_ok.mp hb
  obtain ⟨-, hview⟩ := observes_held paying.toStandardTokens hobs
  rw [token0_locked] at hp0 hleft
  rw [token1_locked] at hp1 hleft
  have h0 := safeTransfer_paid paying (.inl rfl) hp0
  have h1 := safeTransfer_paid paying (.inr rfl) hp1
  obtain ⟨-, -, hlast⟩ := observeBalances_view paying.toStandardTokens (.inl rfl) (.inr rfl) hleft
  change Paid (view u0.world) _ _ _ _ _ at h0
  rw [hview] at h0
  have hafter : view t.world = view u2.world := by rw [hworld, hlast]
  have hother : view u1.world (token1 api s) = view s.world (token1 api s) := h0.others _ hne.symm
  have hkept : view t.world (token0 api s) = view u1.world (token0 api s) := by
    rw [hafter, h1.others _ hne]
  have hcov1 := h1.covered
  rw [hother] at hcov1
  refine ⟨h0.covered, hcov1, ?_, ?_, ?_, ?_⟩
  · rw [held, held, ht0, hkept]
    exact paid_elsewhere h0 hself
  · rw [held, held, ht1, hafter, paid_elsewhere h1 hself, hother]
  · rw [hkept]
    exact received_elsewhere h0 hself
  · rw [hafter, received_elsewhere h1 hself, hother]

/-- `l` LP tokens are sent to the pair and burnt for `r`, for the amounts `x`. -/
structure Burnt (api : Api κ W) (abi : PairAbi) (view : W → Ledger) (tx : Tx W) (s t : State κ W)
    (r : Address) (l : U256) (x : U256 × U256) : Prop where
  burnt : ∃ s', Placed api view s s' l ∧ burn (tx.api api) abi tx.callData s' = .ok x t
  recipient : abi.burnCall tx.callData = some r
  elsewhere : r ≠ api.address

omit [DecidableEq κ] in
theorem Placed.reads {l : U256} (h : Placed api view s s' l) :
    token0 api s' = token0 api s ∧ token1 api s' = token1 api s ∧
      totalSupply api s' = totalSupply api s ∧ held api view s' = held api view s := by
  have h0 : token0 api s' = token0 api s := congrArg lowAddress (congrFun h.slots _)
  have h1 : token1 api s' = token1 api s := congrArg lowAddress (congrFun h.slots _)
  refine ⟨h0, h1, congrFun h.slots _, ?_⟩
  rw [held, held, h0, h1, h.ledger]

omit [DecidableEq κ] in
theorem PayingTokens.of_tokens (tx : Tx W)
    (paying : PayingTokens api view {x | x = token0 api s ∨ x = token1 api s})
    (h0 : token0 api s' = token0 api s) (h1 : token1 api s' = token1 api s) :
    PayingTokens (tx.api api) view {x | x = token0 (tx.api api) s' ∨ x = token1 (tx.api api) s'} := by
  change PayingTokens (tx.api api) view {x | x = token0 api s' ∨ x = token1 api s'}
  rw [h0, h1]
  exact ⟨⟨paying.balanceOf, paying.transfer⟩, paying.paid⟩

theorem Burnt.pays (paying : PayingTokens api view {x | x = token0 api s ∨ x = token1 api s})
    (sep : Separated api) (alone : NoCallback api) (hne : token0 api s ≠ token1 api s)
    (hnone : lp api s api.address = 0) {tx : Tx W} {r : Address} {l : U256} {x : U256 × U256}
    (h : Burnt api abi view tx s t r l x) :
    l * (held api view s).balance0 / totalSupply api s = x.1 ∧
      l * (held api view s).balance1 / totalSupply api s = x.2 ∧
      token0 api t = token0 api s ∧ token1 api t = token1 api s ∧
      totalSupply api t = totalSupply api s - l ∧ lp api t api.address = 0 ∧ Paying api view s t r x := by
  obtain ⟨⟨s', hplaced, hburn⟩, hd, hself⟩ := h
  obtain ⟨h0, h1, hts, hheld⟩ := hplaced.reads
  have hown : lp api s' api.address = l := by
    rw [hplaced.own, hnone]
    exact BitVec.zero_add l
  have paying' := paying.of_tokens tx h0 h1
  have sep' := separated_api sep tx
  have alone' := noCallback_api alone tx
  obtain ⟨hx0, hx1⟩ := burn_pays paying'.toStandardTokens sep' hburn
  obtain ⟨ht0, ht1⟩ := burn_tokens sep' alone'.keepsSlots hburn
  have hsupply := supply_burn sep' alone'.keepsSlots hburn
  obtain ⟨-, hlp⟩ := burn_lp sep' alone' hburn
  obtain ⟨hc0, hc1, hl0, hl1, hr0, hr1⟩ := burn_paying paying' sep' alone'.keepsSlots
    (show token0 api s' ≠ token1 api s' by rwa [h0, h1]) hd hself hburn
  change lp api s' api.address * (held api view s').balance0 / totalSupply api s' = x.1 at hx0
  change lp api s' api.address * (held api view s').balance1 / totalSupply api s' = x.2 at hx1
  change totalSupply api t = totalSupply api s' - lp api s' api.address at hsupply
  change lp api t = Function.update (lp api s') api.address 0 at hlp
  change x.1 ≤ (held api view s').balance0 at hc0
  change x.2 ≤ (held api view s').balance1 at hc1
  change (held api view t).balance0 = (held api view s').balance0 - x.1 at hl0
  change (held api view t).balance1 = (held api view s').balance1 - x.2 at hl1
  change view t.world (token0 api s') r = view s'.world (token0 api s') r + x.1 at hr0
  change view t.world (token1 api s') r = view s'.world (token1 api s') r + x.2 at hr1
  rw [hheld] at hx0 hx1 hc0 hc1 hl0 hl1
  rw [hown, hts] at hx0 hx1 hsupply
  rw [hplaced.ledger, h0] at hr0
  rw [hplaced.ledger, h1] at hr1
  refine ⟨hx0, hx1, ht0.trans h0, ht1.trans h1, hsupply, ?_, ⟨hc0, hc1, hl0, hl1, hr0, hr1⟩⟩
  rw [hlp, Function.update_self]

/-- Burning `l₁` and then `l₂` pays no more of either token than burning both at once. -/
theorem split_burn_pays_less (paying : PayingTokens api view {x | x = token0 api s ∨ x = token1 api s})
    (sep : Separated api) (alone : NoCallback api) (hne : token0 api s ≠ token1 api s)
    (hnone : lp api s api.address = 0) (hts : (totalSupply api s).toNat < 2 ^ 112)
    (hb0 : (held api view s).balance0.toNat < 2 ^ 112)
    (hb1 : (held api view s).balance1.toNat < 2 ^ 112) {l₁ l₂ : U256}
    (hl : l₁.toNat + l₂.toNat ≤ (totalSupply api s).toNat) {tx₁ tx₂ tx : Tx W} {t₁ t₂ : State κ W}
    {r₁ r₂ r : Address} {x y z : U256 × U256} (h₁ : Burnt api abi view tx₁ s t₁ r₁ l₁ x)
    (h₂ : Burnt api abi view tx₂ t₁ t₂ r₂ l₂ y) (h : Burnt api abi view tx s t r (l₁ + l₂) z) :
    (x.1.toNat + y.1.toNat ≤ z.1.toNat ∧ x.2.toNat + y.2.toNat ≤ z.2.toNat) ∧
      Paying api view s t₁ r₁ x ∧ Paying api view t₁ t₂ r₂ y ∧ Paying api view s t r z := by
  obtain ⟨hx0, hx1, ht0, ht1, hts₁, hnone₁, hx⟩ := h₁.pays paying sep alone hne hnone
  have paying₁ : PayingTokens api view {x | x = token0 api t₁ ∨ x = token1 api t₁} := by
    rwa [ht0, ht1]
  obtain ⟨hy0, hy1, -, -, -, -, hy⟩ := h₂.pays paying₁ sep alone (by rwa [ht0, ht1]) hnone₁
  obtain ⟨hz0, hz1, -, -, -, -, hz⟩ := h.pays paying sep alone hne hnone
  rw [hx.taken0] at hy0
  rw [hx.taken1] at hy1
  exact ⟨⟨split_amounts hts hb0 hl hts₁ hx.covered0 hx0 hy0 hz0,
    split_amounts hts hb1 hl hts₁ hx.covered1 hx1 hy1 hz1⟩, hx, hy, hz⟩

end Burns

theorem payingTokens_ledger {κ : Type} {api : Api κ Ledger} (h : api.callEvm = ledgerCall api.address)
    (tokens : Set Address) : PayingTokens api id tokens where
  toStandardTokens := standardTokens_ledger h tokens
  paid token _ recipient v s output t hc := by
    rw [h, ledgerCall_transfer] at hc
    split at hc
    · obtain ⟨-, rfl⟩ := Prod.mk.inj hc
      exact ⟨‹_›, Function.update_self .., fun other ho => Function.update_of_ne ho ..⟩
    · simp at hc

theorem split_burn_sample :
    let api := ledgerApi 5 9
    let s : State Key Ledger :=
      { mintedPair (2 ^ 20) (2 ^ 20) with world := holding (2 ^ 20 + 10) (2 ^ 20) }
    ∃ t₁ t₂ t x y z, Burnt api standardAbi id (ledgerTx 5 (burnData 5)) s t₁ 5 100 x ∧
      Burnt api standardAbi id (ledgerTx 5 (burnData 5)) t₁ t₂ 5 201 y ∧
      Burnt api standardAbi id (ledgerTx 5 (burnData 5)) s t 5 (100 + 201) z ∧
      (x.1.toNat + y.1.toNat ≤ z.1.toNat ∧ x.2.toNat + y.2.toNat ≤ z.2.toNat) ∧
      Paying api id s t₁ 5 x ∧ Paying api id t₁ t₂ 5 y ∧ Paying api id s t 5 z := by
  intro api s
  let sending (l : U256) : Tx Ledger := ledgerTx 5 (encodeCall PairFn.transfer.selector [9, l])
  let sent (s : State Key Ledger) (l : U256) : State Key Ledger :=
    final (transfer ((sending l).api api) standardAbi (sending l).callData s)
  let after (s : State Key Ledger) (l : U256) : State Key Ledger :=
    final (burn api standardAbi (burnData 5) (sent s l))
  have sep := (freeKeccak_ledgerApi 5 9).separated
  have burnt {s : State Key Ledger} {l : U256} {x : U256 × U256}
      (hd : standardAbi.transferCall (sending l).callData = some { recipient := 9, value := l })
      (h : value (transfer ((sending l).api api) standardAbi (sending l).callData s) = some ())
      (hb : value (burn api standardAbi (burnData 5) (sent s l)) = some x) :
      Burnt api standardAbi id (ledgerTx 5 (burnData 5)) s (after s l) 5 l x :=
    ⟨⟨sent s l, placed_transfer sep (sending l) (show (5 : Address) ≠ 9 by decide) hd (ok_of_value h),
      ok_of_value hb⟩, by decide +kernel, by decide⟩
  have h₁ : Burnt api standardAbi id (ledgerTx 5 (burnData 5)) s (after s 100) 5 100 (104858, 104857) :=
    burnt (by decide +kernel) (by decide +kernel) (by decide +kernel)
  have h₂ : Burnt api standardAbi id (ledgerTx 5 (burnData 5)) (after s 100) (after (after s 100) 201) 5 201
      (210765, 210763) := burnt (by decide +kernel) (by decide +kernel) (by decide +kernel)
  have h : Burnt api standardAbi id (ledgerTx 5 (burnData 5)) s (after s (100 + 201)) 5 (100 + 201)
      (315624, 315621) := burnt (by decide +kernel) (by decide +kernel) (by decide +kernel)
  exact ⟨_, _, _, _, _, _, h₁, h₂, h, split_burn_pays_less (payingTokens_ledger rfl _) sep
    (noCallback_ledger rfl) (by decide +kernel) (by decide +kernel) (by decide +kernel)
    (by decide +kernel) (by decide +kernel) (by decide +kernel) h₁ h₂ h⟩

end RiscVContracts.SplitBurn
