import RiscVContracts.Uniswap.ShareValue
import RiscVContracts.Uniswap.Supply

namespace RiscVContracts.RoundTrip

open Programs Bytes Host Storage Pair PairView PairSpec PairSlots Calldata Symbolic Tokens Runs Shares
  Deposits ShareValue Supply

variable {κ W : Type} [DecidableEq κ] {api : Api κ W} {abi : PairAbi} {callData : Buffer}
  {view : W → Ledger} {s t s₁ s₂ s₃ s₄ : State κ W} {l : U256}

/-- A mint issues `l`, its recipient sends that to the pair, and a burn returns `x0` and `x1`. -/
structure Returned (api : Api κ W) (abi : PairAbi) (minting sending burning : Tx W)
    (s₁ s₂ s₃ s₄ : State κ W) (l x0 x1 : U256) : Prop where
  minted : mint (minting.api api) abi minting.callData s₁ = .ok l s₂
  recipient : abi.mintCall minting.callData = some sending.caller
  value : abi.transferCall sending.callData = some { recipient := api.address, value := l }
  sent : transfer (sending.api api) abi sending.callData s₂ = .ok () s₃
  burnt : burn (burning.api api) abi burning.callData s₃ = .ok (x0, x1) s₄

omit [DecidableEq κ] in
theorem standardTokens_of_tokens (std : StandardTokens api view {x | x = token0 api s ∨ x = token1 api s})
    (h0 : token0 api t = token0 api s) (h1 : token1 api t = token1 api s) (tx : Tx W) :
    StandardTokens (tx.api api) view
      {x | x = token0 (tx.api api) t ∨ x = token1 (tx.api api) t} := by
  change StandardTokens (tx.api api) view {x | x = token0 api t ∨ x = token1 api t}
  rw [h0, h1]
  exact ⟨std.balanceOf, std.transfer⟩

omit [DecidableEq κ] in
theorem tokens_deposited {a0 a1 : Nat} (hd : Deposited api view s s₁ a0 a1) :
    token0 api s₁ = token0 api s ∧ token1 api s₁ = token1 api s :=
  ⟨congrArg lowAddress (congrFun hd.storage _), congrArg lowAddress (congrFun hd.storage _)⟩

section Mint

theorem mintLiquidity_world {supply a0 a1 : U256} {r : Reserves}
    (h : mintLiquidity api supply a0 a1 r s = .ok l t) : t.world = s.world := by
  unfold mintLiquidity at h
  split at h
  · obtain ⟨liq, -, -, -, rfl⟩ := firstLiquidity_ok.mp h
    rfl
  · obtain ⟨-, -, -, -, rfl⟩ := laterLiquidity_ok.mp h
    rfl

theorem mint_view (std : StandardTokens api view {x | x = token0 api s ∨ x = token1 api s})
    (h : mint api abi callData s = .ok l t) : view t.world = view s.world := by
  obtain ⟨-, recipient, b, u, v, -, hm, hv, rfl⟩ := mint_ok.mp h
  obtain ⟨u', v', hobs, hl, rfl⟩ := mintSettle_ok.mp hm
  obtain ⟨-, -, -, rfl⟩ := updateReserves_ok.mp hv
  have hw : v'.world = u'.world := mintLiquidity_world hl
  obtain ⟨-, hview⟩ := observes_held std hobs
  change view v'.world = view s.world
  rw [hw, hview]

end Mint

section Payments

omit [DecidableEq κ]

/-- In one token an account gives up at most `v`, and nobody gets more. -/
structure PaysUpTo (before after : Address → U256) (payer : Address) (v : Nat) : Prop where
  taken : (before payer).toNat ≤ (after payer).toNat + v
  received : ∀ x, (after x).toNat ≤ (before x).toNat + v

theorem PaysUpTo.mono {before after : Address → U256} {payer : Address} {v w : Nat}
    (h : PaysUpTo before after payer v) (hle : v ≤ w) : PaysUpTo before after payer w :=
  ⟨h.taken.trans (Nat.add_le_add_left hle _), fun x => (h.received x).trans (Nat.add_le_add_left hle _)⟩

theorem paysUpTo_pay {balances : Address → U256} {payer recipient : Address} {v : U256}
    (hv : v ≤ balances payer) : PaysUpTo balances (pay balances payer recipient v) payer v.toNat := by
  have hle := BitVec.le_def.mp hv
  have hdebit : (Function.update balances payer (balances payer - v) payer).toNat + v.toNat =
      (balances payer).toNat := by
    rw [Function.update_self, BitVec.toNat_sub_of_le hv]
    omega
  constructor
  · rw [pay_sender]
    split
    · exact Nat.le_add_right ..
    · rw [BitVec.toNat_sub_of_le hv]
      omega
  · intro x
    have hdebited : (Function.update balances payer (balances payer - v) x).toNat ≤ (balances x).toNat := by
      by_cases hx : x = payer
      · subst x
        omega
      · rw [Function.update_of_ne hx]
    by_cases hx : x = recipient
    · subst x
      rw [pay, Function.update_self, BitVec.toNat_add]
      exact (Nat.mod_le _ _).trans (Nat.add_le_add_right hdebited _)
    · rw [pay, Function.update_of_ne hx]
      exact hdebited.trans (Nat.le_add_right ..)

theorem safeTransfer_pays {tokens : Set Address} {token recipient : Address} {v : U256} {x : Unit}
    (std : StandardTokens api view tokens) (ht : token ∈ tokens)
    (h : safeTransfer api token recipient v s = .ok x t) :
    PaysUpTo (view s.world token) (view t.world token) api.address v.toNat ∧
      ∀ other, other ≠ token → view t.world other = view s.world other := by
  obtain ⟨output, h⟩ := safeTransfer_ok.mp h
  obtain hp | ⟨-, hp⟩ := std.transfer token ht recipient v s output t h
  · rw [hp.paid]
    exact ⟨paysUpTo_pay hp.covered, hp.others⟩
  · rw [hp]
    exact ⟨⟨Nat.le_add_right .., fun _ => Nat.le_add_right ..⟩, fun _ _ => rfl⟩

theorem burn_pays_up_to [DecidableEq κ] {p : U256 × U256}
    (std : StandardTokens api view {x | x = token0 api s ∨ x = token1 api s})
    (hne : token0 api s ≠ token1 api s) (h : burn api abi callData s = .ok p t) :
    PaysUpTo (view s.world (token0 api s)) (view t.world (token0 api s)) api.address p.1.toNat ∧
      PaysUpTo (view s.world (token1 api s)) (view t.world (token1 api s)) api.address p.2.toNat := by
  obtain ⟨-, recipient, b, u, v, -, hb, hv, ht⟩ := burn_ok.mp h
  obtain ⟨-, -, -, hv⟩ := updateReserves_ok.mp hv
  have hworld : t.world = u.world := by
    rw [← ht, ← hv]
    rfl
  obtain ⟨-, -, -, -, b0, u0, u1, u2, hobs, -, -, hp0, hp1, hleft⟩ := burnSettle_ok.mp hb
  obtain ⟨-, hview⟩ := observes_held std hobs
  rw [token0_locked] at hp0 hleft
  rw [token1_locked] at hp1 hleft
  obtain ⟨-, -, hlast⟩ := observeBalances_view std (.inl rfl) (.inr rfl) hleft
  obtain ⟨h0, hothers0⟩ := safeTransfer_pays std (.inl rfl) hp0
  obtain ⟨h1, hothers1⟩ := safeTransfer_pays std (.inr rfl) hp1
  change PaysUpTo (view u0.world _) _ _ _ at h0
  change ∀ other, _ → _ = view u0.world other at hothers0
  rw [hview] at h0 hothers0
  rw [hworld, hlast, hothers1 _ hne]
  refine ⟨h0, ?_⟩
  rwa [hothers0 _ hne.symm] at h1

end Payments

section Trip

variable {a0 a1 : Nat} {minting sending burning : Tx W} {x0 x1 : U256}
  (sep : Separated api) (alone : NoCallback api) (hd : Deposited api view s s₁ a0 a1)
  (hsupply : totalSupply api s ≠ 0)
  (hr : Returned api abi minting sending burning s₁ s₂ s₃ s₄ l x0 x1)

include sep alone hd hsupply hr

theorem lp_returned (hnone₀ : lp api s api.address = 0) : lp api s₃ api.address = l := by
  have hts : totalSupply (minting.api api) s₁ ≠ 0 := by
    rw [totalSupply, slots_api, slots, hd.storage]
    exact hsupply
  have hnone : lp api s₁ api.address = 0 := (congrFun (lp_of_storage hd.storage) _).trans hnone₀
  obtain ⟨recipient, hrec, hminted⟩ := mint_lp (separated_api sep minting) (noCallback_api alone minting)
    hr.minted
  obtain rfl : sending.caller = recipient := Option.some.inj (hr.recipient.symm.trans hrec)
  obtain ⟨decoded, hdec, -, hsent⟩ := transfer_lp (separated_api sep sending) hr.sent
  obtain rfl := Option.some.inj (hr.value.symm.trans hdec)
  rw [if_neg hts] at hminted
  change lp api s₂ = Function.update (lp api s₁) sending.caller (lp api s₁ sending.caller + l) at hminted
  change lp api s₃ = pay (lp api s₂) sending.caller api.address l at hsent
  rw [hsent]
  by_cases hself : sending.caller = api.address
  · rw [hself, pay_sender, if_pos rfl, hminted, hself, Function.update_self, hnone]
    exact BitVec.zero_add l
  · rw [pay, Function.update_self, Function.update_of_ne (Ne.symm hself), hminted,
      Function.update_of_ne (Ne.symm hself), hnone]
    exact BitVec.zero_add l

theorem slots_returned {n : U32} (hne : n ≠ slotReserves) :
    slots api s₃ n = Function.update (slots api s) slotTotalSupply (totalSupply api s + l) n := by
  obtain ⟨_, _, _, -, -, -, -, hminted⟩ :=
    mint_slots (separated_api sep minting) (noCallback_api alone minting).keepsSlots hr.minted
  have hstart : slots api s₁ = slots api s := funext fun _ => congrFun hd.storage _
  have hts : totalSupply (minting.api api) s₁ = totalSupply api s := congrFun hstart _
  rw [← slots_api sending, transfer_slots (separated_api sep sending) hr.sent, slots_api, ← slots_api minting,
    hminted, Function.update_of_ne hne, hts, supplyAfterMint, if_neg hsupply, slots_api, hstart]

theorem tokens_returned : token0 api s₃ = token0 api s ∧ token1 api s₃ = token1 api s := by
  have hslots {n : U32} (hne : n ≠ slotReserves) := slots_returned sep alone hd hsupply hr hne
  constructor
  · rw [token0, hslots (by decide), Function.update_of_ne (by decide), token0]
  · rw [token1, hslots (by decide), Function.update_of_ne (by decide), token1]

theorem held_returned (std : StandardTokens api view {x | x = token0 api s ∨ x = token1 api s}) :
    held api view s₃ = held api view s₁ := by
  obtain ⟨h0, h1⟩ := tokens_returned sep alone hd hsupply hr
  obtain ⟨h0', h1'⟩ := tokens_deposited hd
  obtain ⟨decoded, -, -, hs₃⟩ := transfer_ok.mp hr.sent
  have hw : s₃.world = s₂.world := by
    rw [← hs₃]
    rfl
  have hworld : view s₃.world = view s₁.world := by
    rw [hw, mint_view (standardTokens_of_tokens std h0' h1' minting) hr.minted]
  rw [held, held, hworld, h0, h1, h0', h1']

/-- The burn returns no more than the deposit. -/
theorem returned_le_deposit
    (std : StandardTokens api view {x | x = token0 api s ∨ x = token1 api s})
    (hnone : lp api s api.address = 0) (hts : (totalSupply api s).toNat < 2 ^ 112) (hl : l.toNat < 2 ^ 112)
    (hb0 : (held api view s₁).balance0.toNat < 2 ^ 112)
    (hb1 : (held api view s₁).balance1.toNat < 2 ^ 112) : x0.toNat ≤ a0 ∧ x1.toNat ≤ a1 := by
  have hstart : slots api s₁ = slots api s := funext fun _ => congrFun hd.storage _
  have hreserves : reserves api s₁ = reserves api s := by rw [reserves, hstart, reserves]
  have hts₁ : totalSupply api s₁ = totalSupply api s := congrFun hstart _
  obtain ⟨h0, h1⟩ := tokens_returned sep alone hd hsupply hr
  obtain ⟨h0', h1'⟩ := tokens_deposited hd
  have std₁ := standardTokens_of_tokens std h0' h1' minting
  obtain ⟨hx0, hx1⟩ := burn_pays (standardTokens_of_tokens std h0 h1 burning) (separated_api sep burning)
    hr.burnt
  change lp api s₃ api.address * (held api view s₃).balance0 / totalSupply api s₃ = x0 at hx0
  change lp api s₃ api.address * (held api view s₃).balance1 / totalSupply api s₃ = x1 at hx1
  have hts₃ : (totalSupply api s₃).toNat = (totalSupply api s).toNat + l.toNat := by
    rw [totalSupply, slots_returned sep alone hd hsupply hr (by decide), Function.update_self,
      BitVec.toNat_add_of_lt (by omega)]
  rw [lp_returned sep alone hd hsupply hr hnone, held_returned sep alone hd hsupply hr std] at hx0 hx1
  obtain ⟨-, hissued⟩ := mint_held std₁ (noCallback_api alone minting).keepsSlots
    (show totalSupply api s₁ ≠ 0 from hts₁ ▸ hsupply) hr.minted
  change l = issued (reserves api s₁) (held api view s₁) (totalSupply api s₁) at hissued
  have hcov : Covered (reserves api s) (held api view s₁) (totalSupply api s) l := by
    rw [hissued, hreserves, hts₁]
    refine covered_issued ?_ ?_
    · rw [hd.balance0, hd.reserve0]
      exact Nat.le_add_right ..
    · rw [hd.balance1, hd.reserve1]
      exact Nat.le_add_right ..
  obtain ⟨hc0, hc1⟩ := hcov.nat
  rw [hd.balance0, hd.reserve0, Nat.add_sub_cancel_left] at hc0
  rw [hd.balance1, hd.reserve1, Nat.add_sub_cancel_left] at hc1
  rw [← hx0, ← hx1, toNat_part hl hb0, toNat_part hl hb1, hts₃, hd.balance0, hd.balance1]
  exact ⟨part_le_deposit hc0, part_le_deposit hc1⟩

/-- A deposit, a mint on it and a burn of all it issued pay out no more than the deposit. -/
theorem round_trip_no_profit
    (std : StandardTokens api view {x | x = token0 api s ∨ x = token1 api s})
    (hne : token0 api s ≠ token1 api s) (hnone : lp api s api.address = 0) (hts : (totalSupply api s).toNat < 2 ^ 112) (hl : l.toNat < 2 ^ 112)
    (hb0 : (held api view s₁).balance0.toNat < 2 ^ 112)
    (hb1 : (held api view s₁).balance1.toNat < 2 ^ 112) : x0.toNat ≤ a0 ∧ x1.toNat ≤ a1 ∧
      PaysUpTo (view s₃.world (token0 api s)) (view s₄.world (token0 api s)) api.address a0 ∧
      PaysUpTo (view s₃.world (token1 api s)) (view s₄.world (token1 api s)) api.address a1 := by
  obtain ⟨h0, h1⟩ := tokens_returned sep alone hd hsupply hr
  obtain ⟨hx0, hx1⟩ := returned_le_deposit sep alone hd hsupply hr std hnone hts hl hb0 hb1
  have hpaid := burn_pays_up_to (standardTokens_of_tokens std h0 h1 burning)
    (show token0 api s₃ ≠ token1 api s₃ by rwa [h0, h1]) hr.burnt
  change PaysUpTo (view s₃.world (token0 api s₃)) (view s₄.world (token0 api s₃)) api.address _ ∧
    PaysUpTo (view s₃.world (token1 api s₃)) (view s₄.world (token1 api s₃)) api.address _ at hpaid
  rw [h0, h1] at hpaid
  exact ⟨hx0, hx1, hpaid.1.mono hx0, hpaid.2.mono hx1⟩

end Trip

theorem round_trip_sample :
    let api := ledgerApi 5 9
    let s := mintedPair (2 ^ 20) (2 ^ 20)
    let tx (callData : Buffer) : Tx Ledger := ledgerTx 5 callData
    let s₁ : State Key Ledger := { s with world := holding (2 ^ 20 + 2 ^ 16) (2 ^ 20 + 2 ^ 16) }
    ∃ s₂ s₃ s₄ x0 x1, Returned api standardAbi (tx (mintData 5))
        (tx (encodeCall PairFn.transfer.selector [9, 62])) (tx (encodeCall PairFn.burn.selector [5]))
        s₁ s₂ s₃ s₄ 62 x0 x1 ∧ x0.toNat ≤ 2 ^ 16 ∧ x1.toNat ≤ 2 ^ 16 ∧
        PaysUpTo (s₃.world (token0 api s)) (s₄.world (token0 api s)) 9 (2 ^ 16) ∧
        PaysUpTo (s₃.world (token1 api s)) (s₄.world (token1 api s)) 9 (2 ^ 16) := by
  intro api s tx s₁
  have hd : Deposited api id s s₁ (2 ^ 16) (2 ^ 16) := by
    have hstorage : s₁.storage = s.storage := by simp only [s₁]
    refine ⟨?_, ?_, hstorage, ?_, ?_⟩ <;> decide +kernel
  have hr : Returned api standardAbi (tx (mintData 5))
      (tx (encodeCall PairFn.transfer.selector [9, 62])) (tx (encodeCall PairFn.burn.selector [5]))
      s₁ _ _ _ 62 65042 65042 :=
    { minted := ok_of_value (by decide +kernel)
      recipient := by decide +kernel
      value := by decide +kernel
      sent := ok_of_value (by decide +kernel)
      burnt := ok_of_value (by decide +kernel) }
  have pays {s₂ s₃ s₄ : State Key Ledger} {x0 x1 : U256}
      (hr : Returned api standardAbi (tx (mintData 5)) (tx (encodeCall PairFn.transfer.selector [9, 62]))
        (tx (encodeCall PairFn.burn.selector [5])) s₁ s₂ s₃ s₄ 62 x0 x1) : x0.toNat ≤ 2 ^ 16 ∧
      x1.toNat ≤ 2 ^ 16 ∧ PaysUpTo (s₃.world (token0 api s)) (s₄.world (token0 api s)) 9 (2 ^ 16) ∧
      PaysUpTo (s₃.world (token1 api s)) (s₄.world (token1 api s)) 9 (2 ^ 16) :=
    round_trip_no_profit (freeKeccak_ledgerApi 5 9).separated (noCallback_ledger rfl) hd
      (by decide +kernel) hr (standardTokens_ledger rfl _) (by decide +kernel) (by decide +kernel)
      (by decide +kernel) (by decide) (by decide +kernel) (by decide +kernel)
  exact ⟨_, _, _, _, _, hr, pays hr⟩

end RiscVContracts.RoundTrip
