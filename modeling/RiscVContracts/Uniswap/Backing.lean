import RiscVContracts.Uniswap.RoundTrip
import RiscVContracts.Uniswap.Widths

namespace RiscVContracts.Backing

open Programs Bytes Host Storage Pair PairView PairSpec PairSlots Calldata Tokens Runs FeeCheck ReserveCodec
  Widths ShareValue RoundTrip

section Fields

variable {κ W : Type}

/-- The reserves as the two 112-bit fields of the word hold them; the second is
read with more bits than it has. -/
def stored (api : Api κ W) (s : State κ W) : Nat × Nat :=
  ((field0 (slots api s slotReserves)).toNat, (field1 (slots api s slotReserves)).toNat)

variable {api : Api κ W} {s : State κ W}

theorem reserve0_eq_stored (s : State κ W) : (reserves api s).reserve0.toNat = (stored api s).1 := by
  have hlt : (slots api s slotReserves).toNat < 2 ^ 112 * 2 ^ 144 := BitVec.isLt _
  have hdiv : (slots api s slotReserves).toNat / 2 ^ 144 < 2 ^ 112 := Nat.div_lt_of_lt_mul (by omega)
  rw [reserves, unpackReserves, stored, field0, BitVec.toNat_setWidth, BitVec.toNat_setWidth,
    BitVec.toNat_ushiftRight, Nat.shiftRight_eq_div_pow, Nat.mod_eq_of_lt hdiv,
    Nat.mod_eq_of_lt (hdiv.trans (by decide))]

theorem stored_le_reserve1 (s : State κ W) : (stored api s).2 ≤ (reserves api s).reserve1.toNat := by
  rw [reserves, unpackReserves, stored, field1, BitVec.toNat_setWidth, BitVec.toNat_setWidth,
    ← Nat.mod_mod_of_dvd _ (show 2 ^ 112 ∣ 2 ^ 128 from Nat.pow_dvd_pow _ (by decide))]
  exact Nat.mod_le _ _

theorem stored_of_word {b : Balances} {ts : U32} (h0 : b.balance0.toNat < 2 ^ 112)
    (h1 : b.balance1.toNat < 2 ^ 112)
    (h : slots api s slotReserves = packReserves (b.balance0.setWidth 128) (b.balance1.setWidth 128) ts) :
    stored api s = (b.balance0.toNat, b.balance1.toNat) := by
  obtain ⟨e0, e1⟩ := (holds_packReserves_iff (h0.trans (by decide)) (h1.trans (by decide)) ts).mpr
    (by rw [Oversized]; omega)
  rw [stored, h, e0, e1]

theorem stored_of_slots {t : State κ W} (h : slots api t = slots api s) : stored api t = stored api s := by
  rw [stored, stored, h]

structure Backed (api : Api κ W) (view : W → Ledger) (s : State κ W) : Prop where
  balance0 : (stored api s).1 ≤ (held api view s).balance0.toNat
  balance1 : (stored api s).2 ≤ (held api view s).balance1.toNat

def Settled (api : Api κ W) (view : W → Ledger) (s : State κ W) : Prop :=
  stored api s = ((held api view s).balance0.toNat, (held api view s).balance1.toNat)

theorem Settled.backed {view : W → Ledger} (h : Settled api view s) : Backed api view s :=
  ⟨by rw [h], by rw [h]⟩

end Fields

section Operations

variable {κ W : Type} [DecidableEq κ] {api : Api κ W} {abi : PairAbi} {callData : Buffer}
  {view : W → Ledger} {s t : State κ W}

omit [DecidableEq κ] in
theorem tokens_of_slots (h0 : slots api t slotToken0 = slots api s slotToken0)
    (h1 : slots api t slotToken1 = slots api s slotToken1) :
    token0 api t = token0 api s ∧ token1 api t = token1 api s :=
  ⟨congrArg lowAddress h0, congrArg lowAddress h1⟩

omit [DecidableEq κ] in
theorem held_of_world (h0 : slots api t slotToken0 = slots api s slotToken0)
    (h1 : slots api t slotToken1 = slots api s slotToken1) (hw : view t.world = view s.world) :
    held api view t = held api view s := by
  obtain ⟨ht0, ht1⟩ := tokens_of_slots h0 h1
  rw [held, held, ht0, ht1, hw]

theorem approve_world {x : Unit} (h : approve api abi callData s = .ok x t) : t.world = s.world := by
  obtain ⟨_, -, rfl⟩ := approve_ok.mp h
  rfl

theorem transfer_world {x : Unit} (h : transfer api abi callData s = .ok x t) : t.world = s.world := by
  obtain ⟨_, -, -, rfl⟩ := transfer_ok.mp h
  rfl

theorem transferFrom_world {x : Unit} (h : transferFrom api abi callData s = .ok x t) :
    t.world = s.world := by
  obtain ⟨decoded, -, -, -, rfl⟩ := transferFrom_ok.mp h
  simp only [moved, State.set_world, spent]
  split <;> rfl

section Surplus

variable {tokens : Set Address} {token recipient : Address} {b : U256} {r : U128} {k : Nat}

omit [DecidableEq κ] in
theorem surplus_paid (std : StandardTokens api view tokens) (ht : token ∈ tokens)
    (hb : view s.world token api.address = b) (hkb : k ≤ b.toNat) (hkr : k ≤ r.toNat) {x : Unit}
    (h : safeTransfer api token recipient (b - fromUint r) s = .ok x t) :
    k ≤ (view t.world token api.address).toNat ∧
      ∀ other, other ≠ token → view t.world other = view s.world other := by
  have hr : (fromUint r).toNat = r.toNat := toNat_fromUint r (by decide)
  obtain ⟨output, hc⟩ := safeTransfer_ok.mp h
  obtain hp | ⟨-, hv⟩ := std.transfer token ht recipient _ s output t hc
  · have hcov := hp.covered
    have hpay := paidAtMost_of_paid hp
    have hlow := hpay.lower
    refine ⟨?_, hpay.others⟩
    rw [hb] at hcov hlow
    have hle : fromUint r ≤ b := by
      by_contra hlt
      rw [BitVec.le_def, BitVec.toNat_sub] at hcov
      rw [BitVec.le_def] at hlt
      have := b.isLt
      have := r.isLt
      omega
    rw [BitVec.toNat_sub_of_le hle, hr] at hlow
    omega
  · rw [hv, hb]
    exact ⟨hkb, fun _ _ => rfl⟩

end Surplus

section Closing

variable (std : StandardTokens api view {x | x = token0 api s ∨ x = token1 api s})

include std

omit [DecidableEq κ] in
theorem settled_of_observed {v u : State κ W} {b : Balances} {f : U32 → U256} {ts : U32}
    (hobs : observeBalances api (token0 api s) (token1 api s) v = .ok b u) (hu : t.world = u.world)
    (hw0 : b.balance0.toNat < 2 ^ 112) (hw1 : b.balance1.toNat < 2 ^ 112)
    (ht : slots api t = Function.update f slotReserves
      (packReserves (b.balance0.setWidth 128) (b.balance1.setWidth 128) ts))
    (h0 : f slotToken0 = slots api s slotToken0) (h1 : f slotToken1 = slots api s slotToken1) :
    Settled api view t ∧ token0 api t = token0 api s ∧ token1 api t = token1 api s := by
  obtain ⟨e0, e1, hv⟩ := observeBalances_view std (.inl rfl) (.inr rfl) hobs
  obtain ⟨ht0, ht1⟩ : token0 api t = token0 api s ∧ token1 api t = token1 api s := by
    apply tokens_of_slots
    · rw [ht, Function.update_of_ne (by decide), h0]
    · rw [ht, Function.update_of_ne (by decide), h1]
  refine ⟨?_, ht0, ht1⟩
  rw [Settled, stored_of_word hw0 hw1 (by rw [ht, Function.update_self]), held, ht0, ht1, hu, hv, ← e0, ← e1]

variable (keeps : KeepsSlots api)

include keeps

theorem sync_settled (hw0 : (held api view s).balance0.toNat < 2 ^ 112)
    (hw1 : (held api view s).balance1.toNat < 2 ^ 112) (h : sync api s = .ok () t) :
    Settled api view t ∧ token0 api t = token0 api s ∧ token1 api t = token1 api s ∧
      stored api t = ((held api view s).balance0.toNat, (held api view s).balance1.toNat) := by
  obtain ⟨b, u, hb, -, -, hsl⟩ := sync_slots keeps h
  obtain ⟨-, b', u', hb', -, -, ht⟩ := sync_ok.mp h
  obtain ⟨rfl, rfl⟩ : b = b' ∧ u = u' := by simpa using hb.symm.trans hb'
  have hobs := syncSettle_ok.mp hb
  obtain ⟨rfl, -⟩ := observes_held std hobs
  rw [token0_locked, token1_locked] at hobs
  have hworld : t.world = u.world := by
    rw [← ht]
    rfl
  obtain ⟨hset, ht0, ht1⟩ := settled_of_observed std hobs hworld hw0 hw1 hsl rfl rfl
  exact ⟨hset, ht0, ht1, stored_of_word hw0 hw1 (by rw [hsl, Function.update_self])⟩

theorem mint_settled (sep : Separated api) (hw0 : (held api view s).balance0.toNat < 2 ^ 112)
    (hw1 : (held api view s).balance1.toNat < 2 ^ 112) {l : U256} (h : mint api abi callData s = .ok l t) :
    Settled api view t ∧ token0 api t = token0 api s ∧ token1 api t = token1 api s ∧
      stored api t = ((held api view s).balance0.toNat, (held api view s).balance1.toNat) := by
  obtain ⟨recipient, b, u, hd, hm, -, -, hsl⟩ := mint_slots sep keeps h
  obtain ⟨-, recipient', b', u', v, hd', hm', hv, ht⟩ := mint_ok.mp h
  obtain rfl := Option.some.inj (hd.symm.trans hd')
  obtain ⟨rfl, rfl⟩ : b = b' ∧ u = u' := by simpa using hm.symm.trans hm'
  obtain ⟨w, w', hobs, hl, hu⟩ := mintSettle_ok.mp hm
  obtain ⟨rfl, -⟩ := observes_held std hobs
  rw [token0_locked, token1_locked] at hobs
  have hworld : t.world = w.world := by
    obtain ⟨-, -, -, rfl⟩ := updateReserves_ok.mp hv
    have hw' : w'.world = w.world := mintLiquidity_world hl
    rw [← ht, ← hw', ← hu]
    rfl
  obtain ⟨hset, ht0, ht1⟩ := settled_of_observed std hobs hworld hw0 hw1 hsl
    (Function.update_of_ne (by decide) ..) (Function.update_of_ne (by decide) ..)
  exact ⟨hset, ht0, ht1, stored_of_word hw0 hw1 (by rw [hsl, Function.update_self])⟩

variable (hne : token0 api s ≠ token1 api s)

include hne

/-- A burn records what it leaves: in each token the balance less the part of
the LP tokens burnt, or more where the token did not move. -/
theorem burn_settled (sep : Separated api) (hw0 : (held api view s).balance0.toNat < 2 ^ 112)
    (hw1 : (held api view s).balance1.toNat < 2 ^ 112) {p : U256 × U256}
    (h : burn api abi callData s = .ok p t) :
    Settled api view t ∧ token0 api t = token0 api s ∧ token1 api t = token1 api s ∧
      (held api view s).balance0.toNat - p.1.toNat ≤ (stored api t).1 ∧
      (held api view s).balance1.toNat - p.2.toNat ≤ (stored api t).2 := by
  obtain ⟨recipient, b, u, hd, hb, -, -, hsl⟩ := burn_slots sep keeps h
  obtain ⟨-, recipient', b', u', v, hd', hb', hv, ht⟩ := burn_ok.mp h
  obtain rfl := Option.some.inj (hd.symm.trans hd')
  obtain ⟨rfl, rfl⟩ : b = b' ∧ u = u' := by simpa using hb.symm.trans hb'
  obtain ⟨-, -, -, -, b0, u0, u1, u2, hobs, -, -, hp0, hp1, hleft⟩ := burnSettle_ok.mp hb
  obtain ⟨rfl, hview⟩ := observes_held std hobs
  rw [token0_locked] at hp0 hleft
  rw [token1_locked] at hp1 hleft
  have hpay0 := safeTransfer_view std (.inl rfl) hp0
  have hpay1 := safeTransfer_view std (.inr rfl) hp1
  obtain ⟨hlow0, hle0, hlow1, hle1⟩ := balances_after_payments std (.inl rfl) (.inr rfl) hne hpay0 hpay1 rfl
    hleft
  rw [burned, State.set_world, State.set_world, hview] at hlow0 hle0 hlow1 hle1
  have hworld : t.world = u.world := by
    obtain ⟨-, -, -, rfl⟩ := updateReserves_ok.mp hv
    rw [← ht]
    rfl
  have hb0 := hle0.trans_lt hw0
  have hb1 := hle1.trans_lt hw1
  obtain ⟨hset, ht0, ht1⟩ := settled_of_observed std hleft hworld hb0 hb1 hsl
    (Function.update_of_ne (by decide) ..) (Function.update_of_ne (by decide) ..)
  refine ⟨hset, ht0, ht1, ?_⟩
  rw [stored_of_word hb0 hb1 (by rw [hsl, Function.update_self])]
  exact ⟨hlow0, hlow1⟩

/-- A swap within the declared width records what it leaves, which is no more than there was. -/
theorem swap_settled {decoded : SwapArgs} (hd : abi.swapCall callData = some decoded)
    (hw0 : (held api view s).balance0.toNat < 2 ^ 112) (hw1 : (held api view s).balance1.toNat < 2 ^ 112)
    (h : swap api abi callData s = .ok () t) :
    Settled api view t ∧ token0 api t = token0 api s ∧ token1 api t = token1 api s ∧
      ∃ b, SwapPasses api abi callData s decoded b ∧ stored api t = (b.balance0.toNat, b.balance1.toNat) ∧
        b.balance0.toNat ≤ (held api view s).balance0.toNat ∧
        b.balance1.toNat ≤ (held api view s).balance1.toNat := by
  obtain ⟨decoded', b, u, hd', hb, -, -, hsl⟩ := swap_slots keeps h
  obtain rfl : decoded' = decoded := Option.some.inj (hd'.symm.trans hd)
  obtain ⟨-, decoded', b', u', v, hd', hb', hv, ht⟩ := swap_ok.mp h
  obtain rfl : decoded' = _ := Option.some.inj (hd'.symm.trans hd)
  obtain ⟨rfl, rfl⟩ : b = b' ∧ u = u' := by simpa using hb.symm.trans hb'
  obtain ⟨-, -, -, -, -, u0, u1, hp0, hp1, hobs, -, -⟩ := swapSettle_ok.mp hb
  have hread := value_eq_some.mpr ⟨u, swapObserves_ok.mpr ⟨u0, u1, hp0, hp1, hobs⟩⟩
  rw [token0_locked] at hp0 hobs
  rw [token1_locked] at hp1 hobs
  have hpay0 := payout_view std (.inl rfl) hp0
  have hpay1 := payout_view std (.inr rfl) hp1
  obtain ⟨-, hle0, -, hle1⟩ := balances_after_payments std (.inl rfl) (.inr rfl) hne hpay0 hpay1 rfl hobs
  have hworld : t.world = u.world := by
    obtain ⟨-, -, -, rfl⟩ := updateReserves_ok.mp hv
    rw [← ht]
    rfl
  have hb0 := hle0.trans_lt hw0
  have hb1 := hle1.trans_lt hw1
  obtain ⟨hset, ht0, ht1⟩ := settled_of_observed std hobs hworld hb0 hb1 hsl rfl rfl
  exact ⟨hset, ht0, ht1, b, swapPasses_of_swap h hd hread,
    stored_of_word hb0 hb1 (by rw [hsl, Function.update_self]), hle0, hle1⟩

theorem skim_backed (hs : Backed api view s) {x : Unit} (h : skim api abi callData s = .ok x t) :
    Backed api view t ∧ stored api t = stored api s := by
  have hsl := skim_slots keeps h
  obtain ⟨-, recipient, b, u, v, w, -, hobs, hp0, hp1, ht⟩ := skim_ok.mp h
  obtain ⟨rfl, hu⟩ := observes_held std hobs
  rw [token0_locked, reserves_locked] at hp0
  rw [token1_locked, reserves_locked] at hp1
  have hle0 : (stored api s).1 ≤ (reserves api s).reserve0.toNat := (reserve0_eq_stored s).ge
  obtain ⟨hk0, hothers0⟩ := surplus_paid std (.inl rfl) (by rw [hu]; rfl) hs.balance0 hle0 hp0
  have hb1 : view v.world (token1 api s) api.address = (held api view s).balance1 := by
    rw [hothers0 _ hne.symm, hu]
    rfl
  obtain ⟨hk1, hothers1⟩ := surplus_paid std (.inr rfl) hb1 hs.balance1 (stored_le_reserve1 s) hp1
  have hst := stored_of_slots hsl
  have hworld : view t.world = view w.world := by
    rw [← ht]
    rfl
  obtain ⟨ht0, ht1⟩ := tokens_of_slots (congrFun hsl slotToken0) (congrFun hsl slotToken1)
  refine ⟨⟨?_, ?_⟩, hst⟩
  · rw [hst, held, ht0, hworld, hothers1 _ hne]
    exact hk0
  · rw [hst, held, ht1, hworld]
    exact hk1

end Closing

end Operations

end RiscVContracts.Backing
