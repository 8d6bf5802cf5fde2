import RiscVContracts.Uniswap.Exits
import RiscVContracts.Uniswap.SquareRoot

namespace RiscVContracts.FirstMints

open Programs Bytes Host Storage Math Pair PairView PairSpec PairSlots Calldata Symbolic Tokens Runs Deposits
  ShareValue RoundTrip Commits Widths Supply SplitBurn SwapPrice Backing Redemption Exits SquareRoot

section Issue

variable {κ W : Type} [DecidableEq κ] {api : Api κ W} {s t : State κ W}

/-- The LP tokens `mint` issues for amounts beyond the reserves, if it issues any. -/
def issue (supply : U256) (x : U256 × U256) (r : Reserves) : Option U256 :=
  if supply = 0 then
    if (x.1 * x.2).toNat.sqrt ≤ minimumLiquidity.toNat then none
    else some (BitVec.ofNat 256 (x.1 * x.2).toNat.sqrt - minimumLiquidity)
  else if fromUint r.reserve0 = 0 ∨ fromUint r.reserve1 = 0 ∨ mintShare supply x.1 x.2 r = 0 then none
  else some (mintShare supply x.1 x.2 r)

theorem sqrtU256_eq (y : U256) : sqrtU256 y = some (BitVec.ofNat 256 y.toNat.sqrt) := by
  obtain ⟨r, hr, hroot⟩ := sqrtU256_root y
  rw [hr, ← hroot, BitVec.ofNat_toNat, BitVec.setWidth_eq]

theorem root_le_iff (y : U256) :
    BitVec.ofNat 256 y.toNat.sqrt ≤ minimumLiquidity ↔ y.toNat.sqrt ≤ minimumLiquidity.toNat := by
  have hlt : y.toNat.sqrt < 2 ^ 256 := (Nat.sqrt_le_self _).trans_lt y.isLt
  rw [BitVec.le_def, BitVec.toNat_ofNat, Nat.mod_eq_of_lt hlt]

theorem mintLiquidity_issue {supply a0 a1 : U256} {r : Reserves} {l : U256} :
    (∃ t, mintLiquidity api supply a0 a1 r s = .ok l t) ↔ issue supply (a0, a1) r = some l := by
  unfold mintLiquidity issue
  split
  · simp only [firstLiquidity_ok, sqrtU256_eq, Option.some.injEq, exists_eq_left', root_le_iff]
    split
    · simp_all
    · simp_all
  · simp only [laterLiquidity_ok]
    split
    · rename_i h
      simp only [reduceCtorEq, iff_false]
      rintro ⟨t, h0, h1, h2, -⟩
      tauto
    · rename_i h
      simp only [not_or] at h
      simp only [Option.some.injEq]
      constructor
      · rintro ⟨t, -, -, -, rfl, -⟩
        rfl
      · rintro rfl
        exact ⟨_, h.1, h.2.1, h.2.2, rfl, rfl⟩

end Issue

section Mint

variable {κ W : Type} [DecidableEq κ] {api : Api κ W} {abi : PairAbi} {callData : Buffer}
  {view : W → Ledger} {s t : State κ W} {recipient : Address} {l : U256}

structure Mintable (api : Api κ W) (view : W → Ledger) (s : State κ W) : Prop where
  issues : ∃ l, issue (totalSupply api s) (surplus api view s) (reserves api s) = some l
  fits0 : (held api view s).balance0.toNat < 2 ^ 128
  fits1 : (held api view s).balance1.toNat < 2 ^ 128
  clock : (clock api).toNat < 2 ^ 32

/-- The LP balances after `l` were issued to an account. A first mint sets the
balance of the zero account. -/
def enrolled (api : Api κ W) (s : State κ W) (recipient : Address) (l : U256) : Address → U256 :=
  let before := if totalSupply api s = 0 then Function.update (lp api s) 0 minimumLiquidity else lp api s
  Function.update before recipient (before recipient + l)

def heldWord (api : Api κ W) (view : W → Ledger) (s : State κ W) : U256 :=
  packReserves ((held api view s).balance0.setWidth 128) ((held api view s).balance1.setWidth 128)
    ((PairView.clock api).setWidth 32)

variable (exact : ExactTokens api view {x | x = token0 api s ∨ x = token1 api s}) (keeps : KeepsSlots api)

include exact keeps

theorem issued_of_mint (sep : Separated api) (h : mint api abi callData s = .ok l t) :
    issue (totalSupply api s) (surplus api view s) (reserves api s) = some l ∧ Mintable api view s ∧
      slots api t = Function.update (Function.update (slots api s) slotTotalSupply
        (supplyAfterMint (totalSupply api s) l)) slotReserves (heldWord api view s) := by
  have std := (paying_of_exact exact).toStandardTokens
  obtain ⟨recipient', b, u, hd', hm, hf0, hf1, hsl⟩ := mint_slots sep keeps h
  obtain ⟨-, _, b', u', v, _, hm', hv, -⟩ := mint_ok.mp h
  obtain ⟨-, -, hclock, -⟩ := updateReserves_ok.mp hv
  obtain ⟨w, w', hobs, hl, -⟩ := mintSettle_ok.mp hm
  obtain ⟨rfl, -⟩ := observes_held std hobs
  have hts : totalSupply api w = totalSupply api s := by
    rw [totalSupply, observeBalances_slots keeps (locked_slotUnlocked s) hobs]
    exact totalSupply_locked s
  rw [hts, reserves_locked] at hl
  have hissue := mintLiquidity_issue.mp ⟨_, hl⟩
  exact ⟨hissue, ⟨⟨l, hissue⟩, hf0, hf1, hclock⟩, hsl⟩

theorem mint_of_mintable (h : Mintable api view s) (hs : slots api s slotUnlocked = 1)
    (hd : abi.mintCall callData = some recipient) : ∃ l t, mint api abi callData s = .ok l t := by
  obtain ⟨l, hl⟩ := h.issues
  obtain ⟨u, hu⟩ := observeBalances_exact exact (.inl rfl) (.inr rfl) (locked api s)
  have hts : totalSupply api u = totalSupply api s := by
    rw [totalSupply, observeBalances_slots keeps (locked_slotUnlocked s) hu]
    exact totalSupply_locked s
  obtain ⟨v, hv⟩ : ∃ v, mintLiquidity api (totalSupply api s) (surplus api view s).1 (surplus api view s).2
      (reserves api s) u = .ok l v := mintLiquidity_issue.mpr hl
  have hsettle : ∃ w, mintSettle api recipient (locked api s) = .ok (held api view s, l) w := by
    refine ⟨_, mintSettle_ok.mpr ⟨u, v, ?_, ?_, rfl⟩⟩
    · rwa [token0_locked, token1_locked]
    · rwa [hts, reserves_locked]
  obtain ⟨w, hw⟩ := hsettle
  exact ⟨l, _, mint_ok.mpr ⟨hs, recipient, held api view s, w, _, hd, hw,
    updateReserves_ok.mpr ⟨h.fits0, h.fits1, h.clock, rfl⟩, rfl⟩⟩

omit exact keeps in
theorem mint_allowance (sep : Separated api) (alone : NoCallback api) {l : U256}
    (h : mint api abi callData s = .ok l t) : allowance api t = allowance api s := by
  obtain ⟨-, recipient, b, u, v, -, hm, hv, rfl⟩ := mint_ok.mp h
  obtain ⟨u', v', hobs, hl, rfl⟩ := mintSettle_ok.mp hm
  obtain ⟨-, -, -, rfl⟩ := updateReserves_ok.mp hv
  have hobserved : allowance api u' = allowance api s := by
    rw [← allowance_set_slot sep s slotUnlocked 0]
    exact funext fun o => funext fun p => congrFun (observeBalances_storage alone hobs) _
  have hissued : allowance api v' = allowance api u' := by
    rw [mintLiquidity] at hl
    split at hl
    · obtain ⟨liq, -, -, -, rfl⟩ := firstLiquidity_ok.mp hl
      rw [allowance_set_balance sep, allowance_set_slot sep]
    · obtain ⟨-, -, -, -, rfl⟩ := laterLiquidity_ok.mp hl
      rw [allowance_set_slot sep]
  rw [unlocked, allowance_set_slot sep, allowance_set_slot sep, allowance_set_balance sep, hissued,
    hobserved]

omit keeps in
/-- A call of `mint` returns exactly when there is something to issue for what
the pair holds beyond the reserves, and then credits it and takes all that the
pair holds into the reserves. -/
theorem mint_issues (sep : Separated api) (alone : NoCallback api) (hs : slots api s slotUnlocked = 1)
    (hf : pairFn callData = some .mint) (hd : abi.mintCall callData = some recipient) :
    ((∃ out t, call api abi callData s = .ok out t) ↔ Mintable api view s) ∧
      ∀ out t, call api abi callData s = .ok out t →
        ∃ l, issue (totalSupply api s) (surplus api view s) (reserves api s) = some l ∧ out = toBeBytes l ∧
          lp api t = enrolled api s recipient l ∧
          slots api t = Function.update (Function.update (slots api s) slotTotalSupply
            (supplyAfterMint (totalSupply api s) l)) slotReserves (heldWord api view s) ∧
          allowance api t = allowance api s ∧ view t.world = view s.world := by
  have keeps := alone.keepsSlots
  simp only [call_ok_of_fn hf, run, bind_pure_ok]
  refine ⟨⟨?_, fun h => ?_⟩, ?_⟩
  · rintro ⟨out, t, l, h, -⟩
    exact (issued_of_mint exact keeps sep h).2.1
  · obtain ⟨l, t, ht⟩ := mint_of_mintable exact keeps h hs hd
    exact ⟨_, t, l, ht, rfl⟩
  · rintro out t ⟨l, h, rfl⟩
    obtain ⟨hl, -, hsl⟩ := issued_of_mint exact keeps sep h
    obtain ⟨recipient', hd', hlp⟩ := mint_lp sep alone h
    obtain rfl := Option.some.inj (hd'.symm.trans hd)
    exact ⟨l, hl, rfl, hlp, hsl, mint_allowance sep alone h,
      mint_view (paying_of_exact exact).toStandardTokens h⟩

end Mint

theorem mint_issues_sample :
    let api := ledgerApi 5 9
    let s := samplePair (2 ^ 20) (2 ^ 20)
    (∃ out t, call api standardAbi (mintData 5) s = .ok out t) ∧
      issue (totalSupply api s) (surplus api id s) (reserves api s) = some (2 ^ 20 - 1000) := by
  intro api s
  have hm : Mintable api id s := by
    refine ⟨⟨2 ^ 20 - 1000, ?_⟩, ?_, ?_, ?_⟩ <;> decide +kernel
  have exact : ExactTokens api id {x | x = token0 api s ∨ x = token1 api s} := exactTokens_ledger rfl _
  have h := mint_issues exact (freeKeccak_ledgerApi 5 9).separated (noCallback_ledger rfl)
    (show slots api s slotUnlocked = 1 by decide +kernel)
    (show pairFn (mintData 5) = some .mint by decide +kernel)
    (show standardAbi.mintCall (mintData 5) = some 5 by decide +kernel)
  exact ⟨h.1.mpr hm, by decide +kernel⟩

section Rounds

variable {κ W : Type} [DecidableEq κ] {api : Api κ W} {abi : PairAbi} {view : W → Ledger}
  {holder recipient : Address} {s : State κ W} {v : Nat}

/-- A pool without a supply or reserves, of which an account has kept LP tokens. -/
structure Emptied (api : Api κ W) (s : State κ W) (holder : Address) (v : Nat) : Prop where
  supply : totalSupply api s = 0
  unlocked : slots api s slotUnlocked = 1
  reserves : stored api s = (0, 0)
  own : lp api s api.address = 0
  kept : v ≤ (lp api s holder).toNat

structure Round (W : Type) where
  minting : Tx W
  sending : Tx W
  burning : Tx W

def Round.play (api : Api κ W) (abi : PairAbi) (r : Round W) (s : State κ W) : State κ W :=
  step api abi r.burning (step api abi r.sending (step api abi r.minting s))

/-- Somebody mints for a third account on a deposit that is enough for a first
mint; then the holder sends the pair as many LP tokens as that adds to the
supply, and they are burnt for `recipient`. -/
structure Plays (api : Api κ W) (abi : PairAbi) (view : W → Ledger) (holder recipient : Address)
    (r : Round W) (s : State κ W) : Prop where
  mints : pairFn r.minting.callData = some .mint
  minted : ∃ a, abi.mintCall r.minting.callData = some a ∧ a ≠ holder ∧ a ≠ api.address
  enough : minimumLiquidity.toNat < ((held api view (r.minting.before s)).balance0.toNat *
    (held api view (r.minting.before s)).balance1.toNat).sqrt
  narrow0 : (held api view (r.minting.before s)).balance0.toNat < 2 ^ 112
  narrow1 : (held api view (r.minting.before s)).balance1.toNat < 2 ^ 112
  mintClock : (clock (r.minting.api api)).toNat < 2 ^ 32
  sends : pairFn r.sending.callData = some .transfer
  sent : abi.transferCall r.sending.callData =
    some { recipient := api.address, value := minimumLiquidity }
  sender : r.sending.caller = holder
  burns : pairFn r.burning.callData = some .burn
  burnt : abi.burnCall r.burning.callData = some recipient
  burnClock : (clock (r.burning.api api)).toNat < 2 ^ 32
  quiet : r.sending.outside = id ∧ r.burning.outside = id

def Round.Returns (api : Api κ W) (abi : PairAbi) (r : Round W) (s : State κ W) : Prop :=
  ∃ minted t sent u paid, call (r.minting.api api) abi r.minting.callData (r.minting.before s) = .ok minted t ∧
    call (r.sending.api api) abi r.sending.callData (r.sending.before t) = .ok sent u ∧
    call (r.burning.api api) abi r.burning.callData (r.burning.before u) = .ok paid (r.play api abi s)

/-- The round leaves no supply, and all that the pair held is the recipient's. -/
structure Taken (api : Api κ W) (abi : PairAbi) (view : W → Ledger) (recipient : Address) (r : Round W)
    (s : State κ W) : Prop where
  returns : r.Returns api abi s
  supply : totalSupply api (r.play api abi s) = 0
  paid : view (r.play api abi s).world = paidOut (token0 api s) (token1 api s) api.address recipient
    ((held api view (r.minting.before s)).balance0, (held api view (r.minting.before s)).balance1)
    (view (r.minting.before s).world)

omit [DecidableEq κ] in
theorem reserves_of_emptied (h : stored api s = (0, 0)) :
    fromUint (reserves api s).reserve0 = 0 ∧ fromUint (reserves api s).reserve1 = 0 := by
  constructor
  · apply BitVec.eq_of_toNat_eq
    rw [toNat_fromUint _ (by decide), reserve0_eq_stored, h]
    rfl
  · obtain ⟨h0, h1⟩ := Prod.mk.inj h
    have hlt : (slots api s slotReserves).toNat < 2 ^ 112 * 2 ^ 144 := BitVec.isLt _
    have hdiv : (slots api s slotReserves).toNat / 2 ^ 144 < 2 ^ 112 := Nat.div_lt_of_lt_mul (by omega)
    rw [field0, BitVec.toNat_setWidth, BitVec.toNat_ushiftRight, Nat.shiftRight_eq_div_pow,
      Nat.mod_eq_of_lt hdiv] at h0
    -- The extra bits of the second reserve are those of the first.
    rw [field1, BitVec.toNat_setWidth, BitVec.toNat_ushiftRight, Nat.shiftRight_eq_div_pow,
      Nat.mod_eq_of_lt (by omega)] at h1
    apply BitVec.eq_of_toNat_eq
    rw [toNat_fromUint _ (by decide), reserves, unpackReserves, BitVec.toNat_setWidth,
      BitVec.toNat_ushiftRight, Nat.shiftRight_eq_div_pow, h1]
    rfl

theorem step_of_ok {tx : Tx W} {out : Buffer} {t : State κ W}
    (h : call (tx.api api) abi tx.callData (tx.before s) = .ok out t) : step api abi tx s = t := by
  rw [step, rollback, h]
  rfl

omit [DecidableEq κ] in
theorem issue_of_enough {x : U256 × U256} {r : Reserves} (h0 : x.1.toNat < 2 ^ 112)
    (h1 : x.2.toNat < 2 ^ 112) (h : minimumLiquidity.toNat < (x.1.toNat * x.2.toNat).sqrt) :
    ∃ l, issue 0 x r = some l := by
  have hx : (x.1 * x.2).toNat = x.1.toNat * x.2.toNat := by
    rw [BitVec.toNat_mul, Nat.mod_eq_of_lt ((Nat.mul_lt_mul'' h0 h1).trans (by decide))]
  rw [issue, if_pos rfl, hx, if_neg (Nat.not_le.mpr h)]
  exact ⟨_, rfl⟩

omit [DecidableEq κ] in
theorem surplus_of_emptied (h : stored api s = (0, 0)) :
    surplus api view s = ((held api view s).balance0, (held api view s).balance1) := by
  obtain ⟨h0, h1⟩ := reserves_of_emptied h
  rw [surplus, h0, h1]
  exact Prod.ext (BitVec.sub_zero _) (BitVec.sub_zero _)

variable {r : Round W}

omit [DecidableEq κ] in
theorem mintable_of_plays (hs : Emptied api s holder v) (h : Plays api abi view holder recipient r s) :
    Mintable (r.minting.api api) view (r.minting.before s) := by
  have hx : surplus (r.minting.api api) view (r.minting.before s) =
      ((held api view (r.minting.before s)).balance0, (held api view (r.minting.before s)).balance1) :=
    surplus_of_emptied (s := r.minting.before s) hs.reserves
  refine ⟨?_, h.narrow0.trans (by decide), h.narrow1.trans (by decide), h.mintClock⟩
  have hts : totalSupply (r.minting.api api) (r.minting.before s) = 0 := hs.supply
  rw [hts, hx]
  exact issue_of_enough h.narrow0 h.narrow1 h.enough

structure Opened (api : Api κ W) (view : W → Ledger) (s t : State κ W) (holder : Address) (v : Nat) :
    Prop where
  supply : totalSupply api t = minimumLiquidity
  unlocked : slots api t slotUnlocked = 1
  token0 : token0 api t = token0 api s
  token1 : token1 api t = token1 api s
  own : lp api t api.address = 0
  kept : v ≤ (lp api t holder).toNat
  ledger : view t.world = view s.world

variable (exact : ExactTokens api view {x | x = token0 api s ∨ x = token1 api s}) (sep : Separated api)
  (alone : NoCallback api) (hholder : holder ≠ 0) (hpair : api.address ≠ 0)

include exact sep alone hholder hpair

theorem opened_of_plays (hs : Emptied api s holder v) (h : Plays api abi view holder recipient r s) :
    (∃ out, call (r.minting.api api) abi r.minting.callData (r.minting.before s) =
        .ok out (step api abi r.minting s)) ∧
      Opened api view (r.minting.before s) (step api abi r.minting s) holder v := by
  obtain ⟨a, hd, hah, hap⟩ := h.minted
  have exact' : ExactTokens (r.minting.api api) view
      {x | x = token0 api (r.minting.before s) ∨ x = token1 api (r.minting.before s)} :=
    ⟨exact.balanceOf, exact.transfer, exact.refuse⟩
  have hm := mint_issues exact' (separated_api sep r.minting) (noCallback_api alone r.minting)
    (s := r.minting.before s) hs.unlocked h.mints hd
  obtain ⟨out, t, ht⟩ := hm.1.mpr (mintable_of_plays hs h)
  obtain ⟨l, -, -, hlp, hsl, -, hview⟩ := hm.2 out t ht
  rw [step_of_ok ht]
  change slots api t = Function.update (Function.update (slots api s) slotTotalSupply
    (supplyAfterMint (totalSupply api s) l)) slotReserves _ at hsl
  have hlp' : ∀ b, b ≠ a → b ≠ 0 → lp api t b = lp api s b := by
    intro b hb h0
    change lp api t = enrolled api s a l at hlp
    rw [hlp, enrolled, Function.update_of_ne hb, if_pos hs.supply, Function.update_of_ne h0]
  refine ⟨⟨out, ht⟩, ?_, ?_, ?_, ?_, ?_, ?_, hview⟩
  · rw [totalSupply, hsl, Function.update_of_ne (by decide), Function.update_self, supplyAfterMint,
      if_pos hs.supply, hs.supply]
    rfl
  · rw [hsl, Function.update_of_ne (by decide), Function.update_of_ne (by decide)]
    exact hs.unlocked
  · rw [token0, hsl, Function.update_of_ne (by decide), Function.update_of_ne (by decide)]
    rfl
  · rw [token1, hsl, Function.update_of_ne (by decide), Function.update_of_ne (by decide)]
    rfl
  · rw [hlp' _ hap.symm hpair]
    exact hs.own
  · rw [hlp' _ hah.symm hholder]
    exact hs.kept

omit [DecidableEq κ] exact sep alone hholder hpair in
theorem before_of_quiet {tx : Tx W} (h : tx.outside = id) (s : State κ W) : tx.before s = s := by
  rw [Tx.before, h]
  rfl

omit exact sep alone hholder hpair in
theorem play_of_ok (h : Plays api abi view holder recipient r s) {u w : State κ W} {sent paid : Buffer}
    (hu : call (r.sending.api api) abi r.sending.callData (step api abi r.minting s) = .ok sent u)
    (hw : call (r.burning.api api) abi r.burning.callData u = .ok paid w) : r.play api abi s = w := by
  have hu' : step api abi r.sending (step api abi r.minting s) = u :=
    step_of_ok (by rwa [before_of_quiet h.quiet.1])
  rw [Round.play, hu']
  exact step_of_ok (by rwa [before_of_quiet h.quiet.2])

section Leaving

variable {t u w : State κ W} {p : U256 × U256}

omit [DecidableEq κ] exact sep alone hholder hpair

theorem pos_of_enough {a b : Nat} (h : minimumLiquidity.toNat < (a * b).sqrt) : 0 < a ∧ 0 < b := by
  have hpos : 0 < a * b := Nat.sqrt_pos.mp ((Nat.zero_le _).trans_lt h)
  exact ⟨Nat.pos_of_mul_pos_right hpos, Nat.pos_of_mul_pos_left hpos⟩

theorem held_of_opened (h : Opened api view s t holder v) : held api view t = held api view s := by
  rw [held, held, h.token0, h.token1, h.ledger]

theorem withdrawable_of_opened (ho : Opened api view (r.minting.before s) t holder v)
    (h : Plays api abi view holder recipient r s) : Withdrawable api view minimumLiquidity t := by
  have hheld := held_of_opened ho
  obtain ⟨hpos0, hpos1⟩ := pos_of_enough h.enough
  have hsupply : (totalSupply api t).toNat = minimumLiquidity.toNat := congrArg BitVec.toNat ho.supply
  refine ⟨?_, ?_, ?_, hheld ▸ h.narrow0, hheld ▸ h.narrow1, ?_, ?_⟩
  · rw [hsupply]
    decide
  · rw [hsupply]
    decide
  · rw [hsupply, ho.own]
    exact (Nat.zero_add _).le
  · rw [hsupply, hheld]
    exact Nat.le_mul_of_pos_right _ hpos0
  · rw [hsupply, hheld]
    exact Nat.le_mul_of_pos_right _ hpos1

theorem owned_of_opened (ho : Opened api view s t holder (v + minimumLiquidity.toNat)) :
    minimumLiquidity ≤ lp api t holder :=
  BitVec.le_def.mpr ((Nat.le_add_left ..).trans ho.kept)

theorem held_of_paid (hne : token0 api s ≠ token1 api s) (hrec : recipient ≠ api.address)
    (h0 : token0 api t = token0 api s) (h1 : token1 api t = token1 api s)
    (h : view t.world = paidOut (token0 api s) (token1 api s) api.address recipient
      ((held api view s).balance0, (held api view s).balance1) (view s.world)) :
    held api view t = { balance0 := 0, balance1 := 0 } := by
  rw [held, h0, h1, h, paidOut]
  refine congrArg₂ Balances.mk ?_ ?_
  · rw [Function.update_of_ne hne, Function.update_self, pay_sender, if_neg hrec]
    exact BitVec.sub_self _
  · rw [Function.update_self, pay_sender, if_neg hrec]
    exact BitVec.sub_self _

variable [DecidableEq κ]

include sep alone

/-- A burn of the whole supply that leaves nothing empties the pool. -/
theorem emptied_of_burn {callData : Buffer}
    (std : StandardTokens api view {x | x = token0 api s ∨ x = token1 api s})
    (hne : token0 api s ≠ token1 api s) (hself : holder ≠ api.address)
    (hopen : slots api s slotUnlocked = 1) (hall : lp api s api.address = totalSupply api s)
    (hw0 : (held api view s).balance0.toNat < 2 ^ 112) (hw1 : (held api view s).balance1.toNat < 2 ^ 112)
    (hkept : v ≤ (lp api s holder).toNat) (h : burn api abi callData s = .ok p t)
    (hleft : held api view t = { balance0 := 0, balance1 := 0 }) : Emptied api t holder v := by
  obtain ⟨hsettled, -⟩ := burn_settled std alone.keepsSlots hne sep hw0 hw1 h
  obtain ⟨_, _, _, -, -, -, -, hsl⟩ := burn_slots sep alone.keepsSlots h
  obtain ⟨-, hlp⟩ := burn_lp sep alone h
  refine ⟨?_, ?_, ?_, ?_, ?_⟩
  · rw [supply_burn sep alone.keepsSlots h, hall]
    exact BitVec.sub_self _
  · rw [hsl, Function.update_of_ne (by decide), Function.update_of_ne (by decide)]
    exact hopen
  · rw [hsettled, hleft]
    rfl
  · rw [hlp, Function.update_self]
  · rw [hlp, Function.update_of_ne hself]
    exact hkept

theorem emptied_of_leaving (std : StandardTokens api view {x | x = token0 api t ∨ x = token1 api t})
    (hne : token0 api t ≠ token1 api t) (hself : holder ≠ api.address)
    (ho : Opened api view (r.minting.before s) t holder (v + minimumLiquidity.toNat))
    (h : Plays api abi view holder recipient r s)
    (hsend : transfer (r.sending.api api) abi r.sending.callData t = .ok () u)
    (hburn : burn (r.burning.api api) abi r.burning.callData u = .ok p w)
    (hleft : held api view w = { balance0 := 0, balance1 := 0 }) : Emptied api w holder v := by
  have hplaced : Placed api view t u minimumLiquidity :=
    placed_transfer sep r.sending (h.sender ▸ hself) h.sent hsend
  obtain ⟨hu0, hu1, huts, huheld⟩ := hplaced.reads
  rw [held_of_opened ho] at huheld
  obtain ⟨_, hd, -, hlp⟩ := transfer_lp (separated_api sep r.sending) hsend
  obtain rfl := Option.some.inj (hd.symm.trans h.sent)
  change lp api u = pay (lp api t) r.sending.caller api.address minimumLiquidity at hlp
  have hkept : v ≤ (lp api u holder).toNat := by
    rw [hlp, h.sender, pay, Function.update_of_ne hself, Function.update_self,
      BitVec.toNat_sub_of_le (owned_of_opened ho)]
    exact Nat.le_sub_of_add_le ho.kept
  have hall : lp api u api.address = totalSupply api u := by
    rw [hplaced.own, ho.own, huts, ho.supply]
    exact BitVec.zero_add _
  have hstd : StandardTokens (r.burning.api api) view {x | x = token0 api u ∨ x = token1 api u} := by
    rw [hu0, hu1]
    exact ⟨std.balanceOf, std.transfer⟩
  have hneu : token0 api u ≠ token1 api u := by rwa [hu0, hu1]
  have hw0 : (held api view u).balance0.toNat < 2 ^ 112 := huheld ▸ h.narrow0
  have hw1 : (held api view u).balance1.toNat < 2 ^ 112 := huheld ▸ h.narrow1
  have hempty := emptied_of_burn (separated_api sep r.burning) (noCallback_api alone r.burning) hstd hneu
    hself ((congrFun hplaced.slots _).trans ho.unlocked) hall hw0 hw1 hkept hburn hleft
  exact ⟨hempty.supply, hempty.unlocked, hempty.reserves, hempty.own, hempty.kept⟩

end Leaving

variable (hself : holder ≠ api.address) (hrec : recipient ≠ api.address)
  (hne : token0 api s ≠ token1 api s)

include hself hrec hne

theorem round_taken (hs : Emptied api s holder (v + minimumLiquidity.toNat))
    (h : Plays api abi view holder recipient r s) :
    Taken api abi view recipient r s ∧ Emptied api (r.play api abi s) holder v ∧
      token0 api (r.play api abi s) = token0 api s ∧ token1 api (r.play api abi s) = token1 api s := by
  obtain ⟨⟨minted, hminted⟩, ho⟩ := opened_of_plays exact sep alone hholder hpair hs h
  have h0 : token0 api (step api abi r.minting s) = token0 api s := ho.token0
  have h1 : token1 api (step api abi r.minting s) = token1 api s := ho.token1
  have hheld := held_of_opened ho
  have exact' : ExactTokens api view {x | x = token0 api (step api abi r.minting s) ∨
      x = token1 api (step api abi r.minting s)} := by rwa [h0, h1]
  have hne' : token0 api (step api abi r.minting s) ≠ token1 api (step api abi r.minting s) := by
    rwa [h0, h1]
  have hl : Leaves api abi r.sending r.burning recipient minimumLiquidity (step api abi r.minting s) :=
    ⟨h.sends, h.sent, h.sender ▸ hself, h.sender ▸ owned_of_opened ho, h.burns, h.burnt, h.burnClock⟩
  obtain ⟨u, w, x, hsent, hpaid, hledger, hx0, hx1⟩ :=
    leaves_paid exact' hne' sep ho.unlocked hl (withdrawable_of_opened ho h)
  have hx : x = ((held api view (r.minting.before s)).balance0,
      (held api view (r.minting.before s)).balance1) := by
    rw [ho.supply, ho.own, hheld] at hx0 hx1
    refine Prod.ext (BitVec.eq_of_toNat_eq ?_) (BitVec.eq_of_toNat_eq ?_)
    · rw [hx0]
      exact Nat.mul_div_cancel_left _ (by decide)
    · rw [hx1]
      exact Nat.mul_div_cancel_left _ (by decide)
  have hreturns : r.Returns api abi s := by
    rw [Round.Returns, play_of_ok h hsent hpaid]
    refine ⟨minted, step api abi r.minting s, toBeBytes 1, u, toBeBytes x.1 ++ toBeBytes x.2, hminted, ?_, ?_⟩
    · rwa [before_of_quiet h.quiet.1]
    · rw [before_of_quiet h.quiet.2]
      exact hpaid
  rw [play_of_ok h hsent hpaid]
  obtain ⟨_, hsend, -⟩ := bind_pure_ok.mp ((call_ok_of_fn h.sends).mp hsent)
  obtain ⟨p, hburn, -⟩ := bind_pure_ok.mp ((call_ok_of_fn h.burns).mp hpaid)
  have hplaced : Placed api view (step api abi r.minting s) u minimumLiquidity :=
    placed_transfer sep r.sending hl.holder h.sent hsend
  obtain ⟨hu0, hu1, -⟩ := hplaced.reads
  obtain ⟨hw0, hw1⟩ := burn_tokens (separated_api sep r.burning)
    (noCallback_api alone r.burning).keepsSlots hburn
  change token0 api w = token0 api u at hw0
  change token1 api w = token1 api u at hw1
  rw [hx] at hledger
  have hleft : held api view w = { balance0 := 0, balance1 := 0 } := by
    rw [← hheld] at hledger
    exact held_of_paid hne' hrec (hw0.trans hu0) (hw1.trans hu1) hledger
  have hempty := emptied_of_leaving sep alone (paying_of_exact exact').toStandardTokens hne' hself ho h
    hsend hburn hleft
  refine ⟨⟨hreturns, ?_, ?_⟩, hempty, (hw0.trans hu0).trans h0, (hw1.trans hu1).trans h1⟩
  · rw [play_of_ok h hsent hpaid]
    exact hempty.supply
  · rw [play_of_ok h hsent hpaid, hledger, h0, h1, ho.ledger]

/-- LP tokens kept from a pool whose supply was burnt take later deposits whole:
each thousand of them one deposit, that of the next first mint, whoever makes it. -/
theorem rounds_taken (rounds : List (Round W))
    (hs : Emptied api s holder (minimumLiquidity.toNat * rounds.length))
    (h : Steps (Round.play api abi) (Plays api abi view holder recipient) rounds s) :
    Steps (Round.play api abi) (Taken api abi view recipient) rounds s := by
  induction rounds generalizing s with
  | nil => trivial
  | cons r rounds ih =>
      obtain ⟨htaken, hempty, h0, h1⟩ := round_taken exact sep alone hholder hpair hself hrec hne hs h.1
      refine ⟨htaken, ih ?_ ?_ hempty h.2⟩
      · rwa [h0, h1]
      · rwa [h0, h1]

end Rounds

def sampleRound (d0 d1 : U256) : Round Ledger where
  minting :=
    { caller := 6
      now := Vector.replicate 32 0
      callData := mintData 6
      outside := fun ledger => Function.update (Function.update ledger 1 (Function.update (ledger 1) 9 d0)) 2
        (Function.update (ledger 2) 9 d1) }
  sending := ledgerTx 5 (encodeCall PairFn.transfer.selector [padAddress 9, 1000])
  burning := ledgerTx 5 (burnData 5)

theorem rounds_taken_sample :
    let api := ledgerApi 5 9
    let s : State Key Ledger := ledgerStep 5 (burnData 5)
      (ledgerStep 5 (encodeCall PairFn.transfer.selector [padAddress 9, 1000]) (mintedPair (2 ^ 20) (2 ^ 20)))
    let t := (sampleRound 5000 6000).play api standardAbi s
    (s.world 1 5 = 2 ^ 20 ∧ t.world 1 5 = 2 ^ 20 + 5000 ∧ t.world 2 5 = 2 ^ 20 + 6000) ∧
      Steps (Round.play api standardAbi) (Taken api standardAbi id 5)
        [sampleRound 5000 6000, sampleRound 7000 8000] s := by
  intro api s t
  have hs : Emptied api s 5 (minimumLiquidity.toNat * 2) := by
    constructor <;> decide +kernel
  have hplays (d0 d1 : U256) (u : State Key Ledger)
      (hb : held api id ((sampleRound d0 d1).minting.before u) = { balance0 := d0, balance1 := d1 })
      (hd : minimumLiquidity.toNat < (d0.toNat * d1.toNat).sqrt ∧ d0.toNat < 2 ^ 112 ∧ d1.toNat < 2 ^ 112) :
      Plays api standardAbi id 5 5 (sampleRound d0 d1) u :=
    { mints := show pairFn (mintData 6) = some .mint by decide +kernel
      minted := ⟨6, show standardAbi.mintCall (mintData 6) = some 6 by decide +kernel, by decide, by decide⟩
      enough := by rw [hb]; exact hd.1
      narrow0 := by rw [hb]; exact hd.2.1
      narrow1 := by rw [hb]; exact hd.2.2
      mintClock := show (clock (ledgerApi 6 9)).toNat < 2 ^ 32 by decide +kernel
      sends := show pairFn (encodeCall PairFn.transfer.selector [padAddress 9, 1000]) = some .transfer by
        decide +kernel
      sent := show standardAbi.transferCall (encodeCall PairFn.transfer.selector [padAddress 9, 1000]) =
        some { recipient := 9, value := 1000 } by decide +kernel
      sender := rfl
      burns := show pairFn (burnData 5) = some .burn by decide +kernel
      burnt := show standardAbi.burnCall (burnData 5) = some 5 by decide +kernel
      burnClock := show (clock (ledgerApi 5 9)).toNat < 2 ^ 32 by decide +kernel
      quiet := ⟨rfl, rfl⟩ }
  have hsteps : Steps (Round.play api standardAbi) (Plays api standardAbi id 5 5)
      [sampleRound 5000 6000, sampleRound 7000 8000] s :=
    ⟨hplays _ _ _ (by decide +kernel) (by decide +kernel),
      hplays _ _ _ (by decide +kernel) (by decide +kernel), trivial⟩
  have exact : ExactTokens api id {x | x = token0 api s ∨ x = token1 api s} := exactTokens_ledger rfl _
  exact ⟨by decide +kernel, rounds_taken exact (freeKeccak_ledgerApi 5 9).separated (noCallback_ledger rfl)
    (by decide) (by decide) (by decide) (by decide) (by decide +kernel) _ hs hsteps⟩

end RiscVContracts.FirstMints
