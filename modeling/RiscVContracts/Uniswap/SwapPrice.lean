import RiscVContracts.Uniswap.Commits
import RiscVContracts.Uniswap.ShareValue

namespace RiscVContracts.SwapPrice

open Programs Bytes Host Storage Pair PairView PairSpec PairSlots Calldata Symbolic Tokens Runs FeeCheck
  ShareValue Commits

section Tokens

variable {κ W : Type}

/-- Tokens whose calls never fail without need: `balanceOf` is honest, and a
transfer succeeds exactly when it is covered, and then moves the amount. -/
structure ExactTokens (api : Api κ W) (view : W → Ledger) (tokens : Set Address) : Prop where
  balanceOf : ∀ token ∈ tokens, ∀ account s, ∃ output t,
    api.callEvm token (balanceOfInput account) s = (some output, t) ∧
      readOutput output = view s.world token account ∧ view t.world = view s.world
  transfer : ∀ token ∈ tokens, ∀ recipient v s, v ≤ view s.world token api.address → ∃ output t,
    api.callEvm token (transferInput recipient v) s = (some output, t) ∧
      Paid (view s.world) (view t.world) token api.address recipient v
  refuse : ∀ token ∈ tokens, ∀ recipient v s, ¬ v ≤ view s.world token api.address → ∃ t,
    api.callEvm token (transferInput recipient v) s = (none, t)

variable {api : Api κ W} {view : W → Ledger} {tokens : Set Address} {s : State κ W}
  {token token0 token1 recipient : Address} {v : U256}

theorem payout_exact (exact : ExactTokens api view tokens) (ht : token ∈ tokens)
    (hself : recipient ≠ api.address) (hv : v ≤ view s.world token api.address) :
    ∃ t, payout api token recipient v s = .ok () t ∧
      view t.world token api.address = view s.world token api.address - v ∧
      ∀ other, other ≠ token → view t.world other = view s.world other := by
  by_cases h0 : v = 0
  · exact ⟨s, payout_ok.mpr (.inl ⟨h0, rfl⟩), by rw [h0]; exact (BitVec.sub_zero _).symm, fun _ _ => rfl⟩
  · obtain ⟨output, t, ho, hp⟩ := exact.transfer token ht recipient v s hv
    refine ⟨t, payout_ok.mpr (.inr ⟨h0, safeTransfer_ok.mpr ⟨output, ho⟩⟩), ?_, hp.others⟩
    rw [hp.paid, pay_sender, if_neg hself]

theorem observeBalances_exact (exact : ExactTokens api view tokens) (h0 : token0 ∈ tokens)
    (h1 : token1 ∈ tokens) (s : State κ W) : ∃ t, observeBalances api token0 token1 s = .ok
      { balance0 := view s.world token0 api.address, balance1 := view s.world token1 api.address } t := by
  obtain ⟨o0, u, hc0, hr0, hw0⟩ := exact.balanceOf token0 h0 api.address s
  obtain ⟨o1, t, hc1, hr1, -⟩ := exact.balanceOf token1 h1 api.address u
  exact ⟨t, observeBalances_ok.mpr ⟨u, safeBalanceOf_ok.mpr ⟨o0, hc0, hr0⟩,
    safeBalanceOf_ok.mpr ⟨o1, hc1, by rw [hr1, hw0]⟩⟩⟩

end Tokens

section Commits

variable {κ W : Type} [DecidableEq κ] {api : Api κ W} {abi : PairAbi} {callData : Buffer}
  {view : W → Ledger} {s : State κ W} {decoded : SwapArgs}

def left (api : Api κ W) (view : W → Ledger) (s : State κ W) (decoded : SwapArgs) : Balances where
  balance0 := (held api view s).balance0 - decoded.amount0Out
  balance1 := (held api view s).balance1 - decoded.amount1Out

theorem swapObserves_exact
    (exact : ExactTokens api view {x | x = token0 api s ∨ x = token1 api s})
    (hne : token0 api s ≠ token1 api s) (hself : decoded.recipient ≠ api.address)
    (h0 : decoded.amount0Out ≤ (held api view s).balance0)
    (h1 : decoded.amount1Out ≤ (held api view s).balance1) :
    value (swapObserves api decoded (locked api s)) = some (left api view s decoded) := by
  obtain ⟨u, hu, hu0, hothers⟩ := payout_exact (s := locked api s) exact (.inl rfl) hself h0
  have hcov : decoded.amount1Out ≤ view u.world (token1 api s) api.address := by
    rw [hothers _ hne.symm]
    exact h1
  obtain ⟨v, hv, hv1, hothers'⟩ := payout_exact exact (.inr rfl) hself hcov
  obtain ⟨t, ht⟩ := observeBalances_exact exact (.inl rfl) (.inr rfl) v
  have hleft : left api view s decoded =
      { balance0 := view v.world (token0 api s) api.address
        balance1 := view v.world (token1 api s) api.address } := by
    rw [hothers' _ hne, hu0, hv1, hothers _ hne.symm]
    rfl
  rw [hleft]
  refine value_eq_some.mpr ⟨t, swapObserves_ok.mpr ⟨u, v, ?_, ?_, ?_⟩⟩
  · rwa [token0_locked]
  · rwa [token1_locked]
  · rwa [token0_locked, token1_locked]

/-- A swap of an unlocked pair over two different exact tokens, at a time the
pair can read, paying neither the pair nor its tokens. -/
structure Ready (api : Api κ W) (abi : PairAbi) (view : W → Ledger) (callData : Buffer) (s : State κ W)
    (decoded : SwapArgs) : Prop where
  exact : ExactTokens api view {x | x = token0 api s ∨ x = token1 api s}
  tokens_ne : token0 api s ≠ token1 api s
  unlocked : slots api s slotUnlocked = 1
  clock : (clock api).toNat < 2 ^ 32
  swap : pairFn callData = some .swap
  decodes : abi.swapCall callData = some decoded
  self : decoded.recipient ≠ api.address
  recipient0 : decoded.recipient ≠ token0 api s
  recipient1 : decoded.recipient ≠ token1 api s

/-- One token in a swap: the amount asked for is covered, within the declared
width, and `paid` is this side of the exact fee check. -/
structure Side (r : U128) (held out : U256) (paid : Int) : Prop where
  out_lt : out < fromUint r
  out_le : out ≤ held
  left_lt : (held - out).toNat < 2 ^ 112
  reserve_lt : r.toNat < 2 ^ 112
  adjusted : exactAdjusted (held - out).toNat r.toNat out.toNat = paid

/-- A ready swap returns exactly when something came in and the exact fee check holds. -/
theorem swap_commits_iff (ready : Ready api abi view callData s decoded) {paid0 paid1 : Int}
    (side0 : Side (reserves api s).reserve0 (held api view s).balance0 decoded.amount0Out paid0)
    (side1 : Side (reserves api s).reserve1 (held api view s).balance1 decoded.amount1Out paid1)
    (hsome : ¬ (decoded.amount0Out = 0 ∧ decoded.amount1Out = 0))
    (hin : ¬ (amountIn (left api view s decoded).balance0 (fromUint (reserves api s).reserve0)
        decoded.amount0Out = 0 ∧
      amountIn (left api view s decoded).balance1 (fromUint (reserves api s).reserve1)
        decoded.amount1Out = 0)) :
    (∃ out t, call api abi callData s = .ok out t) ↔ exactK (reserves api s) ≤ paid0 * paid1 := by
  have hobs := swapObserves_exact ready.exact ready.tokens_ne ready.self side0.out_le side1.out_le
  have hb0 : (left api view s decoded).balance0.toNat < 2 ^ 128 := side0.left_lt.trans (by decide)
  have hb1 : (left api view s decoded).balance1.toNat < 2 ^ 128 := side1.left_lt.trans (by decide)
  have hfee := feeCheck_iff hb0 hb1 side0.out_lt side1.out_lt
    (inRange_of_lt side0.left_lt side1.left_lt side0.reserve_lt side1.reserve_lt side0.out_lt side1.out_lt)
  rw [exactPaid, left, side0.adjusted, side1.adjusted] at hfee
  simp only [call_ok_of_fn ready.swap, run, bind_pure_ok]
  constructor
  · rintro ⟨out, t, _, h, -⟩
    exact hfee.mp (swapPasses_of_swap h ready.decodes hobs).fee
  · intro hk
    have hp : SwapPasses api abi callData s decoded (left api view s decoded) :=
      ⟨ready.unlocked, ready.decodes, hsome, side0.out_lt, side1.out_lt, ready.recipient0,
        ready.recipient1, hobs, hin, hfee.mpr hk, hb0, hb1, ready.clock⟩
    obtain ⟨t, ht⟩ := hp.commits
    exact ⟨[], t, (), ht, rfl⟩

theorem out_lt_of_call (hf : pairFn callData = some .swap) (hd : abi.swapCall callData = some decoded)
    {out : Buffer} {t : State κ W} (h : call api abi callData s = .ok out t) :
    decoded.amount0Out < fromUint (reserves api s).reserve0 ∧
      decoded.amount1Out < fromUint (reserves api s).reserve1 := by
  obtain ⟨x, hs, -⟩ := bind_pure_ok.mp ((call_ok_of_fn hf).mp h)
  obtain ⟨-, decoded', b, u, v, hd', hb, -⟩ := swap_ok.mp hs
  obtain rfl : decoded' = decoded := Option.some.inj (hd'.symm.trans hd)
  obtain ⟨-, hout0, hout1, -⟩ := swapSettle_ok.mp hb
  rw [reserves_locked] at hout0 hout1
  exact ⟨hout0, hout1⟩

end Commits

section Price

/-- What `dx` units of one token buy of the other, after the fee of three per mille. -/
def quote (reserveIn reserveOut dx : Nat) : Nat :=
  997 * dx * reserveOut / (1000 * reserveIn + 997 * dx)

variable {reserveIn reserveOut dx dy : Nat}

theorem quote_lt (hin : 0 < reserveIn) (hout : 0 < reserveOut) : quote reserveIn reserveOut dx < reserveOut := by
  apply Nat.div_lt_of_lt_mul
  exact Nat.mul_lt_mul_of_pos_right (by omega) hout

theorem le_quote_iff (hin : 0 < reserveIn) : dy ≤ quote reserveIn reserveOut dx ↔
    (10 ^ 6 * reserveIn * reserveOut : Int) ≤
      (1000 * reserveIn + 997 * dx) * (1000 * (reserveOut - dy)) := by
  have hpos : 0 < 1000 * reserveIn + 997 * dx := by omega
  have heq : ((1000 * reserveIn + 997 * dx) * (1000 * (reserveOut - dy)) : Int) -
      10 ^ 6 * reserveIn * reserveOut =
        1000 * (997 * dx * reserveOut - dy * (1000 * reserveIn + 997 * dx)) := by ring
  rw [quote, Nat.le_div_iff_mul_le hpos]
  zify
  constructor
  · intro h
    linarith
  · intro h
    linarith

theorem iff_le_quote (hin : 0 < reserveIn) (hout : 0 < reserveOut) {p : Prop} (hlt : p → dy < reserveOut)
    (h : dy < reserveOut → (p ↔ dy ≤ quote reserveIn reserveOut dx)) :
    p ↔ dy ≤ quote reserveIn reserveOut dx := by
  constructor
  · intro hp
    exact (h (hlt hp)).mp hp
  · intro hq
    exact (h (hq.trans_lt (quote_lt hin hout))).mpr hq

variable {r : U128} {balance out : U256}

theorem lt_fromUint {x : U256} : x < fromUint r ↔ x.toNat < r.toNat := by
  rw [BitVec.lt_def, toNat_fromUint r (by decide)]

theorem side_sold (hr : 0 < r.toNat) (hb : balance.toNat = r.toNat + dx)
    (hlt : r.toNat + dx < 2 ^ 112) : Side r balance 0 (1000 * r.toNat + 997 * dx) := by
  have hleft : (balance - 0).toNat = r.toNat + dx := by
    rw [← hb]
    exact congrArg BitVec.toNat (BitVec.sub_zero balance)
  refine ⟨lt_fromUint.mpr hr, BitVec.le_def.mpr (Nat.zero_le _), hleft.trans_lt hlt,
    (Nat.le_add_right ..).trans_lt hlt, ?_⟩
  rw [hleft, exactAdjusted, exactIn, show (0 : U256).toNat = 0 from rfl]
  omega

theorem side_bought (hb : balance.toNat = r.toNat) (hlt : r.toNat < 2 ^ 112)
    (hout : out.toNat < r.toNat) : Side r balance out (1000 * (r.toNat - out.toNat)) := by
  have hle : out ≤ balance := BitVec.le_def.mpr (hb ▸ hout.le)
  have hleft : (balance - out).toNat = r.toNat - out.toNat := by
    rw [BitVec.toNat_sub_of_le hle, hb]
  refine ⟨lt_fromUint.mpr hout, hle, hleft ▸ (Nat.sub_le _ _).trans_lt hlt, hlt, ?_⟩
  rw [hleft, exactAdjusted, exactIn]
  omega

theorem amountIn_ne_zero (hr : 0 < r.toNat) (hdx : 0 < dx) (hb : balance.toNat = r.toNat + dx) :
    amountIn (balance - 0) (fromUint r) 0 ≠ 0 := by
  intro h
  have hpos : (0 : U256) < fromUint r := lt_fromUint.mpr hr
  have hin := toNat_amountIn (b := balance - 0) hpos
  rw [h, show balance - 0 = balance from BitVec.sub_zero balance, hb,
    show (0 : U256).toNat = 0 from rfl] at hin
  omega

variable {κ W : Type} [DecidableEq κ] {api : Api κ W} {abi : PairAbi} {callData : Buffer}
  {view : W → Ledger} {s s₁ : State κ W} {decoded : SwapArgs}

/-- After `dx` of one token was sent to the pair, a swap for the other returns
exactly up to the quoted amount. -/
theorem swap_price_exact (ready : Ready api abi view callData s₁ decoded)
    (hr0 : 0 < (reserves api s).reserve0.toNat) (hr1 : 0 < (reserves api s).reserve1.toNat)
    (hdx : 0 < dx) :
    (Deposited api view s s₁ dx 0 → (reserves api s).reserve0.toNat + dx < 2 ^ 112 →
      (reserves api s).reserve1.toNat < 2 ^ 112 → decoded.amount0Out = 0 → decoded.amount1Out ≠ 0 →
      ((∃ out t, call api abi callData s₁ = .ok out t) ↔ decoded.amount1Out.toNat ≤
        quote (reserves api s).reserve0.toNat (reserves api s).reserve1.toNat dx)) ∧
    (Deposited api view s s₁ 0 dx → (reserves api s).reserve1.toNat + dx < 2 ^ 112 →
      (reserves api s).reserve0.toNat < 2 ^ 112 → decoded.amount1Out = 0 → decoded.amount0Out ≠ 0 →
      ((∃ out t, call api abi callData s₁ = .ok out t) ↔ decoded.amount0Out.toNat ≤
        quote (reserves api s).reserve1.toNat (reserves api s).reserve0.toNat dx)) := by
  constructor
  · intro hd hb0 hb1 h0 h1
    have hr : reserves api s₁ = reserves api s := congrArg unpackReserves (congrFun hd.storage _)
    have hheld0 : (held api view s₁).balance0.toNat = (reserves api s).reserve0.toNat + dx := by
      rw [hd.balance0, hd.reserve0]
    have hheld1 : (held api view s₁).balance1.toNat = (reserves api s).reserve1.toNat := by
      rw [hd.balance1, hd.reserve1, Nat.add_zero]
    refine iff_le_quote hr0 hr1 ?_ fun hlt => ?_
    · rintro ⟨out, t, hc⟩
      exact lt_fromUint.mp (hr ▸ (out_lt_of_call ready.swap ready.decodes hc).2)
    · rw [swap_commits_iff ready (by rw [hr, h0]; exact side_sold hr0 hheld0 hb0)
        (by rw [hr]; exact side_bought hheld1 hb1 hlt) (fun h => h1 h.2)
        (by rw [left, h0, hr]; exact fun h => amountIn_ne_zero hr0 hdx hheld0 h.1), hr, exactK,
        le_quote_iff hr0]
  · intro hd hb1 hb0 h1 h0
    have hr : reserves api s₁ = reserves api s := congrArg unpackReserves (congrFun hd.storage _)
    have hheld0 : (held api view s₁).balance0.toNat = (reserves api s).reserve0.toNat := by
      rw [hd.balance0, hd.reserve0, Nat.add_zero]
    have hheld1 : (held api view s₁).balance1.toNat = (reserves api s).reserve1.toNat + dx := by
      rw [hd.balance1, hd.reserve1]
    refine iff_le_quote hr1 hr0 ?_ fun hlt => ?_
    · rintro ⟨out, t, hc⟩
      exact lt_fromUint.mp (hr ▸ (out_lt_of_call ready.swap ready.decodes hc).1)
    · rw [swap_commits_iff ready (by rw [hr]; exact side_bought hheld0 hb0 hlt)
        (by rw [hr, h1]; exact side_sold hr1 hheld1 hb1) (fun h => h0 h.1)
        (by rw [left, h1, hr]; exact fun h => amountIn_ne_zero hr1 hdx hheld1 h.2), hr, exactK,
        le_quote_iff hr1, mul_right_comm, mul_comm (1000 * _ : Int)]

/-- The same swap on a heap: it returns exactly up to the quoted amount, when
the heap has room for the call. -/
theorem swap_price_on_heap (allocates : List Nat → Bool) (ready : Ready api abi view callData s₁ decoded)
    (hr0 : 0 < (reserves api s).reserve0.toNat) (hr1 : 0 < (reserves api s).reserve1.toNat)
    (hdx : 0 < dx) :
    (Deposited api view s s₁ dx 0 → (reserves api s).reserve0.toNat + dx < 2 ^ 112 →
      (reserves api s).reserve1.toNat < 2 ^ 112 → decoded.amount0Out = 0 → decoded.amount1Out ≠ 0 →
      ((∃ out t, callOnHeap api abi callData allocates s₁ = .ok out t) ↔
        HasRoom abi callData allocates ∧ decoded.amount1Out.toNat ≤
          quote (reserves api s).reserve0.toNat (reserves api s).reserve1.toNat dx)) ∧
    (Deposited api view s s₁ 0 dx → (reserves api s).reserve1.toNat + dx < 2 ^ 112 →
      (reserves api s).reserve0.toNat < 2 ^ 112 → decoded.amount1Out = 0 → decoded.amount0Out ≠ 0 →
      ((∃ out t, callOnHeap api abi callData allocates s₁ = .ok out t) ↔
        HasRoom abi callData allocates ∧ decoded.amount0Out.toNat ≤
          quote (reserves api s).reserve1.toNat (reserves api s).reserve0.toNat dx)) := by
  obtain ⟨hsold0, hsold1⟩ := swap_price_exact ready hr0 hr1 hdx
  simp only [callOnHeap_ok, exists_and_left]
  constructor
  · intro hd hb0 hb1 h0 h1
    exact and_congr_right fun _ => hsold0 hd hb0 hb1 h0 h1
  · intro hd hb1 hb0 h1 h0
    exact and_congr_right fun _ => hsold1 hd hb1 hb0 h1 h0

end Price

theorem exactTokens_ledger {κ : Type} {api : Api κ Ledger} (h : api.callEvm = ledgerCall api.address)
    (tokens : Set Address) : ExactTokens api id tokens where
  balanceOf token _ account s := by
    rw [h, ledgerCall_balanceOf]
    exact ⟨_, _, rfl, readOutput_toBeBytes _, rfl⟩
  transfer token _ recipient v s hv := by
    rw [h, ledgerCall_transfer, if_pos (show v ≤ s.world token api.address from hv)]
    exact ⟨_, _, rfl, hv, Function.update_self .., fun other ho => Function.update_of_ne ho ..⟩
  refuse token _ recipient v s hv := by
    rw [h, ledgerCall_transfer, if_neg (show ¬ v ≤ s.world token api.address from hv)]
    exact ⟨s, rfl⟩

section Samples

def soldPair : State Key Ledger :=
  { mintedPair (2 ^ 20) (2 ^ 20) with world := holding (2 ^ 20 + 10000) (2 ^ 20) }

theorem deposited_soldPair : Deposited (ledgerApi 5 9) id (mintedPair (2 ^ 20) (2 ^ 20)) soldPair 10000 0 := by
  have hstorage : soldPair.storage = (mintedPair (2 ^ 20) (2 ^ 20)).storage := by rw [soldPair]
  refine ⟨?_, ?_, hstorage, ?_, ?_⟩ <;> decide +kernel

def buyData (dy : U256) (data : Buffer) : Buffer :=
  encodeCall PairFn.swap.selector [0, dy, padAddress 5, 128, BitVec.ofNat 256 data.length] ++ data

theorem ready_soldPair (dy : U256) (data : Buffer) (hf : pairFn (buyData dy data) = some .swap)
    (hd : standardAbi.swapCall (buyData dy data) =
      some { amount0Out := 0, amount1Out := dy, recipient := 5, data := data }) :
    Ready (ledgerApi 5 9) standardAbi id (buyData dy data) soldPair
      { amount0Out := 0, amount1Out := dy, recipient := 5, data := data } := by
  have h0 : (5 : Address) ≠ token0 (ledgerApi 5 9) soldPair := by decide +kernel
  have h1 : (5 : Address) ≠ token1 (ledgerApi 5 9) soldPair := by decide +kernel
  have hself : (5 : Address) ≠ (ledgerApi 5 9).address := by decide
  refine ⟨exactTokens_ledger rfl _, ?_, ?_, ?_, hf, hd, hself, h0, h1⟩ <;> decide +kernel

/-- An allocator that keeps no books of its own, over an array of 4096 bytes. -/
def arrayHeap (blocks : List Nat) : Bool := blocks.sum ≤ 4096

/-- With two kilobytes for its callback, a swap for less than the quote traps. -/
theorem long_swap_traps :
    let data := List.replicate 2048 0
    let decoded : SwapArgs := { amount0Out := 0, amount1Out := 9876, recipient := 5, data := data }
    Ready (ledgerApi 5 9) standardAbi id (buyData 9876 data) soldPair decoded ∧
      Deposited (ledgerApi 5 9) id (mintedPair (2 ^ 20) (2 ^ 20)) soldPair 10000 0 ∧
      decoded.amount1Out.toNat ≤ quote (2 ^ 20) (2 ^ 20) 10000 ∧
      (reserves (ledgerApi 5 9) (mintedPair (2 ^ 20) (2 ^ 20))).reserve0 = 2 ^ 20 ∧
      (reserves (ledgerApi 5 9) (mintedPair (2 ^ 20) (2 ^ 20))).reserve1 = 2 ^ 20 ∧
      ¬ ∃ out t, callOnHeap (ledgerApi 5 9) standardAbi (buyData 9876 data) arrayHeap soldPair =
        .ok out t := by
  intro data decoded
  have hf : pairFn (buyData 9876 data) = some .swap := by decide +kernel
  have hd : standardAbi.swapCall (buyData 9876 data) = some decoded := by decide +kernel
  have hroom : ¬ HasRoom standardAbi (buyData 9876 data) arrayHeap := by decide +kernel
  refine ⟨ready_soldPair 9876 data hf hd, deposited_soldPair, by decide +kernel, by decide +kernel, by decide +kernel, ?_⟩
  rintro ⟨out, t, h⟩
  exact hroom (callOnHeap_ok.mp h).1

theorem swap_price_sample :
    (∃ out t, callOnHeap (ledgerApi 5 9) standardAbi (buyData 9876 []) arrayHeap soldPair = .ok out t) ∧
      ¬ ∃ out t, callOnHeap (ledgerApi 5 9) standardAbi (buyData 9877 []) arrayHeap soldPair = .ok out t := by
  have price (dy : U256) (hf) (hd) := swap_price_on_heap arrayHeap (ready_soldPair dy [] hf hd)
    (s := mintedPair (2 ^ 20) (2 ^ 20)) (by decide +kernel) (by decide +kernel) (show 0 < 10000 by decide)
  constructor
  · exact ((price 9876 (by decide +kernel) (by decide +kernel)).1 deposited_soldPair (by decide +kernel)
      (by decide +kernel) rfl (by decide)).mpr ⟨by decide +kernel, by decide +kernel⟩
  · exact fun h => absurd (((price 9877 (by decide +kernel) (by decide +kernel)).1 deposited_soldPair
      (by decide +kernel) (by decide +kernel) rfl (by decide)).mp h).2 (by decide +kernel)

end Samples

end RiscVContracts.SwapPrice
