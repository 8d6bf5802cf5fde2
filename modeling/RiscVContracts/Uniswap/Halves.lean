import RiscVContracts.Uniswap.PairPool

namespace RiscVContracts.Halves

open Programs Bytes Host Pair PairView Calldata Symbolic Tokens Runs SwapPrice Allowances
  Simulation Outcomes Pools PairPool

section Model

def ofShares : Request → Bool
  | .shares _ | .allowed _ _ | .approve _ _ | .transfer _ _ | .transferFrom _ _ _ => true
  | _ => false

def ofBoth : Request → Bool
  | .mint _ | .burn _ => true
  | _ => false

variable (p : Pool)

def book : Pool :=
  { Pool.opened 0 0 0 0 (fun _ _ => 0) with
    shares := p.shares
    allowed := p.allowed }

def market : Pool :=
  { p with
    shares := fun _ => 0
    allowed := fun _ _ => 0 }

section Book

variable {r : Request} {caller : Address} {clock : U256}

theorem book_transfer (sender recipient : Address) (v : U256) :
    (book p).transfer sender recipient v = (p.transfer sender recipient v).map book := by
  rw [Pool.transfer, Pool.transfer, apply_ite (Option.map book)]
  rfl

theorem book_spending (owner spender : Address) (v : U256) :
    (book p).spending owner spender v = book (p.spending owner spender v) := by
  rw [Pool.spending, Pool.spending, apply_ite book]
  rfl

theorem book_transferFrom (spender sender recipient : Address) (v : U256) :
    (book p).transferFrom spender sender recipient v =
      (p.transferFrom spender sender recipient v).map book := by
  rw [Pool.transferFrom, Pool.transferFrom, apply_ite (Option.map book), book_spending, book_transfer]
  rfl

theorem serve_book (hr : ofShares r = true) :
    (book p).serve caller clock r = (p.serve caller clock r).map (Prod.map id book) := by
  cases r with
  | shares | allowed | approve => rfl
  | transfer recipient v =>
      rw [Pool.serve, book_transfer, Pool.serve, Option.map_map, Option.map_map]
      rfl
  | transferFrom sender recipient v =>
      rw [Pool.serve, book_transferFrom, Pool.serve, Option.map_map, Option.map_map]
      rfl
  | _ => cases hr

theorem book_of_serve {a : List U256 × Pool} (hr : ofShares r = false) (hb : ofBoth r = false)
    (h : p.serve caller clock r = some a) : book a.2 = book p := by
  cases r with
  | shares | allowed | approve | transfer | transferFrom => cases hr
  | mint | burn => cases hb
  | setUp => cases h
  | swap order =>
      obtain ⟨q, hq, rfl⟩ := Option.map_eq_some_iff.mp h
      obtain ⟨-, hq⟩ := Option.ite_none_right_eq_some.mp hq
      obtain ⟨u, hu, hq⟩ := Option.bind_eq_some_iff.mp hq
      obtain ⟨w, hw, hq⟩ := Option.bind_eq_some_iff.mp hq
      obtain ⟨-, rfl⟩ := Pool.pays_eq_some.mp hu
      obtain ⟨-, rfl⟩ := Pool.pays_eq_some.mp hw
      obtain ⟨-, hq⟩ := Option.ite_none_right_eq_some.mp hq
      obtain ⟨-, hq⟩ := Option.ite_none_right_eq_some.mp hq
      obtain rfl := Option.some.inj hq
      rfl
  | skim recipient =>
      obtain ⟨q, hq, rfl⟩ := Option.map_eq_some_iff.mp h
      obtain ⟨u, hu, hq⟩ := Option.bind_eq_some_iff.mp hq
      obtain ⟨-, rfl⟩ := Pool.pays_eq_some.mp hu
      obtain ⟨-, rfl⟩ := Pool.pays_eq_some.mp hq
      rfl
  | sync =>
      obtain ⟨q, hq, rfl⟩ := Option.map_eq_some_iff.mp h
      obtain ⟨-, hq⟩ := Option.ite_none_right_eq_some.mp hq
      obtain rfl := Option.some.inj hq
      rfl
  | _ =>
      obtain rfl := Option.some.inj h
      rfl

end Book

section Market

variable {r : Request} {caller : Address} {clock : U256}

theorem market_pays (token recipient : Address) (v : U256) :
    (market p).pays token recipient v = (p.pays token recipient v).map market := by
  rw [Pool.pays, Pool.pays, apply_ite (Option.map market)]
  rfl

theorem market_settles (clock : U256) : (market p).settles clock = (p.settles clock).map market := by
  rw [Pool.settles, Pool.settles, apply_ite (Option.map market)]
  rfl

theorem market_swap (order : SwapArgs) (clock : U256) :
    (market p).swap order clock = (p.swap order clock).map market := by
  by_cases ht : p.Takes order
  · have ht' : (market p).Takes order := ht
    rw [Pool.swap, Pool.swap, if_pos ht, if_pos ht', market_pays]
    change ((p.pays p.token0 order.recipient order.amount0Out).map market).bind _ =
      Option.map market ((p.pays p.token0 order.recipient order.amount0Out).bind _)
    cases p.pays p.token0 order.recipient order.amount0Out with
    | none => rfl
    | some q =>
        change ((market q).pays p.token1 order.recipient order.amount1Out).bind _ =
          Option.map market ((q.pays p.token1 order.recipient order.amount1Out).bind _)
        rw [market_pays]
        cases q.pays p.token1 order.recipient order.amount1Out with
        | none => rfl
        | some u =>
            change (if p.Leaves order u.held then (market u).settles clock else none) =
              Option.map market (if p.Leaves order u.held then u.settles clock else none)
            rw [market_settles, apply_ite (Option.map market)]
            rfl
  · have ht' : ¬ (market p).Takes order := ht
    rw [Pool.swap, Pool.swap, if_neg ht, if_neg ht']
    rfl

theorem market_skim (recipient : Address) : (market p).skim recipient = (p.skim recipient).map market := by
  rw [Pool.skim, Pool.skim, market_pays]
  change ((p.pays p.token0 recipient p.surplus.1).map market).bind _ =
    Option.map market ((p.pays p.token0 recipient p.surplus.1).bind _)
  cases p.pays p.token0 recipient p.surplus.1 with
  | none => rfl
  | some q => exact market_pays q p.token1 recipient p.surplus.2

theorem market_sync : (market p).sync = p.sync.map market := by
  rw [Pool.sync, Pool.sync, apply_ite (Option.map market)]
  rfl

theorem serve_market (hr : ofShares r = false) (hb : ofBoth r = false) :
    (market p).serve caller clock r = (p.serve caller clock r).map (Prod.map id market) := by
  cases r with
  | shares | allowed | approve | transfer | transferFrom => cases hr
  | mint | burn => cases hb
  | swap order =>
      rw [Pool.serve, market_swap, Pool.serve, Option.map_map, Option.map_map]
      rfl
  | skim recipient =>
      rw [Pool.serve, market_skim, Pool.serve, Option.map_map, Option.map_map]
      rfl
  | sync =>
      rw [Pool.serve, market_sync, Pool.serve, Option.map_map, Option.map_map]
      rfl
  | _ => rfl

theorem market_of_serve {a : List U256 × Pool} (hr : ofShares r = true)
    (h : p.serve caller clock r = some a) : market a.2 = market p := by
  cases r with
  | shares | allowed | approve =>
      obtain rfl := Option.some.inj h
      rfl
  | transfer recipient v =>
      obtain ⟨q, hq, rfl⟩ := Option.map_eq_some_iff.mp h
      obtain ⟨-, hq⟩ := Option.ite_none_right_eq_some.mp hq
      obtain rfl := Option.some.inj hq
      rfl
  | transferFrom sender recipient v =>
      obtain ⟨q, hq, rfl⟩ := Option.map_eq_some_iff.mp h
      obtain ⟨-, hq⟩ := Option.ite_none_right_eq_some.mp hq
      obtain ⟨-, hq⟩ := Option.ite_none_right_eq_some.mp hq
      obtain rfl := Option.some.inj hq
      change market (p.spending sender caller v) = market p
      rw [Pool.spending]
      split <;> rfl
  | _ => cases hr

end Market

section Visits

variable {v v' : Visit}

theorem attend_book (hr : v.request.any ofShares = true) :
    Prod.map id book (attend v p) =
      attempt (v.request.bind ((book p).serve v.caller v.clock)) (book p) := by
  cases hv : v.request with
  | none =>
      rw [hv] at hr
      cases hr
  | some r =>
      rw [hv] at hr
      have hmap := attempt_map id book ({ p with ledger := v.ledger }.serve v.caller v.clock r)
        { p with ledger := v.ledger }
      rw [Option.map_id] at hmap
      rw [attend, hv, Option.bind_some, Option.bind_some, ← hmap, ← serve_book _ hr]
      rfl

theorem attend_market (hr : v.request.any ofShares = false) (hb : v.request.any ofBoth = false) :
    Prod.map id market (attend v p) = attend v (market p) := by
  cases hv : v.request with
  | none =>
      rw [attend, attend, hv]
      rfl
  | some r =>
      rw [hv] at hr hb
      have hmap := attempt_map id market ({ p with ledger := v.ledger }.serve v.caller v.clock r)
        { p with ledger := v.ledger }
      rw [Option.map_id] at hmap
      rw [attend, attend, hv, Option.bind_some, Option.bind_some, ← hmap, ← serve_market _ hr hb]
      rfl

theorem book_of_attend (hr : v.request.any ofShares = false) (hb : v.request.any ofBoth = false) :
    book (attend v p).2 = book p := by
  rw [attend]
  cases hv : v.request with
  | none => rfl
  | some r =>
      rw [hv] at hr hb
      rw [Option.bind_some]
      cases hs : { p with ledger := v.ledger }.serve v.caller v.clock r with
      | none => rfl
      | some a => exact book_of_serve { p with ledger := v.ledger } hr hb hs

theorem market_of_attend (hr : v.request.any ofShares = true) :
    market (attend v p).2 = { market p with ledger := v.ledger } := by
  rw [attend]
  cases hv : v.request with
  | none => rfl
  | some r =>
      rw [hv] at hr
      rw [Option.bind_some]
      cases hs : { p with ledger := v.ledger }.serve v.caller v.clock r with
      | none => rfl
      | some a => exact market_of_serve { p with ledger := v.ledger } hr hs

end Visits

end Model

section Runs

variable {κ W : Type} [DecidableEq κ] {api : Api κ W} {abi : PairAbi} {view : W → Ledger}
  {tokens : Set Address} {s t : State κ W} {p q : Pool}

def concernsShares (abi : PairAbi) (tx : Tx W) : Bool := (asked abi tx.callData).any ofShares

def concernsBoth (abi : PairAbi) (tx : Tx W) : Bool := (asked abi tx.callData).any ofBoth

/-- States of the pair that stand for pools with one book, or with one market. -/
def Alike (api : Api κ W) (view : W → Ledger) (tokens : Set Address) (half : Pool → Pool)
    (s t : State κ W) : Prop :=
  ∃ p q, Represents api view tokens 1 s p ∧ Represents api view tokens 1 t q ∧ half p = half q

variable (exact : ExactTokens api view tokens) (alone : NoCallback api) (cells : Distinct api)

include exact alone cells

theorem shares_apart (h : Represents api view tokens 1 s p) (txs : List (Tx W))
    (hb : ∀ tx ∈ txs, concernsBoth abi tx = false) :
    answersTo (concernsShares abi) (execute api abi) txs s =
      answers (execute api abi) (txs.filter (concernsShares abi)) s := by
  refine answersTo_eq (C := fun tx => concernsBoth abi tx = false) (Q := Alike api view tokens book)
    (fun tx s t _ hk hq => ?_) (fun tx s t hb hk hq => ?_) txs hb ⟨p, p, h, h, rfl⟩
  · obtain ⟨p, q, hp, hq, he⟩ := hq
    obtain ⟨hps, hpr⟩ := execute_attends exact alone cells abi tx hp
    obtain ⟨hqs, hqr⟩ := execute_attends exact alone cells abi tx hq
    have hbook : Prod.map id book (attend (visit api abi view tx s) p) =
        Prod.map id book (attend (visit api abi view tx t) q) := by
      rw [attend_book (v := visit api abi view tx s) p hk, attend_book (v := visit api abi view tx t) q hk, he]
      rfl
    obtain ⟨ha, hrest⟩ := Prod.mk.inj hbook
    rw [hps, hqs]
    exact ⟨congrArg _ ha, _, _, hpr, hqr, hrest⟩
  · obtain ⟨p, q, hp, hq, he⟩ := hq
    have hpr := (execute_attends exact alone cells abi tx hp).2
    exact ⟨_, q, hpr, hq, (book_of_attend (v := visit api abi view tx s) p hk hb).trans he⟩

/-- What happens outside the pair meanwhile moves the tokens by their balances alone. -/
def Public (view : W → Ledger) (tx : Tx W) : Prop :=
  ∀ w w', view w = view w' → view (tx.outside w) = view (tx.outside w')

theorem market_apart (h : Represents api view tokens 1 s p) (txs : List (Tx W))
    (hb : ∀ tx ∈ txs, concernsBoth abi tx = false ∧ Public view tx ∧
      (concernsShares abi tx = true → ∀ w, view (tx.outside w) = view w)) :
    answersTo (fun tx => !concernsShares abi tx) (execute api abi) txs s =
      answers (execute api abi) (txs.filter fun tx => !concernsShares abi tx) s := by
  refine answersTo_eq (C := fun tx => concernsBoth abi tx = false ∧ Public view tx ∧
      (concernsShares abi tx = true → ∀ w, view (tx.outside w) = view w))
    (Q := Alike api view tokens market) (fun tx s t hc hk hq => ?_) (fun tx s t hc hk hq => ?_) txs hb
    ⟨p, p, h, h, rfl⟩
  · obtain ⟨p, q, hp, hq, he⟩ := hq
    obtain ⟨hps, hpr⟩ := execute_attends exact alone cells abi tx hp
    obtain ⟨hqs, hqr⟩ := execute_attends exact alone cells abi tx hq
    have hledger : view s.world = view t.world := by
      have hl : (market p).ledger = (market q).ledger := by rw [he]
      exact hp.ledger.trans (hl.trans hq.ledger.symm)
    have hvisit : visit api abi view tx t = visit api abi view tx s := by
      rw [visit, visit, Visit.mk.injEq]
      exact ⟨rfl, rfl, rfl, (hc.2.1 _ _ hledger).symm⟩
    rw [hvisit] at hqs hqr
    have hno : concernsShares abi tx = false := by simpa using hk
    have hmarket : Prod.map id market (attend (visit api abi view tx s) p) =
        Prod.map id market (attend (visit api abi view tx s) q) := by
      rw [attend_market (v := visit api abi view tx s) p hno hc.1,
        attend_market (v := visit api abi view tx s) q hno hc.1, he]
    obtain ⟨ha, hrest⟩ := Prod.mk.inj hmarket
    rw [hps, hqs]
    exact ⟨congrArg _ ha, _, _, hpr, hqr, hrest⟩
  · obtain ⟨p, q, hp, hq, he⟩ := hq
    have hpr := (execute_attends exact alone cells abi tx hp).2
    have hyes : concernsShares abi tx = true := by simpa using hk
    refine ⟨_, q, hpr, hq, ?_⟩
    have hsame : (visit api abi view tx s).ledger = (market p).ledger :=
      (hc.2.2 hyes s.world).trans hp.ledger
    rw [market_of_attend (v := visit api abi view tx s) p hyes, hsame]
    exact he

omit exact in
/-- The LP token and the market of a pair do not interfere: in any state a
deployed pair reaches, however calls of both kinds and all others but mints and
burns follow on each other, each half gets the answers that it gets alone. -/
theorem halves_apart (abi : PairAbi) {a b : Address} (ha : a ≠ 0)
    (exact : ExactTokens api view {x | x = a ∨ x = b}) {setup : Tx W}
    (hf : pairFn setup.callData = some .initializePair)
    (hd : abi.initializeCall setup.callData = some { token0 := a, token1 := b }) (f : Address) (w : W)
    (earlier txs : List (Tx W)) (hb : ∀ tx ∈ txs, concernsBoth abi tx = false) :
    let s := earlier.foldl (fun s tx => step api abi tx s) (step api abi setup (deployed api f w))
    answersTo (concernsShares abi) (execute api abi) txs s =
        answers (execute api abi) (txs.filter (concernsShares abi)) s ∧
      ((∀ tx ∈ txs, Public view tx ∧ (concernsShares abi tx = true → ∀ w, view (tx.outside w) = view w)) →
        answersTo (fun tx => !concernsShares abi tx) (execute api abi) txs s =
          answers (execute api abi) (txs.filter fun tx => !concernsShares abi tx) s) := by
  obtain ⟨-, h⟩ := run_attends exact alone cells abi earlier (represents_opened cells ha hf hd f w)
  exact ⟨shares_apart exact alone cells h txs hb,
    fun hout => market_apart exact alone cells h txs fun tx htx => ⟨hb tx htx, hout tx htx⟩⟩

end Runs

theorem halves_apart_sample :
    let api := ledgerApi 5 9
    let send (v : U256) := ledgerTx 5 (encodeCall PairFn.transfer.selector [padAddress 6, v])
    let txs := [send 700, Trades.sellTx 61000, send (2 ^ 20)]
    let start := step api standardAbi (ledgerTx 7 (initializeData 1 2))
      (deployed api 7 (holding (2 ^ 20) (2 ^ 20)))
    let s := step api standardAbi (ledgerTx 5 (mintData 5)) start
    answers (execute api standardAbi) (txs.filter (concernsShares standardAbi)) s =
        [some (toBeBytes 1), none] ∧
      answersTo (concernsShares standardAbi) (execute api standardAbi) txs s =
        answers (execute api standardAbi) (txs.filter (concernsShares standardAbi)) s ∧
      answersTo (fun tx => !concernsShares standardAbi tx) (execute api standardAbi) txs s =
        answers (execute api standardAbi) (txs.filter fun tx => !concernsShares standardAbi tx) s := by
  intro api send txs start s
  have exact : ExactTokens api id {x | x = 1 ∨ x = 2} := exactTokens_ledger rfl _
  have cells : Distinct api := distinct_of_free (freeKeccak_ledgerApi 5 9)
  have hf : pairFn (ledgerTx 7 (initializeData 1 2)).callData = some .initializePair := by decide +kernel
  have hd : standardAbi.initializeCall (ledgerTx 7 (initializeData 1 2)).callData =
      some { token0 := 1, token1 := 2 } := by decide +kernel
  have hb : ∀ tx ∈ txs, concernsBoth standardAbi tx = false := by decide +kernel
  have h := halves_apart (noCallback_ledger rfl) cells standardAbi (by decide) exact hf hd 7
    (holding (2 ^ 20) (2 ^ 20)) [ledgerTx 5 (mintData 5)] txs hb
  have hsend (v : U256) (w : Ledger) : (send v).outside w = w := rfl
  have hquiet : ∀ tx ∈ txs, concernsShares standardAbi tx = true → ∀ w, tx.outside w = w := by
    refine List.forall_mem_cons.mpr ⟨fun _ => hsend _, List.forall_mem_cons.mpr ⟨fun hs => ?_,
      List.forall_mem_cons.mpr ⟨fun _ => hsend _, List.forall_mem_nil _⟩⟩⟩
    exact absurd hs (by decide +kernel)
  exact ⟨by decide +kernel, h.1,
    h.2 fun tx htx => ⟨fun w w' hw => congrArg tx.outside hw, hquiet tx htx⟩⟩

end RiscVContracts.Halves
