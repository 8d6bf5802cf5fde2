import RiscVContracts.Uniswap.PairPool

namespace RiscVContracts.Custody

open Programs Bytes Host Pair PairView Calldata Symbolic Tokens Runs SwapPrice Allowances Totals Outcomes
  Pools PairPool

section Model

/-- What a pool does to the tokens: it makes none, destroys none, and takes none from anybody else. -/
structure Kept (p q : Pool) : Prop where
  account : q.account = p.account
  totals : ∀ token, total (p.ledger token) < 2 ^ 256 → total (q.ledger token) = total (p.ledger token)
  others : ∀ token, total (p.ledger token) < 2 ^ 256 → ∀ x, x ≠ p.account →
    (p.ledger token x).toNat ≤ (q.ledger token x).toNat

variable {p q r : Pool}

theorem kept_of_ledger (ha : q.account = p.account) (hl : q.ledger = p.ledger) : Kept p q :=
  ⟨ha, fun _ _ => by rw [hl], fun _ _ _ _ => by rw [hl]⟩

theorem Kept.trans (h : Kept p q) (h' : Kept q r) : Kept p r where
  account := h'.account.trans h.account
  totals token ht := by
    have hq := h.totals token ht
    rw [h'.totals token (hq.trans_lt ht), hq]
  others token ht x hx := by
    have hq := h.totals token ht
    have hx' : x ≠ q.account := by rwa [h.account]
    exact (h.others token ht x hx).trans (h'.others token (hq.trans_lt ht) x hx')

theorem kept_pays {token recipient : Address} {v : U256} (h : p.pays token recipient v = some q) :
    Kept p q := by
  obtain ⟨hv, rfl⟩ := Pool.pays_eq_some.mp h
  refine ⟨rfl, fun other ht => ?_, fun other ht x hx => ?_⟩
  · by_cases ho : other = token
    · subst other
      rw [Pool.paying_ledger, Function.update_self]
      exact total_move hv ht
    · rw [Pool.paying_ledger, Function.update_of_ne ho]
  · by_cases ho : other = token
    · subst other
      let debited := Function.update (p.ledger token) p.account (p.ledger token p.account - v)
      have hfit : (debited recipient).toNat + v.toNat < 2 ^ 256 := by
        have hle := le_total debited recipient
        have hdebit : total debited + v.toNat = total (p.ledger token) := total_debit hv
        omega
      have hx' := le_pay_add hv hfit x
      rw [if_neg hx, Nat.add_zero] at hx'
      rwa [Pool.paying_ledger, Function.update_self]
    · rw [Pool.paying_ledger, Function.update_of_ne ho]

theorem kept_settles {clock : U256} (h : p.settles clock = some q) : Kept p q := by
  obtain ⟨-, hq⟩ := Option.ite_none_right_eq_some.mp h
  obtain rfl := Option.some.inj hq
  exact kept_of_ledger rfl rfl

theorem kept_transfer {sender recipient : Address} {v : U256} (h : p.transfer sender recipient v = some q) :
    Kept p q := by
  obtain ⟨-, hq⟩ := Option.ite_none_right_eq_some.mp h
  obtain rfl := Option.some.inj hq
  exact kept_of_ledger rfl rfl

theorem kept_spending (owner spender : Address) (v : U256) : Kept p (p.spending owner spender v) := by
  rw [Pool.spending]
  split
  · exact kept_of_ledger rfl rfl
  · exact kept_of_ledger rfl rfl

theorem kept_serve {caller : Address} {clock : U256} {request : Request} {a : List U256 × Pool}
    (h : p.serve caller clock request = some a) : Kept p a.2 := by
  cases request with
  | setUp => cases h
  | mint recipient =>
      obtain ⟨b, hb, rfl⟩ := Option.map_eq_some_iff.mp h
      obtain ⟨l, -, hb⟩ := Option.bind_eq_some_iff.mp hb
      obtain ⟨q, hq, hb⟩ := Option.bind_eq_some_iff.mp hb
      obtain rfl := Option.some.inj hb
      have hissued : Kept p ((p.growing l).crediting recipient l) := kept_of_ledger rfl rfl
      exact hissued.trans (kept_settles hq)
  | burn recipient =>
      obtain ⟨b, hb, rfl⟩ := Option.map_eq_some_iff.mp h
      obtain ⟨-, hb⟩ := Option.ite_none_left_eq_some.mp hb
      obtain ⟨q, hq, hb⟩ := Option.bind_eq_some_iff.mp hb
      obtain ⟨r, hr, hb⟩ := Option.bind_eq_some_iff.mp hb
      obtain ⟨u, hu, hb⟩ := Option.bind_eq_some_iff.mp hb
      obtain rfl := Option.some.inj hb
      have hredeemed : Kept p p.redeeming := kept_of_ledger rfl rfl
      exact hredeemed.trans ((kept_pays hq).trans ((kept_pays hr).trans (kept_settles hu)))
  | swap order =>
      obtain ⟨q, hb, rfl⟩ := Option.map_eq_some_iff.mp h
      obtain ⟨-, hb⟩ := Option.ite_none_right_eq_some.mp hb
      obtain ⟨r, hr, hb⟩ := Option.bind_eq_some_iff.mp hb
      obtain ⟨u, hu, hb⟩ := Option.bind_eq_some_iff.mp hb
      obtain ⟨-, hb⟩ := Option.ite_none_right_eq_some.mp hb
      exact (kept_pays hr).trans ((kept_pays hu).trans (kept_settles hb))
  | skim recipient =>
      obtain ⟨q, hb, rfl⟩ := Option.map_eq_some_iff.mp h
      obtain ⟨r, hr, hb⟩ := Option.bind_eq_some_iff.mp hb
      exact (kept_pays hr).trans (kept_pays hb)
  | sync =>
      obtain ⟨q, hb, rfl⟩ := Option.map_eq_some_iff.mp h
      obtain ⟨-, hb⟩ := Option.ite_none_right_eq_some.mp hb
      obtain rfl := Option.some.inj hb
      exact kept_of_ledger rfl rfl
  | transfer recipient v =>
      obtain ⟨q, hb, rfl⟩ := Option.map_eq_some_iff.mp h
      exact kept_transfer hb
  | transferFrom sender recipient v =>
      obtain ⟨q, hb, rfl⟩ := Option.map_eq_some_iff.mp h
      obtain ⟨-, hb⟩ := Option.ite_none_right_eq_some.mp hb
      exact (kept_spending ..).trans (kept_transfer hb)
  | _ =>
      obtain rfl := Option.some.inj h
      exact kept_of_ledger rfl rfl

theorem kept_attend (v : Visit) (hv : v.ledger = p.ledger) : Kept p (attend v p).2 := by
  have hp : { p with ledger := v.ledger } = p := by rw [hv]
  rw [attend, hp]
  cases hs : v.request.bind (p.serve v.caller v.clock) with
  | none => exact kept_of_ledger rfl rfl
  | some a =>
      obtain ⟨request, -, ha⟩ := Option.bind_eq_some_iff.mp hs
      exact kept_serve ha

end Model

section Runs

variable {κ W : Type} [DecidableEq κ] {api : Api κ W} {view : W → Ledger} {tokens : Set Address}
  {s : State κ W} {p : Pool} (alone : NoCallback api) (cells : Distinct api)

include alone cells

theorem kept_run (exact : ExactTokens api view tokens) (abi : PairAbi) (txs : List (Tx W))
    (hout : ∀ tx ∈ txs, ∀ w, view (tx.outside w) = view w) (h : Represents api view tokens 1 s p) :
    ∃ q, Represents api view tokens 1 (txs.foldl (fun s tx => step api abi tx s) s) q ∧ Kept p q := by
  induction txs generalizing s p with
  | nil => exact ⟨p, h, kept_of_ledger rfl rfl⟩
  | cons tx txs ih =>
      have hstep := (execute_attends exact alone cells abi tx h).2
      have hledger : (visit api abi view tx s).ledger = p.ledger :=
        (hout tx List.mem_cons_self s.world).trans h.ledger
      obtain ⟨q, hq, hkept⟩ := ih (fun tx' htx => hout tx' (List.mem_cons_of_mem _ htx)) hstep
      exact ⟨q, hq, (kept_attend (visit api abi view tx s) hledger).trans hkept⟩

/-- While nothing else moves the tokens, no run of calls of a pair makes or
destroys any, or takes any from an account other than the pair. -/
theorem pair_takes_nothing (abi : PairAbi) {a b : Address} (ha : a ≠ 0)
    (exact : ExactTokens api view {x | x = a ∨ x = b}) {setup : Tx W}
    (hf : pairFn setup.callData = some .initializePair)
    (hd : abi.initializeCall setup.callData = some { token0 := a, token1 := b }) (f : Address) (w : W)
    (earlier txs : List (Tx W)) (hout : ∀ tx ∈ txs, ∀ w, view (tx.outside w) = view w) :
    let s := earlier.foldl (fun s tx => step api abi tx s) (step api abi setup (deployed api f w))
    let t := txs.foldl (fun s tx => step api abi tx s) s
    ∀ token, total (view s.world token) < 2 ^ 256 →
      total (view t.world token) = total (view s.world token) ∧
        ∀ x, x ≠ api.address → (view s.world token x).toNat ≤ (view t.world token x).toNat := by
  intro s t token ht
  obtain ⟨-, h⟩ := run_attends exact alone cells abi earlier (represents_opened cells ha hf hd f w)
  obtain ⟨q, hq, hkept⟩ := kept_run alone cells exact abi txs hout h
  change Represents api view _ 1 t q at hq
  have hs : view s.world = _ := h.ledger
  rw [hs] at ht ⊢
  rw [hq.ledger]
  refine ⟨hkept.totals token ht, fun x hx => hkept.others token ht x ?_⟩
  rwa [← h.account]

end Runs

theorem pair_takes_nothing_sample :
    let api := ledgerApi 5 9
    let txs := [ledgerTx 5 (mintData 5),
      ledgerTx 5 (encodeCall PairFn.transfer.selector [padAddress 9, 500]), ledgerTx 5 (burnData 5)]
    let s := step api standardAbi (ledgerTx 7 (initializeData 1 2))
      (deployed api 7 (holding (2 ^ 20) (2 ^ 20)))
    let t := txs.foldl (fun s tx => step api standardAbi tx s) s
    total (t.world 1) = 2 ^ 20 ∧ t.world 1 5 = 2 ^ 19 := by
  intro api txs s t
  have exact : ExactTokens api id {x | x = 1 ∨ x = 2} := exactTokens_ledger rfl _
  have cells : Distinct api := distinct_of_free (freeKeccak_ledgerApi 5 9)
  have hf : pairFn (ledgerTx 7 (initializeData 1 2)).callData = some .initializePair := by decide +kernel
  have hd : standardAbi.initializeCall (ledgerTx 7 (initializeData 1 2)).callData =
      some { token0 := 1, token1 := 2 } := by decide +kernel
  have hopened : Represents api id {x | x = 1 ∨ x = 2} 1 s _ :=
    represents_opened cells (by decide) hf hd 7 (holding (2 ^ 20) (2 ^ 20))
  have hstart : s.world 1 = Function.update (fun _ => 0) 9 (2 ^ 20) := by
    have hs : s.world = holding (2 ^ 20) (2 ^ 20) := hopened.ledger
    rw [hs]
    funext x
    simp [holding, Function.update_apply]
  have htotal : total (s.world 1) = 2 ^ 20 := by
    rw [hstart, total_single]
    rfl
  have hout : ∀ tx ∈ txs, ∀ w, tx.outside w = w := by
    refine List.forall_mem_cons.mpr ⟨fun _ => rfl, List.forall_mem_cons.mpr ⟨fun _ => rfl,
      List.forall_mem_cons.mpr ⟨fun _ => rfl, List.forall_mem_nil _⟩⟩⟩
  have h := pair_takes_nothing (noCallback_ledger rfl) cells standardAbi (by decide) exact hf hd 7
    (holding (2 ^ 20) (2 ^ 20)) [] txs hout 1 (htotal.trans_lt (by decide))
  exact ⟨h.1.trans htotal, by decide +kernel⟩

end RiscVContracts.Custody
