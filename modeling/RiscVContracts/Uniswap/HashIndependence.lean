import RiscVContracts.Lib.Simulation
import RiscVContracts.Uniswap.Cells

namespace RiscVContracts.HashIndependence

open Programs Simulation Bytes Host Storage Math Pair PairView Symbolic Calldata Tokens Runs Reentrancy
  Cells

section Pair

variable {κ κ' W W' : Type} {api : Api κ W} {api' : Api κ' W'} {Q : W → W' → Prop}

/-- Two states hold the same in every cell, each under its own keys. -/
structure Same (key : Cell → κ) (key' : Cell → κ') (Q : W → W' → Prop) (s : State κ W)
    (t : State κ' W') : Prop where
  cell : ∀ c, s.storage (key c) = t.storage (key' c)
  world : Q s.world t.world

abbrev SameCells (api : Api κ W) (api' : Api κ' W') (Q : W → W' → Prop) :
    State κ W → State κ' W' → Prop := Same (cellKey api) (cellKey api') Q

/-- Two hosts of one pair that differ in the hash: neither lets two cells
collide, and the tokens act alike on states that hold the same. -/
structure TwinHosts (api : Api κ W) (api' : Api κ' W') (Q : W → W' → Prop) : Prop where
  address : api.address = api'.address
  layout : Function.Injective (cellKey api)
  layout' : Function.Injective (cellKey api')
  token : ∀ callee input s t, SameCells api api' Q s t →
    (api.callEvm callee input s).1 = (api'.callEvm callee input t).1 ∧
      SameCells api api' Q (api.callEvm callee input s).2 (api'.callEvm callee input t).2

structure Twins (api : Api κ W) (api' : Api κ' W') (Q : W → W' → Prop) : Prop
    extends TwinHosts api api' Q where
  caller : api.caller = api'.caller
  now : api.now = api'.now

variable (tw : Twins api api' Q)

section Steps

variable {α : Type}

theorem alike_get (c : Cell) : Alike (SameCells api api' Q) (getStorageOrZero (cellKey api c))
    (getStorageOrZero (cellKey api' c)) := fun _ _ h => ⟨h.cell c, h⟩

theorem alike_orRevert (o : Option α) : Alike (SameCells api api' Q) (orRevert o) (orRevert o) := by
  cases o with
  | none => exact .throw _
  | some a => exact .pure a

theorem alike_toUint (n : Nat) (x : U256) : Alike (SameCells api api' Q) (toUint n x) (toUint n x) :=
  .ite (.pure _) (.throw _)

theorem alike_divU256 (x y : U256) : Alike (SameCells api api' Q) (divU256 x y) (divU256 x y) :=
  .ite (.throw _) (.pure _)

theorem alike_getToken0 : Alike (SameCells api api' Q) (getToken0 api) (getToken0 api') :=
  .bind (alike_get (.slot _)) fun _ => .pure _

theorem alike_getToken1 : Alike (SameCells api api' Q) (getToken1 api) (getToken1 api') :=
  .bind (alike_get (.slot _)) fun _ => .pure _

theorem alike_getReserves : Alike (SameCells api api' Q) (getReserves api) (getReserves api') := by
  refine .bind (alike_get (.slot _)) fun _ => .bind (alike_toUint _ _) fun _ => ?_
  exact .bind (alike_toUint _ _) fun _ => .bind (alike_toUint _ _) fun _ => .pure _

include tw

theorem alike_callEvm (callee : Address) (input : Buffer) :
    Alike (SameCells api api' Q) (callEvm api callee input) (callEvm api' callee input) :=
  alike_of_ok (tw.token callee input)

theorem alike_safeTransfer (token recipient : Address) (v : U256) :
    Alike (SameCells api api' Q) (safeTransfer api token recipient v) (safeTransfer api' token recipient v) :=
  .bind (alike_callEvm tw _ _) fun o => by cases o <;> [exact .throw _; exact .pure ()]

theorem alike_safeBalanceOf (token account : Address) :
    Alike (SameCells api api' Q) (safeBalanceOf api token account) (safeBalanceOf api' token account) :=
  .bind (alike_callEvm tw _ _) fun o => by cases o <;> [exact .throw _; exact .pure _]

theorem alike_observeBalances (token0 token1 : Address) :
    Alike (SameCells api api' Q) (observeBalances api token0 token1) (observeBalances api' token0 token1) := by
  unfold observeBalances
  rw [tw.address]
  exact .bind (alike_safeBalanceOf tw _ _) fun _ => .bind (alike_safeBalanceOf tw _ _) fun _ => .pure _

theorem alike_payout (token recipient : Address) (v : U256) :
    Alike (SameCells api api' Q) (payout api token recipient v) (payout api' token recipient v) :=
  .ite (alike_safeTransfer tw _ _ _) (.pure ())

variable [DecidableEq κ] [DecidableEq κ']

omit tw in
theorem sameCells_set (layout : Function.Injective (cellKey api)) (layout' : Function.Injective (cellKey api'))
    {s : State κ W} {t : State κ' W'} (h : SameCells api api' Q s t) (c : Cell) (v : U256) :
    SameCells api api' Q (s.set (cellKey api c) v) (t.set (cellKey api' c) v) := by
  refine ⟨fun d => ?_, h.world⟩
  by_cases hd : d = c
  · rw [hd, State.set_storage_self, State.set_storage_self]
  · rw [State.set_storage_of_ne s (layout.ne hd), State.set_storage_of_ne t (layout'.ne hd)]
    exact h.cell d

theorem alike_set (c : Cell) (v : U256) : Alike (SameCells api api' Q)
    (setStorageOrClear (cellKey api c) v) (setStorageOrClear (cellKey api' c) v) :=
  fun _ _ h => ⟨rfl, sameCells_set tw.layout tw.layout' h c v⟩

theorem alike_requireUnlocked : Alike (SameCells api api' Q) (requireUnlocked api) (requireUnlocked api') :=
  .bind (alike_get (.slot _)) fun _ => .ite (.throw _) (alike_set tw (.slot _) _)

theorem alike_setUnlocked : Alike (SameCells api api' Q) (setUnlocked api) (setUnlocked api') :=
  alike_set tw (.slot _) _

theorem alike_rejectIf (c : Prop) [Decidable c] :
    Alike (SameCells api api' Q) (rejectIf api c) (rejectIf api' c) :=
  .ite (.bind (alike_setUnlocked tw) fun _ => .throw _) (.pure ())

theorem alike_updateReserves (b : Balances) :
    Alike (SameCells api api' Q) (updateReserves api b) (updateReserves api' b) := by
  unfold updateReserves nowSecs
  rw [tw.now]
  refine .bind (alike_toUint _ _) fun _ => .bind (alike_toUint _ _) fun _ => ?_
  exact .bind (alike_toUint _ _) fun _ => alike_set tw (.slot _) _

theorem alike_move (sender recipient : Address) (bal v : U256) :
    Alike (SameCells api api' Q) (move api sender recipient bal v) (move api' sender recipient bal v) :=
  .bind (alike_set tw (.balance _) _) fun _ => .bind (alike_get (.balance _)) fun _ =>
    alike_set tw (.balance _) _

end Steps

section Functions

variable [DecidableEq κ] [DecidableEq κ'] (abi : PairAbi) (callData : Buffer)

include tw

theorem alike_initializePair :
    Alike (SameCells api api' Q) (initializePair api abi callData) (initializePair api' abi callData) := by
  refine .bind (alike_requireUnlocked tw) fun _ => .bind (alike_orRevert _) fun _ => ?_
  refine .bind (alike_get (.slot _)) fun _ => .bind (alike_rejectIf tw _) fun _ => ?_
  exact .bind (alike_set tw (.slot _) _) fun _ => .bind (alike_set tw (.slot _) _) fun _ =>
    alike_setUnlocked tw

theorem alike_mintLiquidity (supply a0 a1 : U256) (r : Reserves) :
    Alike (SameCells api api' Q) (mintLiquidity api supply a0 a1 r) (mintLiquidity api' supply a0 a1 r) := by
  refine .ite ?_ ?_
  · unfold firstLiquidity
    split
    · exact .throw _
    · refine .bind (alike_rejectIf tw _) fun _ => .bind (alike_set tw (.slot _) _) fun _ => ?_
      exact .bind (alike_set tw (.balance _) _) fun _ => .pure _
  · refine .bind (alike_divU256 _ _) fun _ => .bind (alike_divU256 _ _) fun _ => ?_
    exact .bind (alike_rejectIf tw _) fun _ => .bind (alike_set tw (.slot _) _) fun _ => .pure _

theorem alike_mint : Alike (SameCells api api' Q) (mint api abi callData) (mint api' abi callData) := by
  refine .bind (alike_requireUnlocked tw) fun _ => .bind (alike_orRevert _) fun _ => ?_
  refine .bind ?_ fun _ => .bind (alike_updateReserves tw _) fun _ =>
    .bind (alike_setUnlocked tw) fun _ => .pure _
  refine .bind alike_getReserves fun _ => .bind alike_getToken0 fun _ => .bind alike_getToken1 fun _ => ?_
  refine .bind (alike_observeBalances tw _ _) fun _ => .bind (alike_get (.slot _)) fun _ => ?_
  refine .bind (alike_mintLiquidity tw _ _ _ _) fun _ => .bind (alike_get (.balance _)) fun _ => ?_
  exact .bind (alike_set tw (.balance _) _) fun _ => .pure _

theorem alike_burn : Alike (SameCells api api' Q) (burn api abi callData) (burn api' abi callData) := by
  refine .bind (alike_requireUnlocked tw) fun _ => .bind (alike_orRevert _) fun _ => ?_
  refine .bind ?_ fun _ => .bind (alike_updateReserves tw _) fun _ =>
    .bind (alike_setUnlocked tw) fun _ => .pure _
  unfold burnSettle
  rw [tw.address]
  refine .bind (alike_get (.balance _)) fun _ => .bind (alike_rejectIf tw _) fun _ => ?_
  refine .bind (alike_get (.slot _)) fun _ => .bind alike_getToken0 fun _ => .bind alike_getToken1 fun _ => ?_
  refine .bind (alike_observeBalances tw _ _) fun _ => .bind (alike_divU256 _ _) fun _ => ?_
  refine .bind (alike_divU256 _ _) fun _ => .bind (alike_rejectIf tw _) fun _ => ?_
  refine .bind (alike_set tw (.balance _) _) fun _ => .bind (alike_set tw (.slot _) _) fun _ => ?_
  refine .bind (alike_safeTransfer tw _ _ _) fun _ => .bind (alike_safeTransfer tw _ _ _) fun _ => ?_
  exact .bind (alike_observeBalances tw _ _) fun _ => .pure _

theorem alike_swap : Alike (SameCells api api' Q) (swap api abi callData) (swap api' abi callData) := by
  refine .bind (alike_requireUnlocked tw) fun _ => .bind (alike_orRevert _) fun _ => ?_
  refine .bind ?_ fun _ => .bind (alike_updateReserves tw _) fun _ => alike_setUnlocked tw
  refine .bind (alike_rejectIf tw _) fun _ => .bind alike_getReserves fun _ => ?_
  refine .bind (alike_rejectIf tw _) fun _ => .bind alike_getToken0 fun _ => .bind alike_getToken1 fun _ => ?_
  refine .bind (alike_rejectIf tw _) fun _ => .bind (alike_payout tw _ _ _) fun _ => ?_
  refine .bind (alike_payout tw _ _ _) fun _ => .bind (alike_observeBalances tw _ _) fun _ => ?_
  exact .bind (alike_rejectIf tw _) fun _ => .bind (alike_rejectIf tw _) fun _ => .pure _

theorem alike_skim : Alike (SameCells api api' Q) (skim api abi callData) (skim api' abi callData) := by
  refine .bind (alike_requireUnlocked tw) fun _ => .bind (alike_orRevert _) fun _ => ?_
  refine .bind alike_getReserves fun _ => .bind alike_getToken0 fun _ => .bind alike_getToken1 fun _ => ?_
  refine .bind (alike_observeBalances tw _ _) fun _ => .bind (alike_safeTransfer tw _ _ _) fun _ => ?_
  exact .bind (alike_safeTransfer tw _ _ _) fun _ => alike_setUnlocked tw

theorem alike_sync : Alike (SameCells api api' Q) (sync api) (sync api') := by
  refine .bind (alike_requireUnlocked tw) fun _ => .bind ?_ fun _ => .bind alike_getReserves fun _ => ?_
  · exact .bind alike_getToken0 fun _ => .bind alike_getToken1 fun _ => alike_observeBalances tw _ _
  · refine .bind (alike_toUint _ _) fun _ => .bind (alike_toUint _ _) fun _ => ?_
    exact .bind (alike_set tw (.slot _) _) fun _ => alike_setUnlocked tw

theorem alike_approve :
    Alike (SameCells api api' Q) (approve api abi callData) (approve api' abi callData) := by
  unfold approve
  rw [tw.caller]
  exact .bind (alike_orRevert _) fun _ => alike_set tw (.allowance ..) _

theorem alike_transfer :
    Alike (SameCells api api' Q) (transfer api abi callData) (transfer api' abi callData) := by
  unfold transfer
  rw [tw.caller]
  refine .bind (alike_orRevert _) fun _ => .bind (alike_get (.balance _)) fun _ => ?_
  exact .ite (.throw _) (alike_move tw _ _ _ _)

theorem alike_transferFrom :
    Alike (SameCells api api' Q) (transferFrom api abi callData) (transferFrom api' abi callData) := by
  unfold transferFrom spendAllowance
  rw [tw.caller]
  refine .bind (alike_orRevert _) fun _ => .bind (alike_get (.allowance ..)) fun _ => ?_
  refine .ite (.throw _) (.bind (alike_get (.balance _)) fun _ => ?_)
  refine .ite (.throw _) (.bind ?_ fun _ => alike_move tw _ _ _ _)
  exact .ite (alike_set tw (.allowance ..) _) (.pure ())

theorem alike_run (f : PairFn) :
    Alike (SameCells api api' Q) (run api abi callData f) (run api' abi callData f) := by
  cases f with
  | factory => exact .bind (.bind (alike_get (.slot _)) fun _ => .pure _) fun _ => .pure _
  | token0 => exact .bind alike_getToken0 fun _ => .pure _
  | token1 => exact .bind alike_getToken1 fun _ => .pure _
  | getReserves => exact .bind alike_getReserves fun _ => .pure _
  | totalSupply | price0CumulativeLast | price1CumulativeLast | kLast =>
      exact .bind (alike_get (.slot _)) fun _ => .pure _
  | balanceOf => exact .bind (alike_orRevert _) fun _ => .bind (alike_get (.balance _)) fun _ => .pure _
  | allowance =>
      exact .bind (alike_orRevert _) fun _ => .bind (alike_get (.allowance ..)) fun _ => .pure _
  | minimumLiquidity => exact .pure _
  | initializePair => exact .bind (alike_initializePair tw _ _) fun _ => .pure _
  | mint => exact .bind (alike_mint tw _ _) fun _ => .pure _
  | burn => exact .bind (alike_burn tw _ _) fun _ => .pure _
  | swap => exact .bind (alike_swap tw _ _) fun _ => .pure _
  | skim => exact .bind (alike_skim tw _ _) fun _ => .pure _
  | sync => exact .bind (alike_sync tw) fun _ => .pure _
  | approve => exact .bind (alike_approve tw _ _) fun _ => .pure _
  | transfer => exact .bind (alike_transfer tw _ _) fun _ => .pure _
  | transferFrom => exact .bind (alike_transferFrom tw _ _) fun _ => .pure _

theorem alike_call : Alike (SameCells api api' Q) (call api abi callData) (call api' abi callData) := by
  refine .ite (.throw _) ?_
  cases pairFn callData with
  | none => exact .throw _
  | some f => exact alike_run tw abi callData f

end Functions

end Pair

section Reentrant

variable {κ κ' : Type} [DecidableEq κ] [DecidableEq κ'] {base : Api κ (World κ)}
  {base' : Api κ' (World κ')} {abi : PairAbi}

def execute (api : Api κ (World κ)) (abi : PairAbi) (c : Callback Reaction) (s : State κ (World κ)) :
    Except Halt Buffer × State κ (World κ) :=
  let start : State κ (World κ) := { s with world := { s.world with script := c.script } }
  (match call (asCaller c api) abi c.callData start with
    | .ok output _ => .ok output
    | .error e _ => .error e, enter api abi s c)

/-- The logs are left out: they hold snapshots of the raw storage. -/
def sameScript (w : World κ) (w' : World κ') : Prop := w.script = w'.script

omit [DecidableEq κ] [DecidableEq κ'] in
theorem twins_asCaller {api : Api κ (World κ)} {api' : Api κ' (World κ')}
    (tw : TwinHosts api api' sameScript) (c : Callback Reaction) :
    Twins (asCaller c api) (asCaller c api') sameScript where
  address := tw.address
  caller := rfl
  now := rfl
  layout := by simpa only [cellKey_asCaller] using tw.layout
  layout' := by simpa only [cellKey_asCaller] using tw.layout'
  token := by
    simp only [SameCells, cellKey_asCaller]
    exact tw.token

section Nested

variable {api : Api κ (World κ)} {api' : Api κ' (World κ')} (tw : TwinHosts api api' sameScript)
  {s : State κ (World κ)} {t : State κ' (World κ')}

include tw

theorem execute_alike (abi : PairAbi) (c : Callback Reaction) (h : SameCells api api' sameScript s t) :
    (execute api abi c s).1 = (execute api' abi c t).1 ∧
      SameCells api api' sameScript (execute api abi c s).2 (execute api' abi c t).2 := by
  let start : State κ (World κ) := { s with world := { s.world with script := c.script } }
  let start' : State κ' (World κ') := { t with world := { t.world with script := c.script } }
  have hstart : SameCells (asCaller c api) (asCaller c api') sameScript start start' := by
    rw [SameCells, cellKey_asCaller, cellKey_asCaller]
    exact ⟨h.cell, rfl⟩
  obtain ⟨output, s', t', hs, ht, hr⟩ | ⟨e, s', t', hs, ht, hr⟩ :=
    (alike_call (twins_asCaller tw c) abi c.callData).cases hstart
  · rw [SameCells, cellKey_asCaller, cellKey_asCaller] at hr
    simp only [start, start'] at hs ht
    simp only [execute, enter, frame, hs, ht]
    exact ⟨trivial, hr.cell, h.world⟩
  · simp only [start, start'] at hs ht
    simp only [execute, enter, frame, hs, ht]
    exact ⟨trivial, h.cell, h.world⟩

theorem react_alike (abi : PairAbi) (h : SameCells api api' sameScript s t) :
    (react api abi s).1 = (react api' abi t).1 ∧
      SameCells api api' sameScript (react api abi s).2 (react api' abi t).2 := by
  have hscript : s.world.script = t.world.script := h.world
  unfold react
  rw [← hscript]
  cases hs : s.world.script with
  | nil => exact ⟨rfl, h.cell, hs.trans (hscript.symm.trans hs).symm⟩
  | cons reaction rest =>
      obtain ⟨calls, reply⟩ := reaction
      have hstart : SameCells api api' sameScript { s with world := { s.world with script := rest } }
          { t with world := { t.world with script := rest } } := ⟨h.cell, rfl⟩
      have hplayed := (answers_alike (fun c _ _ => execute_alike tw abi c) calls hstart).2
      cases reply with
      | none => exact ⟨rfl, h.cell, rfl⟩
      | some output => exact ⟨rfl, hplayed.cell, rfl⟩

end Nested

section Hosts

variable (address : base.address = base'.address) (layout : Function.Injective (cellKey base))
  (layout' : Function.Injective (cellKey base'))

include address layout layout'

/-- Hosts whose tokens follow the same scripts act alike, however deep the calls nest. -/
theorem twinHosts (abi : PairAbi) (n : Nat) : TwinHosts (host base abi n) (host base' abi n) sameScript := by
  induction n with
  | zero => exact ⟨address, layout, layout', fun _ _ _ _ h => ⟨rfl, h⟩⟩
  | succ n ih =>
      refine ⟨address, by rwa [cellKey_host], by rwa [cellKey_host], fun _ _ s t h => ?_⟩
      have hr := react_alike ih (s := s) (t := t) abi
      simp only [SameCells, cellKey_host] at h hr ⊢
      exact hr h

/-- The pair does not depend on its hash: over any two hashes under which no
cells collide it answers every run of outside calls alike, whatever the tokens
call back, and ends with the same contents in every cell. -/
theorem answers_hash_independent (abi : PairAbi) (n : Nat) (calls : List (Callback Reaction))
    {s : State κ (World κ)} {t : State κ' (World κ')} (h : SameCells base base' sameScript s t) :
    answers (execute (host base abi n) abi) calls s = answers (execute (host base' abi n) abi) calls t ∧
      SameCells base base' sameScript (calls.foldl (enter (host base abi n) abi) s)
        (calls.foldl (enter (host base' abi n) abi) t) := by
  have hrun := answers_alike (R := SameCells (host base abi n) (host base' abi n) sameScript)
    (fun c _ _ => execute_alike (twinHosts address layout layout' abi n) abi c) calls (s := s) (t := t)
  simp only [SameCells, cellKey_host] at h hrun ⊢
  exact hrun h

end Hosts

end Reentrant

section Samples

theorem sameCells_deployed {κ κ' W W' : Type} [DecidableEq κ] [DecidableEq κ'] {api : Api κ W}
    {api' : Api κ' W'} {Q : W → W' → Prop} (layout : Function.Injective (cellKey api))
    (layout' : Function.Injective (cellKey api')) (f : Address) {w : W} {w' : W'} (h : Q w w') :
    SameCells api api' Q (deployed api f w) (deployed api' f w') := by
  have hfresh : SameCells api api' Q (State.fresh w) (State.fresh w') := ⟨fun _ => rfl, h⟩
  exact sameCells_set layout layout' (sameCells_set layout layout' hfresh (.slot slotFactory) _)
    (.slot slotUnlocked) _

/-- The free keys with the words of every hash the other way round. -/
def swappedApi (caller address : Address) : Api Key (World Key) :=
  { scriptedApi caller address with hashKeccak256 := fun a b => .hash b a }

theorem freeKeccak_swappedApi (caller address : Address) : FreeKeccak (swappedApi caller address) where
  hash_injective h := (Key.hash.inj h).symm
  hash_ne_word _ _ _ := Key.noConfusion

theorem answers_hash_independent_sample :
    let calls : List (Callback Reaction) := [callback (initializeData 1 2),
      { callback PairFn.sync.selector with
        script := [.mk [callback (mintData 3), callback (encodeCall PairFn.approve.selector [4, 5])]
          (some (toBeBytes 100)), .mk [] (some (toBeBytes 200))] }]
    let s : State Key (World Key) := deployed (scriptedApi 5 9) 7 { script := [], log := [] }
    let t : State Key (World Key) := deployed (swappedApi 5 9) 7 { script := [], log := [] }
    answers (execute (host (scriptedApi 5 9) standardAbi 2) standardAbi) calls s =
        answers (execute (host (swappedApi 5 9) standardAbi 2) standardAbi) calls t ∧
      SameCells (scriptedApi 5 9) (swappedApi 5 9) sameScript
        (calls.foldl (enter (host (scriptedApi 5 9) standardAbi 2) standardAbi) s)
        (calls.foldl (enter (host (swappedApi 5 9) standardAbi 2) standardAbi) t) := by
  intro calls s t
  have layout : Function.Injective (cellKey (scriptedApi 5 9)) := cellKey_injective (freeKeccak_key rfl rfl)
  have layout' : Function.Injective (cellKey (swappedApi 5 9)) := cellKey_injective (freeKeccak_swappedApi 5 9)
  have address : (scriptedApi 5 9).address = (swappedApi 5 9).address := rfl
  have hstart : SameCells (scriptedApi 5 9) (swappedApi 5 9) sameScript s t :=
    sameCells_deployed layout layout' 7 rfl
  exact answers_hash_independent address layout layout' standardAbi 2 calls hstart

end Samples

end RiscVContracts.HashIndependence
