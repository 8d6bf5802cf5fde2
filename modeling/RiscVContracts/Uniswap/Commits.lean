import RiscVContracts.Uniswap.Calldata
import RiscVContracts.Uniswap.PairSlots

namespace RiscVContracts.Commits

open Programs Bytes Host Storage Pair PairView PairSpec PairSlots Calldata

def updating : PairFn → Bool
  | .mint | .burn | .swap | .sync => true
  | _ => false

variable {κ W : Type} [DecidableEq κ] {api : Api κ W} {abi : PairAbi} {callData : Buffer}
  {s t u : State κ W} {f : PairFn} {b : Balances}

omit [DecidableEq κ] in
/-- The conversions of the reserve update: only `sync` does not read the clock. -/
structure Converts (api : Api κ W) (f : PairFn) (b : Balances) : Prop where
  fits0 : b.balance0.toNat < 2 ^ 128
  fits1 : b.balance1.toNat < 2 ^ 128
  clock : f ≠ .sync → (clock api).toNat < 2 ^ 32

def stamp (api : Api κ W) (f : PairFn) (s : State κ W) : U32 :=
  if f = .sync then (reserves api s).ts else (clock api).setWidth 32

def updated (api : Api κ W) (f : PairFn) (b : Balances) (s : State κ W) : State κ W :=
  unlocked api (withReserves api s (b.balance0.setWidth 128) (b.balance1.setWidth 128) (stamp api f s))

section Settle

omit [DecidableEq κ] in
theorem bind_orRevert_ok {α β : Type} {o : Option α} {g : α → Program κ W β} {y : β} :
    (orRevert o >>= g) s = .ok y u ↔ ∃ a, o = some a ∧ g a s = .ok y u := by
  simp only [bind_ok, orRevert_ok, exists_and_left, exists_eq_left', and_assoc]

omit [DecidableEq κ] in
theorem bind_some_ok {α : Type} {x : Program κ W α} {g : α → Balances} :
    (x >>= fun a => pure (some (g a))) s = .ok (some b) u ↔ ∃ a, x s = .ok a u ∧ g a = b := by
  rw [bind_pure_ok]
  simp only [Option.some.injEq]

theorem settle_mint_ok : settle api abi callData .mint s = .ok (some b) u ↔
    ∃ recipient l, abi.mintCall callData = some recipient ∧ mintSettle api recipient s = .ok (b, l) u := by
  simp only [settle, bind_orRevert_ok, bind_some_ok, Prod.exists, exists_and_left, exists_and_right,
    exists_eq_right]

theorem settle_burn_ok : settle api abi callData .burn s = .ok (some b) u ↔
    ∃ recipient p, abi.burnCall callData = some recipient ∧ burnSettle api recipient s = .ok (b, p) u := by
  simp only [settle, bind_orRevert_ok, bind_some_ok, Prod.exists, exists_and_left, exists_and_right,
    exists_eq_right]

theorem settle_swap_ok : settle api abi callData .swap s = .ok (some b) u ↔
    ∃ decoded, abi.swapCall callData = some decoded ∧ swapSettle api decoded s = .ok b u := by
  simp only [settle, bind_orRevert_ok, bind_some_ok, exists_eq_right]

theorem settle_sync_ok : settle api abi callData .sync s = .ok (some b) u ↔
    syncSettle api s = .ok b u := by
  simp only [settle, bind_some_ok, exists_eq_right]

end Settle

/-- A function that updates the reserves returns exactly when the lock is free,
its checks before the update pass and the conversions do not panic. -/
theorem run_updating_iff (hf : updating f = true) :
    (∃ out, run api abi callData f s = .ok out t) ↔ slots api s slotUnlocked = 1 ∧ ∃ b u,
      settle api abi callData f (locked api s) = .ok (some b) u ∧ Converts api f b ∧
        updated api f b u = t := by
  cases f with
  | mint =>
      simp only [run, bind_pure_ok, mint_ok, settle_mint_ok, updateReserves_ok]
      constructor
      · rintro ⟨out, l, ⟨hs, recipient, b, u, v, hd, hm, ⟨h0, h1, hc, rfl⟩, rfl⟩, -⟩
        exact ⟨hs, b, u, ⟨recipient, l, hd, hm⟩, ⟨h0, h1, fun _ => hc⟩, rfl⟩
      · rintro ⟨hs, b, u, ⟨recipient, l, hd, hm⟩, hc, rfl⟩
        exact ⟨_, l, ⟨hs, recipient, b, u, _, hd, hm, ⟨hc.fits0, hc.fits1, hc.clock (by decide), rfl⟩,
          rfl⟩, rfl⟩
  | burn =>
      simp only [run, bind_pure_ok, burn_ok, settle_burn_ok, updateReserves_ok]
      constructor
      · rintro ⟨out, p, ⟨hs, recipient, b, u, v, hd, hm, ⟨h0, h1, hc, rfl⟩, rfl⟩, -⟩
        exact ⟨hs, b, u, ⟨recipient, p, hd, hm⟩, ⟨h0, h1, fun _ => hc⟩, rfl⟩
      · rintro ⟨hs, b, u, ⟨recipient, p, hd, hm⟩, hc, rfl⟩
        exact ⟨_, p, ⟨hs, recipient, b, u, _, hd, hm, ⟨hc.fits0, hc.fits1, hc.clock (by decide), rfl⟩,
          rfl⟩, rfl⟩
  | swap =>
      simp only [run, bind_pure_ok, swap_ok, settle_swap_ok, updateReserves_ok]
      constructor
      · rintro ⟨out, -, ⟨hs, decoded, b, u, v, hd, hm, ⟨h0, h1, hc, rfl⟩, rfl⟩, -⟩
        exact ⟨hs, b, u, ⟨decoded, hd, hm⟩, ⟨h0, h1, fun _ => hc⟩, rfl⟩
      · rintro ⟨hs, b, u, ⟨decoded, hd, hm⟩, hc, rfl⟩
        exact ⟨_, (), ⟨hs, decoded, b, u, _, hd, hm, ⟨hc.fits0, hc.fits1, hc.clock (by decide), rfl⟩,
          rfl⟩, rfl⟩
  | sync =>
      simp only [run, bind_pure_ok, sync_ok, settle_sync_ok]
      constructor
      · rintro ⟨out, -, ⟨hs, b, u, hm, h0, h1, rfl⟩, -⟩
        exact ⟨hs, b, u, hm, ⟨h0, h1, fun h => absurd rfl h⟩, rfl⟩
      · rintro ⟨hs, b, u, hm, hc, rfl⟩
        exact ⟨_, (), ⟨hs, b, u, hm, hc.fits0, hc.fits1, rfl⟩, rfl⟩
  | initializePair | skim | factory | token0 | token1 | getReserves | totalSupply | balanceOf | allowance
  | minimumLiquidity | price0CumulativeLast | price1CumulativeLast | kLast
  | approve | transfer | transferFrom => exact absurd hf (by decide)

theorem handed_ok (hf : pairFn callData = some f) : handed api abi callData s = some b ↔
    ∃ u, settle api abi callData f (locked api s) = .ok (some b) u := by
  cases h : settle api abi callData f (locked api s) with
  | ok o u => simp [handed, hf, h]
  | error e u => simp [handed, hf, h]

theorem call_ok_of_fn (hf : pairFn callData = some f) {out : Buffer} :
    call api abi callData s = .ok out t ↔ run api abi callData f s = .ok out t := by
  rw [call_ok]
  constructor
  · rintro ⟨-, g, hg, h⟩
    obtain rfl : g = f := Option.some.inj (hg.symm.trans hf)
    exact h
  · exact fun h => ⟨length_of_pairFn hf, f, hf, h⟩

theorem commits_iff (hf : pairFn callData = some f) (hu : updating f = true) :
    (∃ out t, call api abi callData s = .ok out t) ↔ slots api s slotUnlocked = 1 ∧
      ∃ b, handed api abi callData s = some b ∧ Converts api f b := by
  simp only [call_ok_of_fn hf, handed_ok hf]
  rw [exists_comm]
  simp only [run_updating_iff hu]
  constructor
  · rintro ⟨t, hs, b, u, hb, hc, -⟩
    exact ⟨hs, b, ⟨u, hb⟩, hc⟩
  · rintro ⟨hs, b, ⟨u, hb⟩, hc⟩
    exact ⟨_, hs, b, u, hb, hc, rfl⟩

theorem updating_of_handed (hf : pairFn callData = some f)
    (hb : handed api abi callData s = some b) : updating f = true := by
  obtain ⟨u, hu⟩ := (handed_ok hf).mp hb
  cases f with
  | mint | burn | swap | sync => rfl
  | factory | token0 | token1 | getReserves | totalSupply | balanceOf | allowance
  | minimumLiquidity | price0CumulativeLast | price1CumulativeLast | kLast
  | initializePair | skim | approve | transfer | transferFrom => cases hu

theorem word_of_call (hf : pairFn callData = some f) {out : Buffer}
    (h : call api abi callData s = .ok out t) (hb : handed api abi callData s = some b) :
    Converts api f b ∧ ∃ u, slots api t slotReserves = packReserves (b.balance0.setWidth 128)
      (b.balance1.setWidth 128) (stamp api f u) := by
  have hu := updating_of_handed hf hb
  obtain ⟨hs, b', u, hb', hc, rfl⟩ := (run_updating_iff hu).mp ⟨out, (call_ok_of_fn hf).mp h⟩
  obtain rfl : b' = b := handed_eq hf hb' hb
  refine ⟨hc, u, ?_⟩
  rw [updated, unlocked, slots_set_slot, Function.update_of_ne (by decide), withReserves,
    slots_set_slot, Function.update_self]

end RiscVContracts.Commits
