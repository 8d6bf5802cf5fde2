import RiscVContracts.Uniswap.ReserveCodec

namespace RiscVContracts.Widths

open Programs Bytes Host Storage Pair PairView PairSpec PairSlots Calldata Tokens Runs Commits ReserveCodec

section Fields

/-- A balance that the declared `uint112` reserves cannot hold. -/
def Oversized (b : Balances) : Prop := 2 ^ 112 ≤ b.balance0.toNat ∨ 2 ^ 112 ≤ b.balance1.toNat

def field0 (packed : U256) : BitVec 112 := (packed >>> 144).setWidth 112

def field1 (packed : U256) : BitVec 112 := (packed >>> 32).setWidth 112

def Holds (packed : U256) (b : Balances) : Prop :=
  (field0 packed).toNat = b.balance0.toNat ∧ (field1 packed).toNat = b.balance1.toNat

theorem field0_packReserves (r0 r1 : U128) (ts : U32) :
    field0 (packReserves r0 r1 ts) = r0.setWidth 112 ||| (r1 >>> 112).setWidth 112 := by
  apply BitVec.eq_of_getLsbD_eq
  intro i hi
  simp [field0, packReserves, fromUint]
  grind

theorem field1_packReserves (r0 r1 : U128) (ts : U32) :
    field1 (packReserves r0 r1 ts) = r1.setWidth 112 := by
  apply BitVec.eq_of_getLsbD_eq
  intro i hi
  simp [field1, packReserves, fromUint]
  grind

/-- The fields hold the balances exactly when neither is too wide: the second
field has no room for high bits, and they spill into the first. -/
theorem holds_packReserves_iff {b : Balances} (h0 : b.balance0.toNat < 2 ^ 128)
    (h1 : b.balance1.toNat < 2 ^ 128) (ts : U32) :
    Holds (packReserves (b.balance0.setWidth 128) (b.balance1.setWidth 128) ts) b ↔ ¬ Oversized b := by
  have e0 : (b.balance0.setWidth 128).toNat = b.balance0.toNat := by
    rw [BitVec.toNat_setWidth, Nat.mod_eq_of_lt h0]
  have e1 : (b.balance1.setWidth 128).toNat = b.balance1.toNat := by
    rw [BitVec.toNat_setWidth, Nat.mod_eq_of_lt h1]
  rw [Oversized, not_or, Nat.not_le, Nat.not_le]
  constructor
  · rintro ⟨hf0, hf1⟩
    exact ⟨hf0 ▸ BitVec.isLt _, hf1 ▸ BitVec.isLt _⟩
  · rintro ⟨hw0, hw1⟩
    have hspill : (b.balance1.setWidth 128 : U128) >>> 112 = 0#128 :=
      ushiftRight_eq_zero (e1.trans_lt hw1)
    constructor
    · rw [field0_packReserves, hspill, BitVec.setWidth_zero, BitVec.or_zero, BitVec.toNat_setWidth, e0,
        Nat.mod_eq_of_lt hw0]
    · rw [field1_packReserves, BitVec.toNat_setWidth, e1, Nat.mod_eq_of_lt hw1]

end Fields

section Calls

variable {κ W : Type} [DecidableEq κ] {api : Api κ W} {abi : PairAbi} {callData : Buffer}
  {s t : State κ W} {f : PairFn} {b : Balances}

/-- One of the checks that a call makes on wide balances stops it: the lock, a
conversion to 128 bits, or the clock, which `sync` does not read. -/
def Stopped (api : Api κ W) (f : PairFn) (s : State κ W) (b : Balances) : Prop :=
  slots api s slotUnlocked ≠ 1 ∨ 2 ^ 128 ≤ b.balance0.toNat ∨ 2 ^ 128 ≤ b.balance1.toNat ∨
    (f ≠ .sync ∧ 2 ^ 32 ≤ (clock api).toNat)

theorem stopped_iff (hf : pairFn callData = some f) (hb : handed api abi callData s = some b) :
    Stopped api f s b ↔ ¬ ∃ out t, call api abi callData s = .ok out t := by
  have hconv : Converts api f b ↔ b.balance0.toNat < 2 ^ 128 ∧ b.balance1.toNat < 2 ^ 128 ∧
      (f ≠ .sync → (clock api).toNat < 2 ^ 32) :=
    ⟨fun h => ⟨h.fits0, h.fits1, h.clock⟩, fun h => ⟨h.1, h.2.1, h.2.2⟩⟩
  rw [commits_iff hf (updating_of_handed hf hb), hb]
  simp only [Option.some.injEq, exists_eq_left', hconv, Stopped, not_and_or, Classical.not_imp,
    Nat.not_lt]

/-- Balances over the declared width are rejected, and no word is stored that
does not hold its balances, exactly when a check made for another reason stops
each call with such balances. -/
theorem oversized_rejected_iff (api : Api κ W) (abi : PairAbi) (callData : Buffer) (s : State κ W)
    (hf : pairFn callData = some f) :
    ((∀ b, handed api abi callData s = some b → Oversized b →
        (¬ ∃ out t, call api abi callData s = .ok out t) ∧
          (final (rollback (call api abi callData) s)).storage = s.storage) ∧
      ∀ out t b, call api abi callData s = .ok out t → handed api abi callData s = some b →
        Holds (slots api t slotReserves) b) ↔
    ∀ b, handed api abi callData s = some b → Oversized b → Stopped api f s b := by
  constructor
  · rintro ⟨h, -⟩ b hb hw
    exact (stopped_iff hf hb).mpr (h b hb hw).1
  · intro h
    constructor
    · intro b hb hw
      have hno := (stopped_iff hf hb).mp (h b hb hw)
      obtain ⟨out, ht⟩ | ht := final_rollback (call api abi callData) s
      · exact absurd ⟨out, _, ht⟩ hno
      · exact ⟨hno, by rw [ht]⟩
    · intro out t b hc hb
      obtain ⟨hconv, u, ht⟩ := word_of_call hf hc hb
      rw [ht, holds_packReserves_iff hconv.fits0 hconv.fits1]
      exact fun hw => (stopped_iff hf hb).mp (h b hb hw) ⟨out, t, hc⟩

end Calls

/-- A `sync` on balances of `2 ^ 112 + 4` and `2 ^ 112` returns, and stores 5 and 0. -/
theorem oversized_stored :
    let b : Balances := { balance0 := 2 ^ 112 + 4, balance1 := 2 ^ 112 }
    let s := samplePair b.balance0 b.balance1
    ∃ t, call (ledgerApi 7 9) standardAbi PairFn.sync.selector s = .ok [] t ∧
      handed (ledgerApi 7 9) standardAbi PairFn.sync.selector s = some b ∧ Oversized b ∧
      field0 (slots (ledgerApi 7 9) t slotReserves) = 5 ∧
      field1 (slots (ledgerApi 7 9) t slotReserves) = 0 := by
  intro b s
  exact ⟨_, ok_of_value (by decide +kernel), by decide +kernel, .inl (by decide +kernel), by decide +kernel,
    by decide +kernel⟩

theorem oversized_rejected_sample :
    let s := samplePair (2 ^ 128) 7
    ∀ b, handed (ledgerApi 7 9) standardAbi PairFn.sync.selector s = some b → Oversized b →
      (¬ ∃ out t, call (ledgerApi 7 9) standardAbi PairFn.sync.selector s = .ok out t) ∧
        (final (rollback (call (ledgerApi 7 9) standardAbi PairFn.sync.selector) s)).storage =
          s.storage := by
  intro s
  refine ((oversized_rejected_iff (f := .sync) (ledgerApi 7 9) standardAbi PairFn.sync.selector s
    (by decide)).mpr ?_).1
  intro b hb _
  have hb' : handed (ledgerApi 7 9) standardAbi PairFn.sync.selector s =
      some { balance0 := 2 ^ 128, balance1 := 7 } := by decide +kernel
  obtain rfl := Option.some.inj (hb'.symm.trans hb)
  exact .inr (.inl (by decide +kernel))

end RiscVContracts.Widths
