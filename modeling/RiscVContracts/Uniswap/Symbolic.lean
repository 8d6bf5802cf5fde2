import RiscVContracts.Uniswap.PairView

namespace RiscVContracts.Symbolic

open Host Storage Pair PairView

variable {κ W : Type}

/-- The hash taken as a free constructor on pairs of words: it is injective
and its results differ from every word spelled by a number. -/
structure FreeKeccak (api : Api κ W) : Prop where
  hash_injective : ∀ {a b c d}, api.hashKeccak256 a b = api.hashKeccak256 c d → a = c ∧ b = d
  hash_ne_word : ∀ a b v, api.hashKeccak256 a b ≠ api.word v

variable {api : Api κ W}

theorem FreeKeccak.mappingKey1_injective (free : FreeKeccak api) (slot : U32) :
    Function.Injective (mappingKey1 api slot) := fun _ _ h =>
  padAddress_injective (api.word_injective (free.hash_injective h).1)

theorem FreeKeccak.mappingKey2_injective (free : FreeKeccak api) (slot : U32) {a b c d : Address}
    (h : mappingKey2 api slot a b = mappingKey2 api slot c d) : a = c ∧ b = d := by
  obtain ⟨ha, hb⟩ := free.hash_injective h
  exact ⟨padAddress_injective (api.word_injective ha),
    padAddress_injective (api.word_injective (free.hash_injective hb).1)⟩

theorem FreeKeccak.separated (free : FreeKeccak api) : Separated api where
  balance := free.mappingKey1_injective slotBalanceOf
  balance_slot _ _ := free.hash_ne_word _ _ _
  allowance_slot _ _ _ := free.hash_ne_word _ _ _
  allowance_balance _ _ _ h := free.hash_ne_word _ _ _ (free.hash_injective h).2

inductive Key
  | word (v : U256)
  | hash (a b : Key)
  deriving DecidableEq

theorem freeKeccak_key {api : Api Key W} (hw : api.word = Key.word) (hh : api.hashKeccak256 = Key.hash) :
    FreeKeccak api where
  hash_injective h := by
    rw [hh] at h
    exact Key.hash.inj h
  hash_ne_word a b v := by
    rw [hw, hh]
    exact Key.noConfusion

end RiscVContracts.Symbolic
