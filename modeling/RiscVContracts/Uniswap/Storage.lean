import RiscVContracts.Uniswap.Host

namespace RiscVContracts.Storage

open Programs Host

variable {κ W : Type}

def slotKey (api : Api κ W) (slot : U32) : κ := api.word (slot.setWidth 256)

/-- The slot number as the mapping keys write it: bytes 44 to 48 of the hashed
buffer, which are not the low end of its second word. -/
def slotWord (slot : U32) : U256 := slot.setWidth 256 <<< 128

def mappingKey1 (api : Api κ W) (baseSlot : U32) (key : Address) : κ :=
  api.hashKeccak256 (api.word (padAddress key)) (api.word (slotWord baseSlot))

def mappingKey2 (api : Api κ W) (baseSlot : U32) (key1 key2 : Address) : κ :=
  let innerHash := api.hashKeccak256 (api.word (padAddress key2)) (api.word (slotWord (baseSlot + 1)))
  api.hashKeccak256 (api.word (padAddress key1)) innerHash

def storageGetU256 (api : Api κ W) (slot : U32) : Program κ W U256 :=
  getStorageOrZero (slotKey api slot)

def storageSetU256 [DecidableEq κ] (api : Api κ W) (slot : U32) (value : U256) : Program κ W Unit :=
  setStorageOrClear (slotKey api slot) value

theorem slotKey_injective (api : Api κ W) : Function.Injective (slotKey api) := by
  intro m n h
  have h' := congrArg (BitVec.setWidth 32) (api.word_injective h)
  simpa using h'

end RiscVContracts.Storage
