import RiscVContracts.Pvm.Runner

namespace RiscVContracts.Handlers

open Programs Bytes Runner

variable {I : Type} (vm : Vm I)

def slice (calldata : Buffer) (start stop : Nat) : Buffer := (calldata.take stop).drop start

def handleSyscallById (syscallId : SyscallId) (calldata : Buffer) : Execution I SyscallResult := do
  let a0 ← reg vm .a0
  let a1 ← reg vm .a1
  let a2 ← reg vm .a2
  match syscallId with
  | .callDataSize => return .returnValue (BitVec.ofNat 64 calldata.length)
  | .callDataLoad => do
    let outPtr : U32 := a0.setWidth 32
    let offset : U32 := a1.setWidth 32
    let start := offset.toNat
    let data :=
      if start < calldata.length then
        let stop := min (start + 32) calldata.length
        (copyFromSlice (zeros 32) 0 (slice calldata start stop)).reverse
      else zeros 32
    writeMemory vm outPtr data
    return .continues
  | .callDataCopy => do
    let outPtr : U32 := a0.setWidth 32
    let outLen : U32 := a1.setWidth 32
    let offset : U32 := a2.setWidth 32
    let start := offset.toNat
    if start ≥ calldata.length then zeroMemory vm outPtr outLen
    else do
      let stop := min (start + outLen.toNat) calldata.length
      writeMemory vm outPtr (slice calldata start stop)
      let written := BitVec.ofNat 32 (stop - start)
      if written < outLen then do
        let rest ← addU32 vm outPtr written
        zeroMemory vm rest (outLen - written)
    return .continues
  | .sealReturn => do
    let flags : U32 := a0.setWidth 32
    let dataPtr : U32 := a1.setWidth 32
    let dataLen : U32 := a2.setWidth 32
    let buf ← readMemoryInto vm dataPtr (Vector.replicate dataLen.toNat 0)
    return .terminate flags buf.toList
  | .consumeAllGas => return .terminate 1 []
  | .valueTransferred => do
    let outPtr : U32 := a0.setWidth 32
    writeMemory vm outPtr (zeros 32)
    return .continues
  | .setImmutableData => return .continues
  | .getImmutableData => do
    let outLenPtr : U32 := a1.setWidth 32
    writeMemory vm outLenPtr (leBytes 4 0)
    return .continues
  | .getStorageOrZero => do
    let keyPtr : U32 := a1.setWidth 32
    let outPtr : U32 := a2.setWidth 32
    let key ← readMemoryInto vm keyPtr (Vector.replicate 32 0)
    let value := (← storageGet key).getD (Vector.replicate 32 0)
    writeMemory vm outPtr value.toList
    return .continues
  | .setStorageOrClear => do
    let keyPtr : U32 := a1.setWidth 32
    let valuePtr : U32 := a2.setWidth 32
    let key ← readMemoryInto vm keyPtr (Vector.replicate 32 0)
    let value ← readMemoryInto vm valuePtr (Vector.replicate 32 0)
    let oldLen : U32 := if (← storageGet key).isSome then 32 else BitVec.allOnes 32
    if value.all (· == 0) then storageRemove key else storageInsert key value
    return .returnValue (oldLen.setWidth 64)
  | .hashKeccak256 => do
    let inputPtr : U32 := a0.setWidth 32
    let inputLen : U32 := a1.setWidth 32
    let outputPtr : U32 := a2.setWidth 32
    let input ← readMemoryInto vm inputPtr (Vector.replicate inputLen.toNat 0)
    let hash := vm.keccak256 input.toList
    writeMemory vm outputPtr hash.toList
    return .continues
  | .address => do
    let outPtr : U32 := a0.setWidth 32
    writeMemory vm outPtr (List.replicate 20 0x42)
    return .continues
  | .caller => do
    let outPtr : U32 := a0.setWidth 32
    writeMemory vm outPtr (List.replicate 20 0x01)
    return .continues
  | .balance => do
    let outPtr : U32 := a0.setWidth 32
    writeMemory vm outPtr (zeros 32)
    return .continues
  | .blockNumber => do
    let outPtr : U32 := a0.setWidth 32
    writeMemory vm outPtr ((zeros 32).set 0 1)
    return .continues
  | .returnDataSize => return .returnValue 0
  | .refTimeLeft => return .returnValue (← gas vm)
  | .unknown => return .continues

def handleSyscall (symbol calldata : Buffer) : Execution I SyscallResult := do
  let a0 ← reg vm .a0
  let a1 ← reg vm .a1
  let a2 ← reg vm .a2
  if symbol = symbolBytes "call_data_size" then return .returnValue (BitVec.ofNat 64 calldata.length)
  else if symbol = symbolBytes "call_data_load" then do
    let outPtr : U32 := a0.setWidth 32
    let offset : U32 := a1.setWidth 32
    let start := offset.toNat
    let data :=
      if start < calldata.length then
        let stop := min (start + 32) calldata.length
        (copyFromSlice (zeros 32) 0 (slice calldata start stop)).reverse
      else zeros 32
    writeMemory vm outPtr data
    return .continues
  else if symbol = symbolBytes "call_data_copy" then do
    let outPtr : U32 := a0.setWidth 32
    let outLen : U32 := a1.setWidth 32
    let offset : U32 := a2.setWidth 32
    let start := offset.toNat
    if start ≥ calldata.length then zeroMemory vm outPtr outLen
    else do
      let stop := min (start + outLen.toNat) calldata.length
      writeMemory vm outPtr (slice calldata start stop)
      let written := BitVec.ofNat 32 (stop - start)
      if written < outLen then do
        let rest ← addU32 vm outPtr written
        zeroMemory vm rest (outLen - written)
    return .continues
  else if symbol = symbolBytes "seal_return" then do
    let flags : U32 := a0.setWidth 32
    let dataPtr : U32 := a1.setWidth 32
    let dataLen : U32 := a2.setWidth 32
    let buf ← readMemoryInto vm dataPtr (Vector.replicate dataLen.toNat 0)
    return .terminate flags buf.toList
  else if symbol = symbolBytes "consume_all_gas" then return .terminate 1 []
  else if symbol = symbolBytes "value_transferred" then do
    let outPtr : U32 := a0.setWidth 32
    writeMemory vm outPtr (zeros 32)
    return .continues
  else if symbol = symbolBytes "set_immutable_data" then return .continues
  else if symbol = symbolBytes "get_immutable_data" then do
    let outLenPtr : U32 := a1.setWidth 32
    writeMemory vm outLenPtr (leBytes 4 0)
    return .continues
  else if symbol = symbolBytes "get_storage_or_zero" then do
    let keyPtr : U32 := a1.setWidth 32
    let outPtr : U32 := a2.setWidth 32
    let key ← readMemoryInto vm keyPtr (Vector.replicate 32 0)
    let value := (← storageGet key).getD (Vector.replicate 32 0)
    writeMemory vm outPtr value.toList
    return .continues
  else if symbol = symbolBytes "set_storage_or_clear" then do
    let keyPtr : U32 := a1.setWidth 32
    let valuePtr : U32 := a2.setWidth 32
    let key ← readMemoryInto vm keyPtr (Vector.replicate 32 0)
    let value ← readMemoryInto vm valuePtr (Vector.replicate 32 0)
    let oldLen : U32 := if (← storageGet key).isSome then 32 else BitVec.allOnes 32
    if value.all (· == 0) then storageRemove key else storageInsert key value
    return .returnValue (oldLen.setWidth 64)
  else if symbol = symbolBytes "hash_keccak_256" then do
    let inputPtr : U32 := a0.setWidth 32
    let inputLen : U32 := a1.setWidth 32
    let outputPtr : U32 := a2.setWidth 32
    let input ← readMemoryInto vm inputPtr (Vector.replicate inputLen.toNat 0)
    let hash := vm.keccak256 input.toList
    writeMemory vm outputPtr hash.toList
    return .continues
  else if symbol = symbolBytes "address" then do
    let outPtr : U32 := a0.setWidth 32
    writeMemory vm outPtr (List.replicate 20 0x42)
    return .continues
  else if symbol = symbolBytes "caller" then do
    let outPtr : U32 := a0.setWidth 32
    writeMemory vm outPtr (List.replicate 20 0x01)
    return .continues
  else if symbol = symbolBytes "balance" then do
    let outPtr : U32 := a0.setWidth 32
    writeMemory vm outPtr (zeros 32)
    return .continues
  else if symbol = symbolBytes "block_number" then do
    let outPtr : U32 := a0.setWidth 32
    writeMemory vm outPtr ((zeros 32).set 0 1)
    return .continues
  else if symbol = symbolBytes "return_data_size" then return .returnValue 0
  else if symbol = symbolBytes "ref_time_left" then return .returnValue (← gas vm)
  else return .continues

/-- Both handlers read the argument registers before anything else. -/
def withArguments {α : Type} (k : U64 → U64 → U64 → Execution I α) : Execution I α := do
  k (← reg vm .a0) (← reg vm .a1) (← reg vm .a2)

end RiscVContracts.Handlers
