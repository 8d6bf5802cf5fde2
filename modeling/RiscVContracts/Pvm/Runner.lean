import RiscVContracts.Lib.Bytes
import RiscVContracts.Lib.Loops
import Mathlib.Data.BitVec
import Mathlib.Logic.Function.Basic

namespace RiscVContracts.Runner

open Programs Bytes Loops

abbrev U32 := BitVec 32
abbrev U64 := BitVec 64

section Crate

inductive Reg
  | a0 | a1 | a2
  deriving DecidableEq, Repr

inductive InterruptKind
  | finished
  | trap
  | notEnoughGas
  | segfault
  | step
  | ecalli (idx : U32)
  deriving DecidableEq, Repr

/-- The symbols a module imports, which `get` finds by their 32-bit index: a
list of `2 ^ 32` symbols would have no last one, and `from_module` not end on it. -/
structure Imports where
  symbols : List Buffer
  length_lt : symbols.length < 2 ^ 32

def Imports.get (imports : Imports) (idx : U32) : Option Buffer := imports.symbols[idx.toNat]?

theorem Imports.toNat_succ {imports : Imports} {idx : U32} (h : idx.toNat < imports.symbols.length) :
    (idx + 1).toNat = idx.toNat + 1 :=
  BitVec.toNat_add_of_lt (show idx.toNat + 1 < 2 ^ 32 from lt_of_le_of_lt h imports.length_lt)

structure Module (I : Type) where
  imports : Imports
  exports : List (Buffer × U32)
  instantiate : Except String I

/-- What the runner uses of the virtual machine: instances of type `I`, run up
to their next interrupt. Memory accesses may fail inside; the runner ignores
their results, so a write gives the instance it leaves and a read the buffer
it leaves. -/
structure Vm (I : Type) where
  reg : I → Reg → U64
  setReg : I → Reg → U64 → I
  gas : I → U64
  setGas : I → U64 → I
  prepareCallUntyped : I → U32 → I
  run : I → Except String InterruptKind × I
  readMemoryInto : I → U32 → {n : Nat} → Vector UInt8 n → Vector UInt8 n
  writeMemory : I → U32 → Buffer → I
  zeroMemory : I → U32 → U32 → I
  keccak256 : Buffer → Vector UInt8 32
  /-- Whether the runner is built with arithmetic overflow checks. -/
  overflowChecks : Bool

end Crate

section Syscalls

inductive SyscallId
  | callDataSize | callDataLoad | callDataCopy | sealReturn | consumeAllGas | valueTransferred
  | setImmutableData | getImmutableData | getStorageOrZero | setStorageOrClear | hashKeccak256
  | address | caller | balance | blockNumber | returnDataSize | refTimeLeft
  | unknown
  deriving DecidableEq, Repr

inductive SyscallResult
  | continues
  | returnValue (value : U64)
  | terminate (flags : U32) (data : Buffer)
  deriving DecidableEq, Repr

def symbolBytes (symbol : String) : Buffer := symbol.toList.map fun c => UInt8.ofNat c.toNat

def symbolToSyscallId (symbol : Buffer) : SyscallId :=
  if symbol = symbolBytes "call_data_size" then .callDataSize
  else if symbol = symbolBytes "call_data_load" then .callDataLoad
  else if symbol = symbolBytes "call_data_copy" then .callDataCopy
  else if symbol = symbolBytes "seal_return" then .sealReturn
  else if symbol = symbolBytes "consume_all_gas" then .consumeAllGas
  else if symbol = symbolBytes "value_transferred" then .valueTransferred
  else if symbol = symbolBytes "set_immutable_data" then .setImmutableData
  else if symbol = symbolBytes "get_immutable_data" then .getImmutableData
  else if symbol = symbolBytes "get_storage_or_zero" then .getStorageOrZero
  else if symbol = symbolBytes "set_storage_or_clear" then .setStorageOrClear
  else if symbol = symbolBytes "hash_keccak_256" then .hashKeccak256
  else if symbol = symbolBytes "address" then .address
  else if symbol = symbolBytes "caller" then .caller
  else if symbol = symbolBytes "balance" then .balance
  else if symbol = symbolBytes "block_number" then .blockNumber
  else if symbol = symbolBytes "return_data_size" then .returnDataSize
  else if symbol = symbolBytes "ref_time_left" then .refTimeLeft
  else .unknown

structure SyscallDispatchTable where
  table : List SyscallId
  deriving DecidableEq, Repr

def pushImports (imports : Imports) (table : List SyscallId) (idx : U32) : List SyscallId :=
  match h : imports.get idx with
  | some symbol => pushImports imports (table ++ [symbolToSyscallId symbol]) (idx + 1)
  | none => table
termination_by imports.symbols.length - idx.toNat
decreasing_by
  obtain ⟨hlt, -⟩ := List.getElem?_eq_some_iff.mp h
  rw [Imports.toNat_succ hlt]
  omega

def fromModule (imports : Imports) : SyscallDispatchTable := ⟨pushImports imports [] 0⟩

def SyscallDispatchTable.get (table : SyscallDispatchTable) (idx : U32) : SyscallId :=
  (table.table[idx.toNat]?).getD .unknown

end Syscalls

section Programs

abbrev Storage := Vector UInt8 32 → Option (Vector UInt8 32)

structure Machine (I : Type) where
  inst : I
  storage : Storage

inductive Panic
  | overflow
  deriving DecidableEq, Repr

abbrev Execution (I α : Type) := EStateM Panic (Machine I) α

variable {I : Type} (vm : Vm I)

def reg (r : Reg) : Execution I U64 := do return vm.reg (← get).inst r

def setReg (r : Reg) (value : U64) : Execution I Unit :=
  modify fun m => { m with inst := vm.setReg m.inst r value }

def gas : Execution I U64 := do return vm.gas (← get).inst

def resume : Execution I (Except String InterruptKind) := do
  let m ← get
  let r := vm.run m.inst
  set { m with inst := r.2 }
  return r.1

def readMemoryInto (ptr : U32) {n : Nat} (buf : Vector UInt8 n) : Execution I (Vector UInt8 n) := do
  return vm.readMemoryInto (← get).inst ptr buf

def writeMemory (ptr : U32) (data : Buffer) : Execution I Unit :=
  modify fun m => { m with inst := vm.writeMemory m.inst ptr data }

def zeroMemory (ptr len : U32) : Execution I Unit :=
  modify fun m => { m with inst := vm.zeroMemory m.inst ptr len }

def storageGet (key : Vector UInt8 32) : Execution I (Option (Vector UInt8 32)) := do
  return (← get).storage key

def storageRemove (key : Vector UInt8 32) : Execution I Unit :=
  modify fun m => { m with storage := Function.update m.storage key none }

def storageInsert (key value : Vector UInt8 32) : Execution I Unit :=
  modify fun m => { m with storage := Function.update m.storage key (some value) }

def addU32 (a b : U32) : Execution I U32 :=
  if vm.overflowChecks ∧ BitVec.uaddOverflow a b then throw .overflow else return a + b

def subI64 (a b : U64) : Execution I U64 :=
  if vm.overflowChecks ∧ BitVec.ssubOverflow a b then throw .overflow else return a - b

end Programs

end RiscVContracts.Runner
