import RiscVContracts.Lib.Programs
import RiscVContracts.Lib.Bytes
import Mathlib.Data.BitVec
import Mathlib.Logic.Function.Basic

namespace RiscVContracts.Host

open Programs Bytes

abbrev U256 := BitVec 256
abbrev U128 := BitVec 128
abbrev U32 := BitVec 32

abbrev Address := BitVec 160

def toBeBytes (x : U256) : Buffer := beBytes 32 x.toNat

def fromBeSlice (bs : Buffer) : U256 := BitVec.ofNat 256 (ofBeBytes bs)

theorem fromBeSlice_toBeBytes (x : U256) : fromBeSlice (toBeBytes x) = x := by
  rw [fromBeSlice, toBeBytes, ofBeBytes_beBytes, Nat.mod_eq_of_lt (by simpa using x.isLt)]
  exact BitVec.ofNat_toNat ..|>.trans (BitVec.setWidth_eq x)

/-- The word whose low twenty bytes are the account: the buffers `b[12..32]` of the source. -/
def padAddress (a : Address) : U256 := a.setWidth 256

def lowAddress (v : U256) : Address := v.setWidth 160

@[simp] theorem lowAddress_padAddress (a : Address) : lowAddress (padAddress a) = a := by
  simp [lowAddress, padAddress]

theorem padAddress_injective : Function.Injective padAddress :=
  Function.LeftInverse.injective lowAddress_padAddress

/-- How an execution stops short of its result: `return_value` with the
revert flag, or the `unimp` of the panic handler. -/
inductive Halt
  | revert
  | trap
  deriving DecidableEq, Repr

/-- What a contract's execution can change: its own storage, keyed by `κ`,
and everything outside it. A key that was never set reads as zero. -/
structure State (κ W : Type) where
  storage : κ → U256
  world : W

def State.fresh {κ W : Type} (world : W) : State κ W where
  storage _ := 0
  world := world

abbrev Program (κ W α : Type) := EStateM Halt (State κ W) α

/-- The host functions a contract calls. Storage keys are 32-byte words of a
type `κ`: `word` gives the key spelled by a number, `hashKeccak256` the hash of
the 64-byte buffer made of two keys. A call of another contract answers with
its output, or with nothing when the callee failed, and may change the state. -/
structure Api (κ W : Type) where
  word : U256 → κ
  word_injective : Function.Injective word
  hashKeccak256 : κ → κ → κ
  caller : Address
  address : Address
  now : Vector UInt8 32
  callEvm : Address → Buffer → State κ W → Option Buffer × State κ W
  call : Address → Buffer → State κ W → Option Buffer × State κ W := fun _ _ s => (none, s)
  instantiate : Buffer → State κ W → Option Address × State κ W := fun _ s => (none, s)

variable {κ W α : Type}

def revert : Program κ W α := throw .revert

def trap : Program κ W α := throw .trap

/-- `abi_decode(..).unwrap_or_else(|_| revert())`. -/
def orRevert : Option α → Program κ W α
  | some a => pure a
  | none => revert

/-- `Uint::to`, which panics when the value does not fit the target. -/
def toUint (n : Nat) (x : U256) : Program κ W (BitVec n) :=
  if x.toNat < 2 ^ n then pure (x.setWidth n) else trap

def divU256 (x y : U256) : Program κ W U256 :=
  if y = 0 then trap else pure (x / y)

theorem revert_ok {a : α} {s t : State κ W} : ¬ (revert : Program κ W α) s = .ok a t := throw_ok

theorem trap_ok {a : α} {s t : State κ W} : ¬ (trap : Program κ W α) s = .ok a t := throw_ok

theorem orRevert_ok {o : Option α} {a : α} {s t : State κ W} :
    (orRevert o : Program κ W α) s = .ok a t ↔ o = some a ∧ s = t := by
  cases o with
  | none => simp [orRevert, revert_ok]
  | some b => simp [orRevert, pure_ok]

theorem toUint_ok {n : Nat} {x : U256} {v : BitVec n} {s t : State κ W} :
    (toUint n x : Program κ W (BitVec n)) s = .ok v t ↔
      x.toNat < 2 ^ n ∧ x.setWidth n = v ∧ s = t := by
  unfold toUint
  split <;> simp_all [pure_ok, trap_ok]

theorem divU256_ok {x y v : U256} {s t : State κ W} :
    (divU256 x y : Program κ W U256) s = .ok v t ↔ y ≠ 0 ∧ x / y = v ∧ s = t := by
  unfold divU256
  split <;> simp_all [pure_ok, trap_ok]

theorem orRevert_stopped {o : Option α} {e : Halt} {s t : State κ W}
    (h : (orRevert o : Program κ W α) s = .error e t) : o = none := by
  cases o with
  | none => rfl
  | some a => cases h

theorem toUint_stopped {n : Nat} {x : U256} {e : Halt} {s t : State κ W}
    (h : (toUint n x : Program κ W (BitVec n)) s = .error e t) : ¬ x.toNat < 2 ^ n ∧ s = t := by
  unfold toUint at h
  split at h
  · cases h
  · cases h
    exact ⟨‹_›, rfl⟩

theorem divU256_stopped {x y : U256} {e : Halt} {s t : State κ W}
    (h : (divU256 x y : Program κ W U256) s = .error e t) : y = 0 := by
  unfold divU256 at h
  split at h
  · assumption
  · cases h

section Storage

variable [DecidableEq κ]

def State.set (s : State κ W) (key : κ) (v : U256) : State κ W :=
  { s with storage := Function.update s.storage key v }

@[simp] theorem State.set_world (s : State κ W) (key : κ) (v : U256) :
    (s.set key v).world = s.world := rfl

@[simp] theorem State.set_storage_self (s : State κ W) (key : κ) (v : U256) :
    (s.set key v).storage key = v := Function.update_self ..

theorem State.set_storage_of_ne (s : State κ W) {key key' : κ} (h : key' ≠ key) (v : U256) :
    (s.set key v).storage key' = s.storage key' := Function.update_of_ne h ..

def getStorageOrZero (key : κ) : Program κ W U256 := do
  return (← get).storage key

def setStorageOrClear (key : κ) (v : U256) : Program κ W Unit :=
  modify fun s => s.set key v

omit [DecidableEq κ] in
theorem getStorageOrZero_ok {key : κ} {v : U256} {s t : State κ W} :
    (getStorageOrZero key : Program κ W U256) s = .ok v t ↔ s.storage key = v ∧ s = t := by
  change EStateM.Result.ok (s.storage key) s = .ok v t ↔ _
  simp

theorem setStorageOrClear_ok {key : κ} {v : U256} {u : Unit} {s t : State κ W} :
    (setStorageOrClear key v : Program κ W Unit) s = .ok u t ↔ s.set key v = t := by
  change EStateM.Result.ok () (s.set key v) = .ok u t ↔ _
  simp

end Storage

def callEvm (api : Api κ W) (callee : Address) (input : Buffer) : Program κ W (Option Buffer) :=
  fun s => .ok (api.callEvm callee input s).1 (api.callEvm callee input s).2

theorem callEvm_ok {api : Api κ W} {callee : Address} {input : Buffer} {r : Option Buffer}
    {s t : State κ W} :
    callEvm api callee input s = .ok r t ↔ api.callEvm callee input s = (r, t) := by
  simp [callEvm, Prod.ext_iff]

end RiscVContracts.Host
