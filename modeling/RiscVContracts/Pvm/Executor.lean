import RiscVContracts.Pvm.Handlers

namespace RiscVContracts.Executor

open Programs Bytes Loops Runner Handlers

inductive ExecOutcome
  | returned (flags : U32) (data : Buffer)
  | trap
  | outOfGas
  | finished
  deriving DecidableEq, Repr

/-- The errors of a call. The crate's own errors are kept as the text they print. -/
inductive CallError
  | noCallExport
  | notInstantiated (e : String)
  | execution (e : String)
  | reverted (flags : U32) (outputLen : Nat)
  | trapped
  | outOfGas
  deriving DecidableEq, Repr

def CallError.message : CallError → String
  | noCallExport => "No 'call' export found in module"
  | notInstantiated e => "Failed to instantiate module: " ++ e
  | execution e => "PolkaVM execution error: " ++ e
  | reverted flags outputLen =>
    "Contract reverted (flags=0x" ++ String.ofList (Nat.toDigits 16 flags.toNat) ++ ", " ++
      toString outputLen ++ " bytes output)"
  | trapped => "Contract trapped"
  | outOfGas => "Out of gas"

def gasLimit : U64 := 300000000

abbrev Reply := U64 × Buffer

variable {I : Type} (vm : Vm I)

/-- One round of the execution loop, up to the next interrupt and its system call. -/
def round (handle : U32 → Execution I SyscallResult) :
    Execution I (Option (Except CallError ExecOutcome)) := do
  match ← resume vm with
  | .ok .finished => return some (.ok .finished)
  | .ok .trap => return some (.ok .trap)
  | .ok .notEnoughGas => return some (.ok .outOfGas)
  | .ok .segfault => return some (.ok .trap)
  | .ok .step => return none
  | .ok (.ecalli idx) =>
    match ← handle idx with
    | .continues => return none
    | .returnValue value => do
      setReg vm .a0 value
      return none
    | .terminate flags data => return some (.ok (.returned flags data))
  | .error e => return some (.error (.execution e))

def conclude : Except CallError ExecOutcome → Execution I (Except CallError Reply)
  | .error e => return .error e
  | .ok outcome => do
    let gasUsed ← subI64 vm gasLimit (← gas vm)
    match outcome with
    | .returned flags data =>
      if flags &&& 1 ≠ 0 then return .error (.reverted flags data.length) else return .ok (gasUsed, data)
    | .finished => return .ok (gasUsed, [])
    | .trap => return .error .trapped
    | .outOfGas => return .error .outOfGas

def entryPoint (m : Module I) : Option U32 :=
  (m.exports.find? (fun e => e.1 = symbolBytes "call")).map (·.2)

def prepare (m : Module I) (storage : Storage) : Except CallError (Machine I) :=
  match entryPoint m with
  | none => .error .noCallExport
  | some entryPc => match m.instantiate with
    | .error e => .error (.notInstantiated e)
    | .ok inst => .ok { inst := vm.prepareCallUntyped (vm.setGas inst gasLimit) entryPc, storage := storage }

/-- A call for at most `fuel` rounds of the loop, its system calls handled by
`handle`. It answers nothing when the guest is still running. -/
def callWith (handle : U32 → Execution I SyscallResult) (m : Module I) (fuel : Nat) :
    EStateM Panic Storage (Option (Except CallError Reply)) := fun storage =>
  match prepare vm m storage with
  | .error e => .ok (some (.error e)) storage
  | .ok start =>
    match loop (round vm handle) fuel start with
    | .ok none t => .ok none t.storage
    | .ok (some outcome) t => match conclude vm outcome t with
      | .ok reply u => .ok (some reply) u.storage
      | .error e u => .error e u.storage
    | .error e t => .error e t.storage

def callWithDispatchTable (m : Module I) (calldata : Buffer) (table : SyscallDispatchTable) (fuel : Nat) :
    EStateM Panic Storage (Option (Except CallError Reply)) :=
  callWith vm (fun idx => handleSyscallById vm (table.get idx) calldata) m fuel

def callWithData (m : Module I) (calldata : Buffer) (fuel : Nat) :
    EStateM Panic Storage (Option (Except CallError Reply)) :=
  callWithDispatchTable vm m calldata (fromModule m.imports) fuel

section Calls

variable {vm} {handle : U32 → Execution I SyscallResult} {m : Module I} {fuel : Nat} {S T : Storage}

theorem callWith_ok {r : Option (Except CallError Reply)} :
    callWith vm handle m fuel S = .ok r T ↔
      (∃ e, prepare vm m S = .error e ∧ some (.error e) = r ∧ S = T) ∨
      ∃ start, prepare vm m S = .ok start ∧
        ((∃ t, loop (round vm handle) fuel start = .ok none t ∧ none = r ∧ t.storage = T) ∨
          ∃ outcome t reply u, loop (round vm handle) fuel start = .ok (some outcome) t ∧
            conclude vm outcome t = .ok reply u ∧ some reply = r ∧ u.storage = T) := by
  rw [callWith]
  cases prepare vm m S with
  | error e => simp
  | ok start =>
      dsimp only
      cases hl : loop (round vm handle) fuel start with
      | error e t => simp [hl]
      | ok o t =>
          cases o with
          | none => simp [hl]
          | some outcome =>
              dsimp only
              cases hc : conclude vm outcome t <;> simp [hl, hc]

theorem callWith_mono (k : Nat) {r : Except CallError Reply}
    (h : callWith vm handle m fuel S = .ok (some r) T) :
    callWith vm handle m (fuel + k) S = .ok (some r) T := by
  obtain ⟨e, hp, hr, rfl⟩ | ⟨start, hp, ⟨t, -, hr, -⟩ | ⟨outcome, t, reply, u, hl, hc, hr, rfl⟩⟩ :=
    callWith_ok.mp h
  · exact callWith_ok.mpr (.inl ⟨e, hp, hr, rfl⟩)
  · cases hr
  · exact callWith_ok.mpr (.inr ⟨start, hp, .inr ⟨outcome, t, reply, u, loop_mono k hl, hc, hr, rfl⟩⟩)

end Calls

section Scripts

structure Beat where
  a0 : U64
  a1 : U64
  a2 : U64
  interrupt : InterruptKind
  deriving DecidableEq, Repr

/-- A guest that acts by a script, its memory mapped from address zero. -/
structure Guest where
  a0 : U64
  a1 : U64
  a2 : U64
  gas : U64
  memory : Buffer
  script : List Beat
  deriving DecidableEq, Repr

def Guest.start (memory : Buffer) (script : List Beat) : Guest where
  a0 := 0
  a1 := 0
  a2 := 0
  gas := 0
  memory := memory
  script := script

def Guest.write (g : Guest) (ptr : U32) (data : Buffer) : Guest :=
  if ptr.toNat + data.length ≤ g.memory.length then
    { g with memory := copyFromSlice g.memory ptr.toNat data } else g

def scriptedVm : Vm Guest where
  reg g
    | .a0 => g.a0
    | .a1 => g.a1
    | .a2 => g.a2
  setReg g r value := match r with
    | .a0 => { g with a0 := value }
    | .a1 => { g with a1 := value }
    | .a2 => { g with a2 := value }
  gas g := g.gas
  setGas g value := { g with gas := value }
  prepareCallUntyped g _ := g
  run g := match g.script with
    | [] => (.ok .finished, g)
    | b :: rest => (.ok b.interrupt, { g with a0 := b.a0, a1 := b.a1, a2 := b.a2, script := rest })
  readMemoryInto g ptr n buf :=
    if ptr.toNat + n ≤ g.memory.length then .ofFn fun i => g.memory.getD (ptr.toNat + i) 0 else buf
  writeMemory g ptr data := g.write ptr data
  zeroMemory g ptr len := g.write ptr (zeros len.toNat)
  keccak256 _ := .replicate 32 0
  overflowChecks := false

end Scripts

end RiscVContracts.Executor
