import RiscVContracts.Pvm.Dispatch
import RiscVContracts.Pvm.FailedCalls

namespace RiscVContracts.MemoryFaults

open Programs Bytes Loops Runner Handlers Executor Dispatch FailedCalls

variable {I : Type} {vm vm' : Vm I} {m t : Machine I} {id : SyscallId} {calldata : Buffer}

section Accesses

inductive Access
  | read (ptr : U32) (len : Nat)
  | write (ptr : U32) (data : Buffer)
  | zero (ptr len : U32)
  deriving DecidableEq, Repr

/-- The memory accesses of a system call, each with the instance it is made on. -/
def accesses (vm : Vm I) (id : SyscallId) (calldata : Buffer) (m : Machine I) : List (I × Access) :=
  let a0 : U32 := (vm.reg m.inst .a0).setWidth 32
  let a1 : U32 := (vm.reg m.inst .a1).setWidth 32
  let a2 : U32 := (vm.reg m.inst .a2).setWidth 32
  match id with
  | .callDataLoad =>
    let data :=
      if a1.toNat < calldata.length then
        let stop := min (a1.toNat + 32) calldata.length
        (copyFromSlice (zeros 32) 0 (slice calldata a1.toNat stop)).reverse
      else zeros 32
    [(m.inst, .write a0 data)]
  | .callDataCopy =>
    if a2.toNat ≥ calldata.length then [(m.inst, .zero a0 a1)]
    else
      let stop := min (a2.toNat + a1.toNat) calldata.length
      let data := slice calldata a2.toNat stop
      let written := BitVec.ofNat 32 (stop - a2.toNat)
      (m.inst, .write a0 data) ::
        if written < a1 ∧ ¬ (vm.overflowChecks ∧ BitVec.uaddOverflow a0 written) then
          [(vm.writeMemory m.inst a0 data, .zero (a0 + written) (a1 - written))]
        else []
  | .sealReturn => [(m.inst, .read a1 a2.toNat)]
  | .valueTransferred | .balance => [(m.inst, .write a0 (zeros 32))]
  | .getImmutableData => [(m.inst, .write a1 (leBytes 4 0))]
  | .getStorageOrZero =>
    let key := vm.readMemoryInto m.inst a1 (Vector.replicate 32 0)
    [(m.inst, .read a1 32), (m.inst, .write a2 ((m.storage key).getD (Vector.replicate 32 0)).toList)]
  | .setStorageOrClear => [(m.inst, .read a1 32), (m.inst, .read a2 32)]
  | .hashKeccak256 =>
    let input := vm.readMemoryInto m.inst a0 (Vector.replicate a1.toNat 0)
    [(m.inst, .read a0 a1.toNat), (m.inst, .write a2 (vm.keccak256 input.toList).toList)]
  | .address => [(m.inst, .write a0 (List.replicate 20 0x42))]
  | .caller => [(m.inst, .write a0 (List.replicate 20 0x01))]
  | .blockNumber => [(m.inst, .write a0 ((zeros 32).set 0 1))]
  | .callDataSize | .consumeAllGas | .setImmutableData | .returnDataSize | .refTimeLeft
  | .unknown => []

def Access.Agrees (vm vm' : Vm I) (inst : I) : Access → Prop
  | read ptr len => ∀ buf : Vector UInt8 len,
    vm'.readMemoryInto inst ptr buf = vm.readMemoryInto inst ptr buf
  | write ptr data => vm'.writeMemory inst ptr data = vm.writeMemory inst ptr data
  | zero ptr len => vm'.zeroMemory inst ptr len = vm.zeroMemory inst ptr len

theorem readMemoryInto_congr {ptr : U32} {n : Nat} (h : (Access.read ptr n).Agrees vm vm' m.inst)
    (buf : Vector UInt8 n) : readMemoryInto vm' ptr buf m = readMemoryInto vm ptr buf m :=
  congrArg (fun v => EStateM.Result.ok v m) (h buf)

theorem writeMemory_congr {ptr : U32} {data : Buffer}
    (h : (Access.write ptr data).Agrees vm vm' m.inst) :
    writeMemory vm' ptr data m = writeMemory vm ptr data m :=
  congrArg (fun inst => (.ok () ⟨inst, m.storage⟩ : EStateM.Result Panic (Machine I) Unit)) h

theorem zeroMemory_congr {ptr len : U32} (h : (Access.zero ptr len).Agrees vm vm' m.inst) :
    zeroMemory vm' ptr len m = zeroMemory vm ptr len m :=
  congrArg (fun inst => (.ok () ⟨inst, m.storage⟩ : EStateM.Result Panic (Machine I) Unit)) h

/-- A system call makes no other memory access than those listed: it does the
same on a virtual machine with other memory operations that agree on them. -/
theorem handleSyscallById_congr (read : I → U32 → {n : Nat} → Vector UInt8 n → Vector UInt8 n)
    (write : I → U32 → Buffer → I) (zero : I → U32 → U32 → I)
    (h : ∀ a ∈ accesses vm id calldata m, a.2.Agrees vm
      { vm with readMemoryInto := read, writeMemory := write, zeroMemory := zero } a.1) :
    handleSyscallById { vm with readMemoryInto := read, writeMemory := write, zeroMemory := zero }
      id calldata m = handleSyscallById vm id calldata m := by
  refine bind_congr_at rfl fun a0 u h0 => bind_congr_at rfl fun a1 v h1 =>
    bind_congr_at rfl fun a2 w h2 => ?_
  obtain ⟨rfl, rfl⟩ := reg_ok.mp h0
  obtain ⟨rfl, rfl⟩ := reg_ok.mp h1
  obtain ⟨rfl, rfl⟩ := reg_ok.mp h2
  cases id with
  | callDataSize | consumeAllGas | setImmutableData | returnDataSize | refTimeLeft | unknown => rfl
  | callDataLoad | valueTransferred | getImmutableData | address | caller | balance | blockNumber =>
      exact bind_congr_at (writeMemory_congr (h _ (.head _))) fun _ _ _ => rfl
  | sealReturn => exact bind_congr_at (readMemoryInto_congr (h _ (.head _)) _) fun _ _ _ => rfl
  | getStorageOrZero =>
      refine bind_congr_at (readMemoryInto_congr (h _ (.head _)) _) fun key u hu => ?_
      obtain ⟨rfl, rfl⟩ := readMemoryInto_ok.mp hu
      refine bind_congr_at rfl fun value u hu => ?_
      obtain ⟨rfl, rfl⟩ := storageGet_ok.mp hu
      exact bind_congr_at (writeMemory_congr (h _ (.tail _ (.head _)))) fun _ _ _ => rfl
  | setStorageOrClear =>
      refine bind_congr_at (readMemoryInto_congr (h _ (.head _)) _) fun key u hu => ?_
      obtain ⟨rfl, rfl⟩ := readMemoryInto_ok.mp hu
      exact bind_congr_at (readMemoryInto_congr (h _ (.tail _ (.head _))) _) fun _ _ _ => rfl
  | hashKeccak256 =>
      refine bind_congr_at (readMemoryInto_congr (h _ (.head _)) _) fun input u hu => ?_
      obtain ⟨rfl, rfl⟩ := readMemoryInto_ok.mp hu
      exact bind_congr_at (writeMemory_congr (h _ (.tail _ (.head _)))) fun _ _ _ => rfl
  | callDataCopy =>
      dsimp only [accesses] at h ⊢
      split at h
      · rename_i hstart
        rw [if_pos hstart, if_pos hstart]
        exact bind_congr_at (zeroMemory_congr (h _ (.head _))) fun _ _ _ => rfl
      · rename_i hstart
        rw [if_neg hstart, if_neg hstart]
        refine bind_congr_at (writeMemory_congr (h _ (.head _))) fun _ u hu => ?_
        rw [← writeMemory_ok.mp hu]
        split
        · rename_i hwritten
          refine bind_congr_at rfl fun rest u hu => ?_
          obtain ⟨hchecks, rfl, rfl⟩ := addU32_ok.mp hu
          rw [if_pos ⟨hwritten, hchecks⟩] at h
          exact bind_congr_at (zeroMemory_congr (h _ (.tail _ (.head _)))) fun _ _ _ => rfl
        · rfl

end Accesses

section Outcomes

def Fails : Except CallError ExecOutcome → Prop
  | .error _ | .ok .trap | .ok .outOfGas => True
  | .ok (.returned flags _) => flags &&& 1 ≠ 0
  | .ok .finished => False

theorem conclude_fails_iff {outcome : Except CallError ExecOutcome} {r : Except CallError Reply}
    (h : conclude vm outcome m = .ok r t) : Fails outcome ↔ ∃ e, r = .error e := by
  cases outcome with
  | error e =>
      obtain ⟨rfl, -⟩ := pure_ok.mp h
      exact iff_of_true trivial ⟨e, rfl⟩
  | ok outcome =>
      obtain ⟨_, _, -, h⟩ := bind_ok.mp h
      obtain ⟨gasUsed, _, -, h⟩ := bind_ok.mp h
      cases outcome with
      | returned flags data =>
          dsimp only at h
          split at h
          · rename_i hflags
            obtain ⟨rfl, -⟩ := pure_ok.mp h
            exact iff_of_true hflags ⟨_, rfl⟩
          · rename_i hflags
            obtain ⟨rfl, -⟩ := pure_ok.mp h
            exact iff_of_false hflags (by rintro ⟨_, h⟩; cases h)
      | finished =>
          obtain ⟨rfl, -⟩ := pure_ok.mp h
          exact iff_of_false id (by rintro ⟨_, h⟩; cases h)
      | trap | outOfGas =>
          obtain ⟨rfl, -⟩ := pure_ok.mp h
          exact iff_of_true trivial ⟨_, rfl⟩

def EndsInError (vm : Vm I) (handle : U32 → Execution I SyscallResult) (m : Machine I) : Prop :=
  ∃ outcome t, round vm handle m = .ok (some outcome) t ∧ Fails outcome ∧ t.storage = m.storage

variable {handle : U32 → Execution I SyscallResult}

theorem EndsInError.call {module : Module I} {start : Machine I} {n fuel : Nat} {S T : Storage}
    {r : Except CallError Reply} (h : EndsInError vm handle m)
    (hprepare : prepare vm module S = .ok start)
    (hloop : loop (round vm handle) n start = .ok none m)
    (hcall : callWith vm handle module (n + (fuel + 1)) S = .ok (some r) T) :
    (∃ e, r = .error e) ∧ T = m.storage := by
  obtain ⟨outcome, t, hround, hfails, hstorage⟩ := h
  have hbreak : loop (round vm handle) (fuel + 1) m = .ok (some outcome) t :=
    loop_succ_ok.mpr (.inl ⟨outcome, rfl, hround⟩)
  have hended := (loop_add hloop _).trans hbreak
  obtain ⟨e, hp, -, -⟩ | ⟨start', hp, hcall⟩ := callWith_ok.mp hcall
  · cases hprepare.symm.trans hp
  · cases hprepare.symm.trans hp
    obtain ⟨u, hl, -, -⟩ | ⟨outcome', t', reply, u, hl, hc, hr, rfl⟩ := hcall
    · cases hended.symm.trans hl
    · cases hended.symm.trans hl
      cases hr
      exact ⟨(conclude_fails_iff hc).mp hfails, (conclude_storage hc).trans hstorage⟩

theorem endsInError_iff {inst : I} {idx : U32} (hrun : vm.run m.inst = (.ok (.ecalli idx), inst)) :
    EndsInError vm handle m ↔ ∃ flags data t,
      handle idx { m with inst := inst } = .ok (.terminate flags data) t ∧ flags &&& 1 ≠ 0 ∧
        t.storage = m.storage := by
  have hresume : resume vm m = .ok (.ok (.ecalli idx)) { m with inst := inst } :=
    resume_ok.mpr (by rw [hrun]; exact ⟨rfl, rfl⟩)
  constructor
  · rintro ⟨outcome, t, hround, hfails, hstorage⟩
    rw [Executor.round, bind_of_ok hresume] at hround
    obtain ⟨r, u, hr, hround⟩ := bind_ok.mp hround
    cases r with
    | continues => cases (pure_ok.mp hround).1
    | returnValue value =>
        obtain ⟨_, v, -, hround⟩ := bind_ok.mp hround
        cases (pure_ok.mp hround).1
    | terminate flags data =>
        obtain ⟨ho, rfl⟩ := pure_ok.mp hround
        cases ho
        exact ⟨flags, data, u, hr, hfails, hstorage⟩
  · rintro ⟨flags, data, t, hr, hflags, hstorage⟩
    refine ⟨.ok (.returned flags data), t, ?_, hflags, hstorage⟩
    rw [Executor.round, bind_of_ok hresume]
    exact (bind_of_ok hr).trans rfl

end Outcomes

section Terminating

def GoesOn (x : Execution I SyscallResult) : Prop :=
  ∀ m flags data t, x m ≠ .ok (.terminate flags data) t

theorem GoesOn.bind {α : Type} {x : Execution I α} {f : α → Execution I SyscallResult}
    (hf : ∀ a, GoesOn (f a)) : GoesOn (x >>= f) := by
  intro m flags data t h
  obtain ⟨a, u, -, ht⟩ := bind_ok.mp h
  exact hf a u flags data t ht

theorem GoesOn.ite {c : Prop} [Decidable c] {x y : Execution I SyscallResult} (hx : GoesOn x)
    (hy : GoesOn y) : GoesOn (if c then x else y) := by
  split
  · exact hx
  · exact hy

theorem goesOn_continues : GoesOn (pure .continues : Execution I SyscallResult) :=
  fun _ _ _ _ h => by cases (pure_ok.mp h).1

theorem goesOn_returnValue (value : U64) :
    GoesOn (pure (.returnValue value) : Execution I SyscallResult) :=
  fun _ _ _ _ h => by cases (pure_ok.mp h).1

theorem handleSyscallById_goesOn (hreturn : id ≠ .sealReturn) (hconsume : id ≠ .consumeAllGas) :
    GoesOn (handleSyscallById vm id calldata) := by
  refine .bind fun a0 => .bind fun a1 => .bind fun a2 => ?_
  cases id with
  | callDataSize | returnDataSize => exact goesOn_returnValue _
  | setImmutableData | unknown => exact goesOn_continues
  | callDataLoad | valueTransferred | getImmutableData | address | caller | balance | blockNumber =>
      exact .bind fun _ => goesOn_continues
  | callDataCopy =>
      refine .ite (.bind fun _ => goesOn_continues) (.bind fun _ => .ite ?_ goesOn_continues)
      exact .bind fun _ => .bind fun _ => goesOn_continues
  | getStorageOrZero => exact .bind fun _ => .bind fun _ => .bind fun _ => goesOn_continues
  | setStorageOrClear =>
      refine .bind fun _ => .bind fun _ => .bind fun _ => .ite ?_ ?_
      · exact .bind fun _ => goesOn_returnValue _
      · exact .bind fun _ => goesOn_returnValue _
  | hashKeccak256 => exact .bind fun _ => .bind fun _ => goesOn_continues
  | refTimeLeft => exact .bind fun _ => goesOn_returnValue _
  | sealReturn => exact absurd rfl hreturn
  | consumeAllGas => exact absurd rfl hconsume

end Terminating

section Faults

/-- Some memory access of the system call fails; `fails` tells which accesses
the virtual machine answers with an error. -/
def Faults (vm : Vm I) (fails : I → Access → Prop) (id : SyscallId) (calldata : Buffer)
    (m : Machine I) : Prop := ∃ a ∈ accesses vm id calldata m, fails a.1 a.2

def Reverts (vm : Vm I) (id : SyscallId) (m : Machine I) : Prop :=
  id = .sealReturn ∧ ((vm.reg m.inst .a0).setWidth 32 : U32) &&& 1 ≠ 0

/-- A system call whose memory access fails ends the call with an error only if
it would also have reverted without the fault. -/
theorem endsInError_iff_reverts {fails : I → Access → Prop} {handle : U32 → Execution I SyscallResult}
    {inst : I} {idx : U32} (hrun : vm.run m.inst = (.ok (.ecalli idx), inst))
    (hhandle : handle idx = handleSyscallById vm id calldata)
    (hfaults : Faults vm fails id calldata { m with inst := inst }) :
    EndsInError vm handle m ↔ Reverts vm id { m with inst := inst } := by
  rw [endsInError_iff hrun, hhandle]
  obtain ⟨a, ha, -⟩ := hfaults
  have hconsume : id ≠ .consumeAllGas := by
    rintro rfl
    cases ha
  by_cases hreturn : id = .sealReturn
  · subst id
    constructor
    · rintro ⟨flags, data, t, hr, hflags, -⟩
      cases hr
      exact ⟨rfl, hflags⟩
    · rintro ⟨-, hflags⟩
      exact ⟨_, _, _, rfl, hflags, rfl⟩
  · refine iff_of_false ?_ fun h => hreturn h.1
    rintro ⟨flags, data, t, hr, -⟩
    exact handleSyscallById_goesOn hreturn hconsume _ flags data t hr

/-- A system call with a failing memory access ends the call with an error, the
storage as it was, exactly when no access fails or it is a reverting return, in
the handler by identifier as in the handler by symbol. -/
theorem faults_end_call_iff (vm : Vm I) (fails : I → Access → Prop) (calldata : Buffer)
    (m : Machine I) {inst : I} {idx : U32} (hrun : vm.run m.inst = (.ok (.ecalli idx), inst)) :
    (∀ table : SyscallDispatchTable,
      (Faults vm fails (table.get idx) calldata { m with inst := inst } →
        EndsInError vm (fun idx => handleSyscallById vm (table.get idx) calldata) m) ↔
      (¬ Faults vm fails (table.get idx) calldata { m with inst := inst } ∨
        Reverts vm (table.get idx) { m with inst := inst })) ∧
    ∀ symbol : U32 → Buffer,
      (Faults vm fails (symbolToSyscallId (symbol idx)) calldata { m with inst := inst } →
        EndsInError vm (fun idx => handleSyscall vm (symbol idx) calldata) m) ↔
      (¬ Faults vm fails (symbolToSyscallId (symbol idx)) calldata { m with inst := inst } ∨
        Reverts vm (symbolToSyscallId (symbol idx)) { m with inst := inst }) := by
  constructor
  · intro table
    rw [← imp_iff_not_or]
    exact imp_congr_right fun hfaults => endsInError_iff_reverts hrun rfl hfaults
  · intro symbol
    rw [← imp_iff_not_or]
    exact imp_congr_right fun hfaults => endsInError_iff_reverts hrun (handleSyscall_eq _ _ _) hfaults

end Faults

section Samples

def faults (g : Guest) : Access → Prop
  | .read ptr len => g.memory.length < ptr.toNat + len
  | .write ptr data => g.memory.length < ptr.toNat + data.length
  | .zero ptr len => g.memory.length < ptr.toNat + len.toNat

def sampleMachine (script : List Beat) : Machine Guest where
  inst := Guest.start (zeros 32 ++ List.replicate 32 1 ++ zeros 32) script
  storage := fun _ => none

/-- The guest sets a key whose address is not mapped: its value is stored under
the zero key, and the call succeeds. -/
theorem faulting_store_continues :
    let script : List Beat := [{ a0 := 0, a1 := 4096, a2 := 32, interrupt := .ecalli 0 }]
    let m := sampleMachine script
    Faults scriptedVm faults (sampleTable.get 0) [] { m with inst := (scriptedVm.run m.inst).2 } ∧
      ¬ EndsInError scriptedVm (fun idx => handleSyscallById scriptedVm (sampleTable.get idx) []) m ∧
      ∃ T, callWithDispatchTable scriptedVm (sampleModule script) [] sampleTable 2 (fun _ => none) =
          .ok (some (.ok (0, []))) T ∧
        T (.replicate 32 0) = some (.replicate 32 1) := by
  intro script m
  have hfaults : Faults scriptedVm faults (sampleTable.get 0) []
      { m with inst := (scriptedVm.run m.inst).2 } :=
    ⟨(_, .read 4096 32), .head _, show (96 : Nat) < 4096 + 32 by decide⟩
  have hrun : scriptedVm.run m.inst = (.ok (.ecalli 0), (scriptedVm.run m.inst).2) := rfl
  refine ⟨hfaults, fun hends => ?_, _, ok_of_value (by decide +kernel), by decide +kernel⟩
  have hreverts := (endsInError_iff_reverts hrun rfl hfaults).mp hends
  exact absurd hreverts.1 (by decide)

theorem faults_end_call_sample :
    let m := sampleMachine [{ a0 := 1, a1 := 4096, a2 := 8, interrupt := .ecalli 1 }]
    EndsInError scriptedVm (fun idx => handleSyscallById scriptedVm (sampleTable.get idx) []) m ∧
      EndsInError scriptedVm (fun _ => handleSyscall scriptedVm (symbolBytes "seal_return") []) m := by
  intro m
  have hfaults : Faults scriptedVm faults .sealReturn []
      { m with inst := (scriptedVm.run m.inst).2 } :=
    ⟨(_, .read 4096 8), .head _, show (96 : Nat) < 4096 + 8 by decide⟩
  have hreverts : Reverts scriptedVm .sealReturn { m with inst := (scriptedVm.run m.inst).2 } :=
    ⟨rfl, by decide⟩
  have hrun : scriptedVm.run m.inst = (.ok (.ecalli 1), (scriptedVm.run m.inst).2) := rfl
  obtain ⟨htable, hsymbol⟩ := faults_end_call_iff scriptedVm faults [] m hrun
  exact ⟨(htable sampleTable).mpr (.inr hreverts) hfaults,
    (hsymbol fun _ => symbolBytes "seal_return").mpr (.inr hreverts) hfaults⟩

end Samples

end RiscVContracts.MemoryFaults
