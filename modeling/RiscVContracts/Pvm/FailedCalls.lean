import RiscVContracts.Lib.Writes
import RiscVContracts.Pvm.Executor

namespace RiscVContracts.FailedCalls

open Programs Bytes Loops Writes Runner Handlers Executor

variable {I : Type} {vm : Vm I} {m t : Machine I} {calldata : Buffer}

section Storage

def Stores (S : Storage) (m : Machine I) : Prop := m.storage = S

variable {S : Storage} {α : Type}

theorem keeps_reg (r : Reg) : Keeps (Stores S) (Stores S) (reg vm r) := fun _ h => h

theorem keeps_gas : Keeps (Stores S) (Stores S) (gas vm) := fun _ h => h

theorem keeps_readMemoryInto (ptr : U32) {n : Nat} (buf : Vector UInt8 n) :
    Keeps (Stores S) (Stores S) (readMemoryInto vm ptr buf) := fun _ h => h

theorem keeps_writeMemory (ptr : U32) (data : Buffer) :
    Keeps (Stores S) (Stores S) (writeMemory vm ptr data) := fun _ h => h

theorem keeps_zeroMemory (ptr len : U32) : Keeps (Stores S) (Stores S) (zeroMemory vm ptr len) :=
  fun _ h => h

theorem keeps_storageGet (key : Vector UInt8 32) :
    Keeps (Stores S) (Stores S) (storageGet key : Execution I _) := fun _ h => h

theorem keeps_addU32 (a b : U32) : Keeps (Stores S) (Stores S) (addU32 vm a b) :=
  .ite (.throw fun _ h => h) (.pure _)

theorem keeps_subI64 (a b : U64) : Keeps (Stores S) (Stores S) (subI64 vm a b) :=
  .ite (.throw fun _ h => h) (.pure _)

theorem keeps_withArguments {k : U64 → U64 → U64 → Execution I α}
    (hk : ∀ a0 a1 a2, Keeps (Stores S) (Stores S) (k a0 a1 a2)) :
    Keeps (Stores S) (Stores S) (withArguments vm k) :=
  .bind (keeps_reg _) fun _ => .bind (keeps_reg _) fun _ => .bind (keeps_reg _) fun _ => hk _ _ _

/-- Every system call but one leaves the storage alone. -/
theorem handleSyscallById_keeps {id : SyscallId} (hid : id ≠ .setStorageOrClear) :
    Keeps (Stores S) (Stores S) (handleSyscallById vm id calldata) := by
  refine keeps_withArguments fun a0 a1 a2 => ?_
  cases id with
  | callDataSize | consumeAllGas | setImmutableData | returnDataSize | unknown => exact .pure _
  | callDataLoad | valueTransferred | getImmutableData | address | caller | balance | blockNumber =>
      exact .bind (keeps_writeMemory _ _) fun _ => .pure _
  | callDataCopy =>
      refine .ite (.bind (keeps_zeroMemory _ _) fun _ => .pure _) ?_
      refine .bind (keeps_writeMemory _ _) fun _ => .ite ?_ (.pure _)
      exact .bind (keeps_addU32 _ _) fun _ => .bind (keeps_zeroMemory _ _) fun _ => .pure _
  | sealReturn => exact .bind (keeps_readMemoryInto _ _) fun _ => .pure _
  | getStorageOrZero =>
      refine .bind (keeps_readMemoryInto _ _) fun _ => .bind (keeps_storageGet _) fun _ => ?_
      exact .bind (keeps_writeMemory _ _) fun _ => .pure _
  | hashKeccak256 =>
      exact .bind (keeps_readMemoryInto _ _) fun _ => .bind (keeps_writeMemory _ _) fun _ => .pure _
  | refTimeLeft => exact .bind keeps_gas fun _ => .pure _
  | setStorageOrClear => exact absurd rfl hid

end Storage

section Requests

section Accesses

theorem reg_ok {r : Reg} {v : U64} : reg vm r m = .ok v t ↔ vm.reg m.inst r = v ∧ m = t := pure_ok

theorem readMemoryInto_ok {ptr : U32} {n : Nat} {buf v : Vector UInt8 n} :
    readMemoryInto vm ptr buf m = .ok v t ↔ vm.readMemoryInto m.inst ptr buf = v ∧ m = t := pure_ok

theorem writeMemory_ok {ptr : U32} {data : Buffer} {u : Unit} : writeMemory vm ptr data m = .ok u t ↔
    { m with inst := vm.writeMemory m.inst ptr data } = t := by
  change EStateM.Result.ok () _ = _ ↔ _
  simp

theorem addU32_ok {a b c : U32} : addU32 vm a b m = .ok c t ↔
    ¬ (vm.overflowChecks ∧ BitVec.uaddOverflow a b) ∧ a + b = c ∧ m = t := by
  unfold addU32
  split
  · rename_i h
    exact iff_of_false throw_ok fun h' => h'.1 h
  · rename_i h
    exact pure_ok.trans (and_iff_right h).symm

theorem storageGet_ok {key : Vector UInt8 32} {v : Option (Vector UInt8 32)} :
    storageGet key m = .ok v t ↔ m.storage key = v ∧ m = t := pure_ok

theorem storageRemove_ok {key : Vector UInt8 32} {u : Unit} : storageRemove key m = .ok u t ↔
    { m with storage := Function.update m.storage key none } = t := by
  change EStateM.Result.ok () _ = _ ↔ _
  simp

theorem storageInsert_ok {key value : Vector UInt8 32} {u : Unit} : storageInsert key value m = .ok u t ↔
    { m with storage := Function.update m.storage key (some value) } = t := by
  change EStateM.Result.ok () _ = _ ↔ _
  simp

theorem setReg_ok {r : Reg} {v : U64} {u : Unit} : setReg vm r v m = .ok u t ↔
    { m with inst := vm.setReg m.inst r v } = t := by
  change EStateM.Result.ok () _ = _ ↔ _
  simp

theorem resume_ok {i : Except String InterruptKind} : resume vm m = .ok i t ↔
    (vm.run m.inst).1 = i ∧ { m with inst := (vm.run m.inst).2 } = t := by
  change EStateM.Result.ok _ _ = _ ↔ _
  simp

end Accesses

def storeRequest (vm : Vm I) (inst : I) : Vector UInt8 32 × Option (Vector UInt8 32) :=
  let key := vm.readMemoryInto inst ((vm.reg inst .a1).setWidth 32) (Vector.replicate 32 0)
  let value := vm.readMemoryInto inst ((vm.reg inst .a2).setWidth 32) (Vector.replicate 32 0)
  (key, if value.all (· == 0) then none else some value)

theorem setStorageOrClear_writes {r : SyscallResult}
    (h : handleSyscallById vm .setStorageOrClear calldata m = .ok r t) :
    t.storage = write m.storage (storeRequest vm m.inst) := by
  simp only [handleSyscallById, bind_ok, reg_ok, readMemoryInto_ok, storageGet_ok, exists_and_left,
    exists_eq_left', and_assoc] at h
  split at h
  · rename_i hzero
    simp only [bind_ok, storageRemove_ok, pure_ok, exists_eq_left', exists_const] at h
    rw [← h.2, write, storeRequest, if_pos hzero]
  · rename_i hzero
    simp only [bind_ok, storageInsert_ok, pure_ok, exists_eq_left', exists_const] at h
    rw [← h.2, write, storeRequest, if_neg hzero]

def storeRequests (vm : Vm I) (id : SyscallId) (inst : I) :
    List (Vector UInt8 32 × Option (Vector UInt8 32)) :=
  if id = .setStorageOrClear then [storeRequest vm inst] else []

theorem handleSyscallById_writes {id : SyscallId} {r : SyscallResult}
    (h : handleSyscallById vm id calldata m = .ok r t) :
    t.storage = (storeRequests vm id m.inst).foldl write m.storage := by
  rw [storeRequests]
  split
  · subst id
    exact setStorageOrClear_writes h
  · rename_i hid
    exact (handleSyscallById_keeps (S := m.storage) hid).of_ok rfl h

def requests (vm : Vm I) (table : SyscallDispatchTable) (m : Machine I) :
    List (Vector UInt8 32 × Option (Vector UInt8 32)) :=
  match vm.run m.inst with
  | (.ok (.ecalli idx), inst) => storeRequests vm (table.get idx) inst
  | _ => []

theorem round_writes {table : SyscallDispatchTable} {o : Option (Except CallError ExecOutcome)}
    (h : round vm (fun idx => handleSyscallById vm (table.get idx) calldata) m = .ok o t) :
    t.storage = (requests vm table m).foldl write m.storage := by
  obtain ⟨interrupt, u, hu, h⟩ := bind_ok.mp h
  obtain ⟨hi, rfl⟩ := resume_ok.mp hu
  have hrun : vm.run m.inst = (interrupt, (vm.run m.inst).2) := Prod.ext hi rfl
  rw [requests, hrun]
  cases interrupt with
  | error e =>
      obtain ⟨-, rfl⟩ := pure_ok.mp h
      rfl
  | ok kind =>
    cases kind with
    | finished | trap | notEnoughGas | segfault | step =>
        obtain ⟨-, rfl⟩ := pure_ok.mp h
        rfl
    | ecalli idx =>
        obtain ⟨r, u, hr, h⟩ := bind_ok.mp h
        have ht : t.storage = u.storage := by
          cases r with
          | continues | terminate flags data =>
              obtain ⟨-, rfl⟩ := pure_ok.mp h
              rfl
          | returnValue value =>
              obtain ⟨_, v, hv, h⟩ := bind_ok.mp h
              obtain ⟨-, rfl⟩ := pure_ok.mp h
              rw [← setReg_ok.mp hv]
        rw [ht]
        exact handleSyscallById_writes hr

end Requests

section Calls

variable {table : SyscallDispatchTable} {fuel : Nat} {S T : Storage}

theorem conclude_storage {outcome : Except CallError ExecOutcome} {r : Except CallError Reply}
    (h : conclude vm outcome m = .ok r t) : t.storage = m.storage := by
  have hkeeps : Keeps (Stores m.storage) (Stores m.storage) (conclude vm outcome) := by
    cases outcome with
    | error e => exact .pure _
    | ok outcome =>
        refine .bind keeps_gas fun _ => .bind (keeps_subI64 _ _) fun _ => ?_
        cases outcome with
        | returned flags data => exact .ite (.pure _) (.pure _)
        | trap | outOfGas | finished => exact .pure _
  exact hkeeps.of_ok rfl h

/-- What the guest asks to be stored during a call, in order. -/
def requested (vm : Vm I) (m : Module I) (calldata : Buffer) (table : SyscallDispatchTable) (fuel : Nat)
    (storage : Storage) : List (Vector UInt8 32 × Option (Vector UInt8 32)) :=
  match prepare vm m storage with
  | .error _ => []
  | .ok start => emitted (round vm fun idx => handleSyscallById vm (table.get idx) calldata)
      (requests vm table) fuel start

theorem prepare_storage {m : Module I} {start : Machine I} (h : prepare vm m S = .ok start) :
    start.storage = S := by
  unfold prepare at h
  split at h
  · cases h
  · split at h
    · cases h
    · cases h
      rfl

theorem loop_of_call {handle : U32 → Execution I SyscallResult} {m : Module I}
    {r : Option (Except CallError Reply)} (h : callWith vm handle m fuel S = .ok r T) :
    (∃ e, prepare vm m S = .error e ∧ T = S) ∨ ∃ start o t, prepare vm m S = .ok start ∧
      loop (round vm handle) fuel start = .ok o t ∧ t.storage = T := by
  obtain ⟨e, hp, -, rfl⟩ | ⟨start, hp, ⟨t, hl, -, rfl⟩ | ⟨outcome, t, reply, u, hl, hc, -, rfl⟩⟩ :=
    callWith_ok.mp h
  · exact .inl ⟨e, hp, rfl⟩
  · exact .inr ⟨start, none, t, hp, hl, rfl⟩
  · exact .inr ⟨start, some outcome, t, hp, hl, (conclude_storage hc).symm⟩

theorem storage_of_call {ω : Type} {handle : U32 → Execution I SyscallResult} {m : Module I}
    {r : Option (Except CallError Reply)} {emit : Machine I → List ω} (apply : Storage → ω → Storage)
    (hround : ∀ s o t, round vm handle s = .ok o t → t.storage = (emit s).foldl apply s.storage)
    (h : callWith vm handle m fuel S = .ok r T) :
    T = (match prepare vm m S with
      | .error _ => []
      | .ok start => emitted (round vm handle) emit fuel start).foldl apply S := by
  obtain ⟨e, hp, rfl⟩ | ⟨start, o, t, hp, hl, rfl⟩ := loop_of_call h
  · rw [hp]
    rfl
  · rw [hp, ← prepare_storage hp]
    exact view_loop Machine.storage apply hround hl

/-- A call, however it ends, has stored all that the guest asked for. -/
theorem call_writes {m : Module I} {r : Option (Except CallError Reply)}
    (h : callWithDispatchTable vm m calldata table fuel S = .ok r T) :
    T = (requested vm m calldata table fuel S).foldl write S :=
  storage_of_call write (fun _ _ _ => round_writes) h

/-- A call that returns an error leaves the storage as it was exactly when, for
every key the guest sets in it, the value it sets last is the one stored before. -/
theorem failed_call_intact_iff (vm : Vm I) (m : Module I) (calldata : Buffer)
    (table : SyscallDispatchTable) (fuel : Nat) (S : Storage) {e : CallError}
    (h : callWithDispatchTable vm m calldata table fuel S = .ok (some (.error e)) T) :
    T = S ↔ ∀ key stored, lastWrite (requested vm m calldata table fuel S) key = some stored →
      stored = S key := by
  rw [call_writes h]
  exact foldl_write_eq_iff S _

end Calls

section Samples

def sampleTable : SyscallDispatchTable := ⟨[.setStorageOrClear, .sealReturn]⟩

def sampleModule (script : List Beat) : Module Guest where
  imports := ⟨["set_storage_or_clear", "seal_return"].map symbolBytes, by decide⟩
  exports := [(symbolBytes "call", 0)]
  instantiate := .ok (Guest.start (zeros 32 ++ List.replicate 32 1 ++ zeros 32) script)

/-- The guest sets a key and returns with the revert flag: the value stays. -/
theorem reverted_call_stores :
    let script : List Beat := [{ a0 := 0, a1 := 0, a2 := 32, interrupt := .ecalli 0 },
      { a0 := 1, a1 := 0, a2 := 0, interrupt := .ecalli 1 }]
    ∃ T, callWithDispatchTable scriptedVm (sampleModule script) [] sampleTable 2 (fun _ => none) =
        .ok (some (.error (.reverted 1 0))) T ∧
      T (.replicate 32 0) = some (.replicate 32 1) := by
  intro script
  exact ⟨_, ok_of_value (by decide +kernel), by decide +kernel⟩

theorem failed_call_intact_sample :
    let script : List Beat := [{ a0 := 0, a1 := 0, a2 := 32, interrupt := .ecalli 0 },
      { a0 := 0, a1 := 0, a2 := 64, interrupt := .ecalli 0 },
      { a0 := 0, a1 := 0, a2 := 0, interrupt := .trap }]
    ∃ T, callWithDispatchTable scriptedVm (sampleModule script) [] sampleTable 3 (fun _ => none) =
        .ok (some (.error .trapped)) T ∧ T = fun _ => none := by
  intro script
  have hcall : callWithDispatchTable scriptedVm (sampleModule script) [] sampleTable 3 (fun _ => none) =
      .ok (some (.error .trapped)) _ := ok_of_value (by decide +kernel)
  have hrequested : requested scriptedVm (sampleModule script) [] sampleTable 3 (fun _ => none) =
      [(.replicate 32 0, some (.replicate 32 1)), (.replicate 32 0, none)] := by decide +kernel
  refine ⟨_, hcall, (failed_call_intact_iff _ _ _ _ _ _ hcall).mpr fun key stored hlast => ?_⟩
  rw [hrequested, lastWrite] at hlast
  by_cases hkey : Vector.replicate 32 0 = key
  · simpa [hkey] using hlast.symm
  · simp [hkey] at hlast

end Samples

end RiscVContracts.FailedCalls
