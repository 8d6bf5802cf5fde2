import RiscVContracts.Pvm.FailedCalls

namespace RiscVContracts.HostStorage

open Programs Bytes Loops Writes Runner Handlers Executor FailedCalls

variable {I : Type} {vm : Vm I} {m t : Machine I} {calldata : Buffer} {S T : Storage}

def zeroWord : Vector UInt8 32 := .replicate 32 0

def newStorage : Storage := fun _ => none

def resetStorage (_ : Storage) : Storage := fun _ => none

section Sets

abbrev Sets := List (Vector UInt8 32 × Vector UInt8 32)

def lastSet (log : Sets) (key : Vector UInt8 32) : Vector UInt8 32 := (lastWrite log key).getD zeroWord

def keyOf (vm : Vm I) (inst : I) : Vector UInt8 32 :=
  vm.readMemoryInto inst ((vm.reg inst .a1).setWidth 32) zeroWord

def valueOf (vm : Vm I) (inst : I) : Vector UInt8 32 :=
  vm.readMemoryInto inst ((vm.reg inst .a2).setWidth 32) zeroWord

def sets (vm : Vm I) (id : SyscallId) (inst : I) : Sets :=
  if id = .setStorageOrClear then [(keyOf vm inst, valueOf vm inst)] else []

def setsOfRound (vm : Vm I) (table : SyscallDispatchTable) (m : Machine I) : Sets :=
  match vm.run m.inst with
  | (.ok (.ecalli idx), inst) => sets vm (table.get idx) inst
  | _ => []

/-- What the guest sets in the rounds of a call, in order. -/
def setsOfCall (vm : Vm I) (m : Module I) (calldata : Buffer) (table : SyscallDispatchTable) (fuel : Nat)
    (storage : Storage) : Sets :=
  match prepare vm m storage with
  | .error _ => []
  | .ok start => emitted (round vm fun idx => handleSyscallById vm (table.get idx) calldata)
      (setsOfRound vm table) fuel start

theorem all_zero_iff {value : Vector UInt8 32} : value.all (· == 0) ↔ value = zeroWord := by
  rw [Vector.all_eq_true]
  constructor
  · intro h
    refine Vector.ext fun i hi => ?_
    rw [zeroWord, Vector.getElem_replicate]
    exact eq_of_beq (h i hi)
  · rintro rfl i hi
    simp [zeroWord]

theorem storeRequests_eq (id : SyscallId) (inst : I) : storeRequests vm id inst =
    (sets vm id inst).map fun w => (w.1, present zeroWord w.2) := by
  by_cases h : id = .setStorageOrClear
  · simp only [storeRequests, sets, if_pos h, List.map_cons, List.map_nil, storeRequest, present,
      all_zero_iff]
    rfl
  · simp only [storeRequests, sets, if_neg h, List.map_nil]

theorem handleSyscallById_sets {id : SyscallId} {r : SyscallResult}
    (h : handleSyscallById vm id calldata m = .ok r t) :
    t.storage = (sets vm id m.inst).foldl (writePresent zeroWord) m.storage := by
  rw [handleSyscallById_writes h, storeRequests_eq, List.foldl_map]
  rfl

theorem requests_eq (table : SyscallDispatchTable) (m : Machine I) : requests vm table m =
    (setsOfRound vm table m).map fun w => (w.1, present zeroWord w.2) := by
  rcases hrun : vm.run m.inst with ⟨interrupt, inst⟩
  rw [requests, setsOfRound, hrun]
  cases interrupt with
  | error e => rfl
  | ok kind =>
    cases kind with
    | finished | trap | notEnoughGas | segfault | step => rfl
    | ecalli idx => exact storeRequests_eq _ _

theorem call_sets {m : Module I} {table : SyscallDispatchTable} {fuel : Nat}
    {r : Option (Except CallError Reply)} (h : callWithDispatchTable vm m calldata table fuel S = .ok r T) :
    T = (setsOfCall vm m calldata table fuel S).foldl (writePresent zeroWord) S := by
  refine storage_of_call (writePresent zeroWord) (fun s _ _ hround => ?_) h
  rw [round_writes hround, requests_eq, List.foldl_map]
  rfl

end Sets

section Histories

/-- The storages an executor comes to, with what was set since the last reset.
The system call may be one of a guest in the midst of its run, and the call may
have run for `fuel` rounds without having ended. -/
inductive History (vm : Vm I) : Storage → Sets → Prop
  | new : History vm newStorage []
  | reset {S : Storage} {log : Sets} : History vm S log → History vm (resetStorage S) []
  | syscall {inst : I} {S : Storage} {log : Sets} {id : SyscallId} {calldata : Buffer}
      {r : SyscallResult} {t : Machine I} : History vm S log →
      handleSyscallById vm id calldata ⟨inst, S⟩ = .ok r t →
      History vm t.storage (log ++ sets vm id inst)
  | call {S T : Storage} {log : Sets} {m : Module I} {calldata : Buffer}
      {table : SyscallDispatchTable} {fuel : Nat} {r : Option (Except CallError Reply)} :
      History vm S log → callWithDispatchTable vm m calldata table fuel S = .ok r T →
      History vm T (log ++ setsOfCall vm m calldata table fuel S)

theorem History.midway {log : Sets} {module : Module I} {table : SyscallDispatchTable}
    {start : Machine I} {n : Nat} (h : History vm S log) (hprepare : prepare vm module S = .ok start)
    (hloop : loop (round vm fun idx => handleSyscallById vm (table.get idx) calldata) n start =
      .ok none m) :
    History vm m.storage (log ++ setsOfCall vm module calldata table n S) :=
  h.call (callWith_ok.mpr (.inr ⟨start, hprepare, .inl ⟨m, hloop, rfl, rfl⟩⟩))

theorem sparse_lastSet_append (log ws : Sets) : sparse zeroWord (lastSet (log ++ ws)) =
    ws.foldl (writePresent zeroWord) (sparse zeroWord (lastSet log)) := by
  have hlast (log : Sets) : lastSet log = log.foldl write fun _ => zeroWord :=
    funext fun key => (foldl_write_apply (fun _ => zeroWord) log key).symm
  rw [hlast, hlast, List.foldl_append, sparse_foldl_write]

/-- The storage is the map of the values last set, those that are zero left out. -/
theorem History.storage_eq {log : Sets} (h : History vm S log) : S = sparse zeroWord (lastSet log) := by
  induction h with
  | new | reset => rfl
  | syscall _ hr ih => rw [handleSyscallById_sets hr, sparse_lastSet_append, ← ih]
  | call _ hr ih => rw [call_sets hr, sparse_lastSet_append, ← ih]

end Histories

section Reads

theorem getStorageOrZero_eq (inst : I) : handleSyscallById vm .getStorageOrZero calldata ⟨inst, S⟩ =
    .ok .continues ⟨vm.writeMemory inst ((vm.reg inst .a2).setWidth 32)
      ((S (keyOf vm inst)).getD zeroWord).toList, S⟩ := rfl

theorem setStorageOrClear_eq (inst : I) : handleSyscallById vm .setStorageOrClear calldata ⟨inst, S⟩ =
    .ok (.returnValue (if (S (keyOf vm inst)).isSome then 32 else 0xFFFFFFFF))
      ⟨inst, writePresent zeroWord S (keyOf vm inst, valueOf vm inst)⟩ := by
  have hset : handleSyscallById vm .setStorageOrClear calldata ⟨inst, S⟩ =
      (if (valueOf vm inst).all (· == 0) then do
        storageRemove (keyOf vm inst)
        return .returnValue
          ((if (S (keyOf vm inst)).isSome then 32 else BitVec.allOnes 32 : U32).setWidth 64)
      else do
        storageInsert (keyOf vm inst) (valueOf vm inst)
        return .returnValue
          ((if (S (keyOf vm inst)).isSome then 32 else BitVec.allOnes 32 : U32).setWidth 64) :
        Execution I SyscallResult) ⟨inst, S⟩ := rfl
  have hlen : ((if (S (keyOf vm inst)).isSome then 32 else BitVec.allOnes 32 : U32).setWidth 64 : U64) =
      if (S (keyOf vm inst)).isSome then 32 else 0xFFFFFFFF := by
    split <;> rfl
  rw [hset, hlen, writePresent, present]
  simp only [all_zero_iff]
  split <;> rfl

/-- Over any history no key is stored with zero, a read gives the value last
set or zero, and a write answers whether that value is zero and changes no
other key. -/
theorem storage_defaults_to_zero {log : Sets} (h : History vm S log) :
    (∀ key, S key ≠ some zeroWord) ∧
    (∀ inst calldata, handleSyscallById vm .getStorageOrZero calldata ⟨inst, S⟩ =
      .ok .continues ⟨vm.writeMemory inst ((vm.reg inst .a2).setWidth 32)
        (lastSet log (keyOf vm inst)).toList, S⟩) ∧
    ∀ inst calldata, ∃ T, handleSyscallById vm .setStorageOrClear calldata ⟨inst, S⟩ =
        .ok (.returnValue (if lastSet log (keyOf vm inst) ≠ zeroWord then 32 else 0xFFFFFFFF)) ⟨inst, T⟩ ∧
      ∀ key, key ≠ keyOf vm inst → T key = S key := by
  have hstorage (key : Vector UInt8 32) : S key = present zeroWord (lastSet log key) := by
    rw [h.storage_eq]
    rfl
  refine ⟨fun key => ?_, fun inst calldata => ?_, fun inst calldata => ?_⟩
  · rw [hstorage]
    exact present_ne _
  · rw [getStorageOrZero_eq, hstorage, present_getD]
  · refine ⟨writePresent zeroWord S (keyOf vm inst, valueOf vm inst), ?_, fun key hkey => ?_⟩
    · rw [setStorageOrClear_eq, hstorage]
      simp only [present_isSome]
    · exact Function.update_of_ne hkey _ _

end Reads

theorem storage_defaults_to_zero_sample :
    let script : List Beat := [{ a0 := 0, a1 := 0, a2 := 32, interrupt := .ecalli 0 }]
    let inst : Guest :=
      { Guest.start (zeros 32 ++ List.replicate 32 1 ++ zeros 32) [] with a1 := 0, a2 := 64 }
    ∃ T U, callWithDispatchTable scriptedVm (sampleModule script) [] sampleTable 2
        (resetStorage newStorage) = .ok (some (.ok (0, []))) T ∧
      handleSyscallById scriptedVm .setStorageOrClear [] ⟨inst, T⟩ = .ok (.returnValue 32) ⟨inst, U⟩ := by
  intro script inst
  have hcall : callWithDispatchTable scriptedVm (sampleModule script) [] sampleTable 2
      (resetStorage newStorage) = .ok (some (.ok (0, []))) _ := ok_of_value (by decide +kernel)
  have hhistory := History.call (History.reset History.new) hcall
  obtain ⟨-, -, hset⟩ := storage_defaults_to_zero hhistory
  obtain ⟨U, hU, -⟩ := hset inst []
  have hlast : lastSet ([] ++ setsOfCall scriptedVm (sampleModule script) [] sampleTable 2
      (resetStorage newStorage)) (keyOf scriptedVm inst) ≠ zeroWord := by decide +kernel
  rw [if_pos hlast] at hU
  exact ⟨_, U, hcall, hU⟩

end RiscVContracts.HostStorage
