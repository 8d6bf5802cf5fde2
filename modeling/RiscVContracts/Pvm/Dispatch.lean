import RiscVContracts.Pvm.Executor

namespace RiscVContracts.Dispatch

open Programs Bytes Loops Runner Handlers Executor

section Handlers

variable {I : Type} (vm : Vm I)

def syscallSymbols : List Buffer :=
  ["call_data_size", "call_data_load", "call_data_copy", "seal_return", "consume_all_gas",
    "value_transferred", "set_immutable_data", "get_immutable_data", "get_storage_or_zero",
    "set_storage_or_clear", "hash_keccak_256", "address", "caller", "balance", "block_number",
    "return_data_size", "ref_time_left"].map symbolBytes

theorem symbolToSyscallId_unknown {symbol : Buffer} (h : symbol ∉ syscallSymbols) :
    symbolToSyscallId symbol = .unknown := by
  simp only [syscallSymbols, List.map_cons, List.map_nil, List.mem_cons, List.not_mem_nil, or_false,
    not_or] at h
  simp only [symbolToSyscallId, h, if_false]

theorem withArguments_ite {c : Prop} [Decidable c] {x y : U64 → U64 → U64 → Execution I SyscallResult}
    {id id' : SyscallId} {calldata : Buffer}
    (hx : withArguments vm x = handleSyscallById vm id calldata)
    (hy : withArguments vm y = handleSyscallById vm id' calldata) :
    withArguments vm (fun a0 a1 a2 => if c then x a0 a1 a2 else y a0 a1 a2) =
      handleSyscallById vm (if c then id else id') calldata := by
  split
  · exact hx
  · exact hy

/-- The two handlers agree on every symbol: their arms are the same, in the
order of the symbol map. -/
theorem handleSyscall_eq (symbol calldata : Buffer) :
    handleSyscall vm symbol calldata = handleSyscallById vm (symbolToSyscallId symbol) calldata := by
  unfold handleSyscall symbolToSyscallId
  -- one round for each test; the arm that is left is that of an unknown symbol
  repeat refine withArguments_ite vm rfl ?_
  rfl

end Handlers

section Table

variable (imports : Imports)

theorem pushImports_eq (table : List SyscallId) (idx : U32) : pushImports imports table idx =
    table ++ (imports.symbols.drop idx.toNat).map symbolToSyscallId := by
  induction table, idx using pushImports.induct imports with
  | case1 table idx symbol h ih =>
      obtain ⟨hlt, hsymbol⟩ := List.getElem?_eq_some_iff.mp h
      rw [pushImports, h]
      dsimp only
      rw [ih, Imports.toNat_succ hlt, List.drop_eq_getElem_cons hlt, hsymbol, List.map_cons,
        List.append_assoc, List.singleton_append]
  | case2 table idx h =>
      rw [pushImports, h]
      dsimp only
      rw [List.drop_eq_nil_of_le (List.getElem?_eq_none_iff.mp h), List.map_nil, List.append_nil]

theorem get_fromModule (idx : U32) :
    (fromModule imports).get idx = ((imports.get idx).map symbolToSyscallId).getD .unknown := by
  rw [fromModule, pushImports_eq, SyscallDispatchTable.get, Imports.get]
  simp

end Table

section Runs

variable {I : Type}

/-- The symbol imported at an index; an index out of range counts as `unknown`. -/
def symbolAt (imports : Imports) (unknown : Buffer) (idx : U32) : Buffer :=
  (imports.get idx).getD unknown

def callWithSymbols (vm : Vm I) (m : Module I) (calldata unknown : Buffer) (fuel : Nat) :
    EStateM Panic Storage (Option (Except CallError Reply)) :=
  callWith vm (fun idx => handleSyscall vm (symbolAt m.imports unknown idx) calldata) m fuel

/-- Dispatch by the table of a module does what dispatch by its symbols does,
in one system call from any machine and in any run of a guest. -/
theorem dispatch_agrees (vm : Vm I) (m : Module I) (calldata : Buffer) {unknown : Buffer}
    (h : unknown ∉ syscallSymbols) :
    (∀ idx machine, handleSyscallById vm ((fromModule m.imports).get idx) calldata machine =
      handleSyscall vm (symbolAt m.imports unknown idx) calldata machine) ∧
    ∀ fuel storage, callWithData vm m calldata fuel storage =
      callWithSymbols vm m calldata unknown fuel storage := by
  have hhandle (idx : U32) : handleSyscallById vm ((fromModule m.imports).get idx) calldata =
      handleSyscall vm (symbolAt m.imports unknown idx) calldata := by
    rw [handleSyscall_eq, symbolAt, get_fromModule]
    cases m.imports.get idx with
    | none => rw [Option.map_none, Option.getD_none, Option.getD_none, symbolToSyscallId_unknown h]
    | some symbol => rfl
  refine ⟨fun idx machine => by rw [hhandle], fun fuel storage => ?_⟩
  rw [callWithData, callWithDispatchTable, callWithSymbols]
  simp only [hhandle]

end Runs

theorem dispatch_agrees_sample :
    let imports : Imports := ⟨["set_storage_or_clear", "seal_return"].map symbolBytes, by decide⟩
    let guest := Guest.start (zeros 32 ++ List.replicate 32 1)
      [{ a0 := 0, a1 := 0, a2 := 32, interrupt := .ecalli 0 },
        { a0 := 1, a1 := 0, a2 := 0, interrupt := .ecalli 1 }]
    let m : Module Guest :=
      { imports := imports, exports := [(symbolBytes "call", 0)], instantiate := .ok guest }
    let machine : Machine Guest := { inst := guest, storage := fun _ => none }
    handleSyscallById scriptedVm ((fromModule imports).get 7) [] machine =
        handleSyscall scriptedVm (symbolAt imports (symbolBytes "log") 7) [] machine ∧
      callWithData scriptedVm m [] 5 (fun _ => none) =
        callWithSymbols scriptedVm m [] (symbolBytes "log") 5 (fun _ => none) := by
  intro imports guest m machine
  have h : symbolBytes "log" ∉ syscallSymbols := by decide
  exact ⟨(dispatch_agrees scriptedVm m [] h).1 7 machine, (dispatch_agrees scriptedVm m [] h).2 5 _⟩

end RiscVContracts.Dispatch
