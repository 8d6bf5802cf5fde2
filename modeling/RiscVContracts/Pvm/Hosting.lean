import RiscVContracts.Lib.Dialogues
import RiscVContracts.Pvm.CalldataCopy
import RiscVContracts.Pvm.HostStorage

namespace RiscVContracts.Hosting

open Programs Bytes Loops Memory Writes Dialogues Runner Handlers Executor FailedCalls CalldataCopy
  HostStorage

abbrev Word := Vector UInt8 32

section Host

inductive Query
  | callDataSize
  | callDataLoad (offset : U32)
  | callDataCopy (len offset : U32)
  | valueTransferred
  | setImmutableData
  | getImmutableData
  | getStorageOrZero (key : Word)
  | setStorageOrClear (key value : Word)
  | hashKeccak256 (input : Buffer)
  | address
  | caller
  | balance
  | blockNumber
  | returnDataSize
  | unknown

/-- Nothing, a number in a register or bytes in memory. -/
inductive Answer
  | none
  | value (v : U64)
  | bytes (data : Buffer)

def Answer.number : Answer → U64
  | .value v => v
  | _ => 0

def Answer.data : Answer → Buffer
  | .bytes data => data
  | _ => []

def Answer.word (a : Answer) : Word := .ofFn fun i => a.data.getD i 0

/-- A contract, without the machine that runs it. -/
abbrev Contract := Dialogue Query Answer ExecOutcome

def Query.id : Query → SyscallId
  | callDataSize => .callDataSize
  | callDataLoad _ => .callDataLoad
  | callDataCopy _ _ => .callDataCopy
  | valueTransferred => .valueTransferred
  | setImmutableData => .setImmutableData
  | getImmutableData => .getImmutableData
  | getStorageOrZero _ => .getStorageOrZero
  | setStorageOrClear _ _ => .setStorageOrClear
  | hashKeccak256 _ => .hashKeccak256
  | address => .address
  | caller => .caller
  | balance => .balance
  | blockNumber => .blockNumber
  | returnDataSize => .returnDataSize
  | unknown => .unknown

/-- What a host is for: it answers from the calldata, a map of words and a hash. -/
def answer (keccak : Buffer → Word) (calldata : Buffer) : Query → (Word → Word) → Answer × (Word → Word)
  | .callDataSize, f => (.value (BitVec.ofNat 64 calldata.length), f)
  | .callDataLoad offset, f => (.bytes (window 0 calldata offset.toNat 32).reverse, f)
  | .callDataCopy len offset, f => (.bytes (window 0 calldata offset.toNat len.toNat), f)
  | .valueTransferred, f => (.bytes (zeros 32), f)
  | .setImmutableData, f => (.none, f)
  | .getImmutableData, f => (.bytes (zeros 4), f)
  | .getStorageOrZero key, f => (.bytes (f key).toList, f)
  | .setStorageOrClear key value, f =>
    (.value (if f key ≠ zeroWord then 32 else 0xFFFFFFFF), Function.update f key value)
  | .hashKeccak256 input, f => (.bytes (keccak input).toList, f)
  | .address, f => (.bytes (List.replicate 20 0x42), f)
  | .caller, f => (.bytes (List.replicate 20 0x01), f)
  | .balance, f => (.bytes (zeros 32), f)
  | .blockNumber, f => (.bytes (1 :: zeros 31), f)
  | .returnDataSize, f => (.value 0, f)
  | .unknown, f => (.none, f)

end Host

section Guests

variable {I : Type}

/-- Where a guest may write, and that a write or a zero fill after another one
amounts to one write. -/
structure Writing (vm : Vm I) where
  writable : I → Nat → Prop
  zero {inst : I} {ptr len : U32}
    (h : ∀ i, ptr.toNat ≤ i → i < ptr.toNat + len.toNat → writable inst i) :
    vm.zeroMemory inst ptr len = vm.writeMemory inst ptr (zeros len.toNat)
  append {inst : I} {ptr : U32} {a b : Buffer} (hend : ptr.toNat + a.length < 2 ^ 32)
    (h : ∀ i, ptr.toNat ≤ i → i < ptr.toNat + a.length + b.length → writable inst i) :
    vm.writeMemory (vm.writeMemory inst ptr a) (ptr + BitVec.ofNat 32 a.length) b =
      vm.writeMemory inst ptr (a ++ b)
  kept {inst : I} {ptr : U32} {a : Buffer} : writable (vm.writeMemory inst ptr a) = writable inst

variable {vm : Vm I}

/-- The guest has put the arguments of a query where the host reads them. -/
def Passes (mem : Writing vm) (inst : I) : Query → Prop
  | .callDataLoad offset => (vm.reg inst .a1).setWidth 32 = offset
  | .callDataCopy len offset =>
    (vm.reg inst .a1).setWidth 32 = len ∧ (vm.reg inst .a2).setWidth 32 = offset ∧
      ((vm.reg inst .a0).setWidth 32 : U32).toNat + len.toNat ≤ 2 ^ 32 ∧
      ∀ i, ((vm.reg inst .a0).setWidth 32 : U32).toNat ≤ i →
        i < ((vm.reg inst .a0).setWidth 32 : U32).toNat + len.toNat → mem.writable inst i
  | .getStorageOrZero key => keyOf vm inst = key
  | .setStorageOrClear key value => keyOf vm inst = key ∧ valueOf vm inst = value
  | .hashKeccak256 input => (vm.readMemoryInto inst ((vm.reg inst .a0).setWidth 32)
      (Vector.replicate ((vm.reg inst .a1).setWidth 32 : U32).toNat 0)).toList = input
  | _ => True

def Query.place : Query → Reg
  | .getImmutableData => .a1
  | .getStorageOrZero _ | .hashKeccak256 _ => .a2
  | _ => .a0

def deliver (vm : Vm I) (inst : I) (q : Query) : Answer → I
  | .none => inst
  | .value v => vm.setReg inst .a0 v
  | .bytes data => vm.writeMemory inst ((vm.reg inst q.place).setWidth 32) data

/-- The guest is run to its next interrupt that is not a step. -/
inductive RunsTo (vm : Vm I) : I → InterruptKind → I → Prop
  | here {inst inst' : I} {k : InterruptKind} : vm.run inst = (.ok k, inst') → k ≠ .step →
      RunsTo vm inst k inst'
  | step {inst inst' inst'' : I} {k : InterruptKind} : vm.run inst = (.ok .step, inst') →
      RunsTo vm inst' k inst'' → RunsTo vm inst k inst''

def Ends (vm : Vm I) (table : SyscallDispatchTable) (inst : I) : ExecOutcome → Prop
  | .finished => ∃ inst', RunsTo vm inst .finished inst'
  | .trap => ∃ k inst', RunsTo vm inst k inst' ∧ (k = .trap ∨ k = .segfault)
  | .outOfGas => ∃ inst', RunsTo vm inst .notEnoughGas inst'
  | .returned flags data => ∃ idx inst', RunsTo vm inst (.ecalli idx) inst' ∧
      (table.get idx = .sealReturn ∧ (vm.reg inst' .a0).setWidth 32 = flags ∧
          (vm.readMemoryInto inst' ((vm.reg inst' .a1).setWidth 32)
            (Vector.replicate ((vm.reg inst' .a2).setWidth 32 : U32).toNat 0)).toList = data ∨
        table.get idx = .consumeAllGas ∧ flags = 1 ∧ data = [])

/-- The guest does what the contract says, whatever a host may answer. -/
def Follows (mem : Writing vm) (table : SyscallDispatchTable) : Contract → I → Prop
  | .done outcome, inst => Ends vm table inst outcome
  | .ask q next, inst => ∃ idx inst', RunsTo vm inst (.ecalli idx) inst' ∧ table.get idx = q.id ∧
      Passes mem inst' q ∧ ∀ calldata f, Follows mem table (next (answer vm.keccak256 calldata q f).1)
        (deliver vm inst' q (answer vm.keccak256 calldata q f).1)

def Puts (mem : Writing vm) (table : SyscallDispatchTable) (q : Query) (a : Answer) (inst after : I) : Prop :=
  ∃ idx inst', RunsTo vm inst (.ecalli idx) inst' ∧ table.get idx = q.id ∧ Passes mem inst' q ∧
    after = deliver vm inst' q a

/-- On this calldata and map the guest does what the contract says, to its end or until its gas is used up. -/
def Plays (mem : Writing vm) (table : SyscallDispatchTable) (calldata : Buffer) (d : Contract)
    (f : Word → Word) (inst : I) (outcome : ExecOutcome) (left : Word → Word) : Prop :=
  d.Plays (answer vm.keccak256 calldata) (Puts mem table) (fun outcome inst => Ends vm table inst outcome)
    (fun outcome inst => outcome = .outOfGas ∧ Ends vm table inst .outOfGas) f inst outcome left

theorem Follows.plays {mem : Writing vm} {table : SyscallDispatchTable} {d : Contract} {inst : I}
    (h : Follows mem table d inst) (calldata : Buffer) (f : Word → Word) :
    Plays mem table calldata d f inst (d.eval (answer vm.keccak256 calldata) f).1
      (d.eval (answer vm.keccak256 calldata) f).2 := by
  induction d generalizing inst f with
  | done outcome => exact .done h
  | ask q next ih =>
      obtain ⟨idx, inst', hruns, hid, hpasses, hnext⟩ := h
      exact .ask ⟨idx, inst', hruns, hid, hpasses, rfl⟩ (ih _ (hnext calldata f) _)

end Guests

section Service

variable {I : Type} {vm : Vm I} {mem : Writing vm} {inst : I} {calldata : Buffer} {f : Word → Word}

theorem sparse_update (key value : Word) : sparse zeroWord (Function.update f key value) =
    writePresent zeroWord (sparse zeroWord f) (key, value) := sparse_write f (key, value)

def handled (vm : Vm I) (inst : I) (q : Query) : Answer → SyscallResult × I
  | .value v => (.returnValue v, inst)
  | a => (.continues, deliver vm inst q a)

/-- A copy is one write of the window, however the handler makes it. -/
theorem callDataCopy_serves {len offset : U32} (h : Passes mem inst (.callDataCopy len offset)) (S : Storage) :
    handleSyscallById vm .callDataCopy calldata ⟨inst, S⟩ = .ok .continues
      ⟨vm.writeMemory inst ((vm.reg inst .a0).setWidth 32) (window 0 calldata offset.toNat len.toNat), S⟩ := by
  obtain ⟨rfl, rfl, hend, hwritable⟩ := h
  let m : Machine I := ⟨inst, S⟩
  change handleSyscallById vm .callDataCopy calldata m = .ok .continues ⟨vm.writeMemory inst (outPtr vm m)
    (window 0 calldata (copyOffset vm m).toNat (outLen vm m).toNat), S⟩
  have hend : (outPtr vm m).toNat + (outLen vm m).toNat ≤ 2 ^ 32 := hend
  have hwritable : ∀ i, (outPtr vm m).toNat ≤ i → i < (outPtr vm m).toNat + (outLen vm m).toNat →
      mem.writable inst i := hwritable
  have hle := copied_le calldata vm m
  have hlength : (taken calldata vm m).length = copied calldata vm m := taken_length
  obtain h | h := Nat.lt_or_ge (copyOffset vm m).toNat calldata.length
  · have hwindow : window 0 calldata (copyOffset vm m).toNat (outLen vm m).toNat =
        taken calldata vm m ++ zeros ((outLen vm m).toNat - copied calldata vm m) :=
      window_eq 0 calldata h.le
    obtain htail | hfull := Nat.lt_or_eq_of_le hle
    · have hptr : (outPtr vm m + BitVec.ofNat 32 (copied calldata vm m)).toNat =
          (outPtr vm m).toNat + copied calldata vm m := by
        rw [BitVec.toNat_add_of_lt (by rw [toNat_copied]; omega), toNat_copied]
      have hrest : (outLen vm m - BitVec.ofNat 32 (copied calldata vm m)).toNat =
          (outLen vm m).toNat - copied calldata vm m := by
        rw [BitVec.toNat_sub_of_le (by rw [BitVec.le_def, toNat_copied]; exact hle), toNat_copied]
      rw [callDataCopy_tail h htail hend, mem.zero, hrest, ← hlength, mem.append (by omega), hwindow, hlength]
      · intro i hi hi'
        rw [zeros_length] at hi'
        exact hwritable i hi (by omega)
      · intro i hi hi'
        rw [hptr] at hi hi'
        rw [hrest] at hi'
        rw [mem.kept]
        exact hwritable i (by omega) (by omega)
    · rw [callDataCopy_full h hfull, hwindow, hfull, Nat.sub_self]
      exact congrArg (fun data => EStateM.Result.ok _ (Machine.mk (vm.writeMemory inst _ data) S))
        (List.append_nil _).symm
  · rw [callDataCopy_past h, mem.zero hwritable, window_past 0 calldata h]
    rfl

theorem handleSyscallById_serves {q : Query} (h : Passes mem inst q) :
    handleSyscallById vm q.id calldata ⟨inst, sparse zeroWord f⟩ =
      .ok (handled vm inst q (answer vm.keccak256 calldata q f).1).1
        ⟨(handled vm inst q (answer vm.keccak256 calldata q f).1).2,
          sparse zeroWord (answer vm.keccak256 calldata q f).2⟩ := by
  cases q with
  | callDataSize | valueTransferred | setImmutableData | getImmutableData | address | caller | balance
  | blockNumber | returnDataSize | unknown => rfl
  | callDataLoad offset =>
      obtain rfl := h
      exact callDataLoad_writes
  | callDataCopy len offset => exact callDataCopy_serves h _
  | getStorageOrZero key =>
      obtain rfl := h
      refine (getStorageOrZero_eq inst).trans ?_
      rw [sparse, present_getD]
      rfl
  | setStorageOrClear key value =>
      obtain ⟨rfl, rfl⟩ := h
      refine (setStorageOrClear_eq inst).trans ?_
      rw [← sparse_update, sparse]
      simp only [present_isSome]
      rfl
  | hashKeccak256 input =>
      obtain rfl := h
      rfl

theorem resume_of_run {m : Machine I} {i : Except String InterruptKind} (h : vm.run m.inst = (i, inst)) :
    resume vm m = .ok i { m with inst := inst } := resume_ok.mpr (by rw [h]; exact ⟨rfl, rfl⟩)

theorem RunsTo.rounds {k : InterruptKind} {inst' : I} (h : RunsTo vm inst k inst')
    (handle : U32 → Execution I SyscallResult) (S : Storage) : ∃ n last,
      loop (round vm handle) n ⟨inst, S⟩ = .ok none ⟨last, S⟩ ∧ vm.run last = (.ok k, inst') := by
  induction h with
  | @here inst inst' k hrun hk => exact ⟨0, inst, rfl, hrun⟩
  | @step inst inst' inst'' k hrun _ ih =>
      obtain ⟨n, last, hn, hlast⟩ := ih
      have hresume : resume vm ⟨inst, S⟩ = .ok (.ok .step) ⟨inst', S⟩ := resume_of_run hrun
      have hround : round vm handle ⟨inst, S⟩ = .ok none ⟨inst', S⟩ := by
        rw [Executor.round, bind_of_ok hresume]
        rfl
      exact ⟨n + 1, last, loop_succ_ok.mpr (.inr ⟨_, hround, hn⟩), hlast⟩

variable {table : SyscallDispatchTable}

theorem round_answers {m : Machine I} {q : Query} {idx : U32} (hrun : vm.run m.inst = (.ok (.ecalli idx), inst))
    (hid : table.get idx = q.id) (hpasses : Passes mem inst q) (hm : m.storage = sparse zeroWord f) :
    round vm (fun idx => handleSyscallById vm (table.get idx) calldata) m = .ok none
      ⟨deliver vm inst q (answer vm.keccak256 calldata q f).1,
        sparse zeroWord (answer vm.keccak256 calldata q f).2⟩ := by
  have hserves : handleSyscallById vm q.id calldata ⟨inst, sparse zeroWord f⟩ = _ :=
    handleSyscallById_serves hpasses
  rw [← hm, ← hid] at hserves
  rw [Executor.round, bind_of_ok (resume_of_run hrun)]
  refine (bind_of_ok hserves).trans ?_
  cases (answer vm.keccak256 calldata q f).1 <;> rfl

theorem puts_rounds {q : Query} {after : I} (h : Puts mem table q (answer vm.keccak256 calldata q f).1 inst after) :
    ∃ n, loop (round vm fun idx => handleSyscallById vm (table.get idx) calldata) n ⟨inst, sparse zeroWord f⟩ =
      .ok none ⟨after, sparse zeroWord (answer vm.keccak256 calldata q f).2⟩ := by
  obtain ⟨idx, inst', hruns, hid, hpasses, rfl⟩ := h
  obtain ⟨n, last, hn, hrun⟩ :=
    hruns.rounds (fun idx => handleSyscallById vm (table.get idx) calldata) (sparse zeroWord f)
  have hround : round vm (fun idx => handleSyscallById vm (table.get idx) calldata)
      ⟨last, sparse zeroWord f⟩ = _ := round_answers hrun hid hpasses rfl
  exact ⟨n + 1, (loop_add hn 1).trans (loop_succ_ok.mpr (.inr ⟨_, hround, rfl⟩))⟩

theorem RunsTo.breaks {handle : U32 → Execution I SyscallResult} {k : InterruptKind} {inst' : I} {S : Storage}
    {r : Except CallError ExecOutcome} (h : RunsTo vm inst k inst')
    (hround : ∀ last, resume vm ⟨last, S⟩ = .ok (.ok k) ⟨inst', S⟩ →
      round vm handle ⟨last, S⟩ = .ok (some r) ⟨inst', S⟩) :
    ∃ n t, loop (round vm handle) n ⟨inst, S⟩ = .ok (some r) ⟨t, S⟩ := by
  obtain ⟨n, last, hn, hrun⟩ := h.rounds handle S
  have hlast := hround last (resume_of_run hrun)
  exact ⟨n + 1, inst', (loop_add hn 1).trans (loop_succ_ok.mpr (.inl ⟨r, rfl, hlast⟩))⟩

theorem end_rounds {outcome : ExecOutcome} (h : Ends vm table inst outcome) (calldata : Buffer) (S : Storage) :
    ∃ n t, loop (round vm fun idx => handleSyscallById vm (table.get idx) calldata) n ⟨inst, S⟩ =
      .ok (some (.ok outcome)) ⟨t, S⟩ := by
  cases outcome with
  | finished | outOfGas =>
      obtain ⟨inst', hruns⟩ := h
      refine hruns.breaks fun last hresume => ?_
      rw [Executor.round, bind_of_ok hresume]
      rfl
  | trap =>
      obtain ⟨k, inst', hruns, hk⟩ := h
      refine hruns.breaks fun last hresume => ?_
      rw [Executor.round, bind_of_ok hresume]
      obtain rfl | rfl := hk <;> rfl
  | returned flags data =>
      obtain ⟨idx, inst', hruns, h⟩ := h
      have hhandled : handleSyscallById vm (table.get idx) calldata ⟨inst', S⟩ =
          .ok (.terminate flags data) ⟨inst', S⟩ := by
        obtain ⟨hid, rfl, rfl⟩ | ⟨hid, rfl, rfl⟩ := h
        · rw [hid]
          rfl
        · rw [hid]
          rfl
      refine hruns.breaks fun last hresume => ?_
      rw [Executor.round, bind_of_ok hresume]
      exact bind_of_ok hhandled

end Service

section Calls

variable {I : Type} {vm : Vm I} {mem : Writing vm} {calldata : Buffer} {f : Word → Word}

structure Hosted (mem : Writing vm) where
  module : Module I
  table : SyscallDispatchTable
  contract : Contract
  start : I
  prepared : ∀ S, prepare vm module S = .ok ⟨start, S⟩
  follows : Follows mem table contract start

def Shows (outcome : ExecOutcome) (r : Except CallError Reply) : Prop :=
  ∃ gasUsed, r = match outcome with
    | .returned flags data =>
      if flags &&& 1 ≠ 0 then .error (.reverted flags data.length) else .ok (gasUsed, data)
    | .finished => .ok (gasUsed, [])
    | .trap => .error .trapped
    | .outOfGas => .error .outOfGas

def Metered (vm : Vm I) : Prop := ∀ inst, 0 ≤ (vm.gas inst).toInt

theorem conclude_shows (hgas : Metered vm) (outcome : ExecOutcome) (m : Machine I) :
    ∃ r, conclude vm (.ok outcome) m = .ok r m ∧ Shows outcome r := by
  have hsub : subI64 vm gasLimit (vm.gas m.inst) m = .ok (gasLimit - vm.gas m.inst) m := by
    rw [subI64, if_neg]
    · rfl
    · rintro ⟨-, hoverflow⟩
      have hleft := hgas m.inst
      have hlimit : gasLimit.toInt = 300000000 := by decide
      have hlt : (vm.gas m.inst).toInt < 2 ^ 63 := BitVec.toInt_lt
      simp only [BitVec.ssubOverflow, hlimit, Bool.or_eq_true, decide_eq_true_eq] at hoverflow
      omega
  have hgas : gas vm m = .ok (vm.gas m.inst) m := rfl
  rw [conclude, bind_of_ok hgas, bind_of_ok hsub]
  cases outcome with
  | returned flags data =>
      refine ⟨_, ?_, gasLimit - vm.gas m.inst, rfl⟩
      dsimp only
      split <;> rfl
  | finished | trap | outOfGas => exact ⟨_, rfl, gasLimit - vm.gas m.inst, rfl⟩

def Hosted.eval (c : Hosted mem) (calldata : Buffer) (f : Word → Word) : ExecOutcome × (Word → Word) :=
  c.contract.eval (answer vm.keccak256 calldata) f

/-- A module that does what a contract says on the calldata at hand, as far as its gas goes. -/
structure Played (mem : Writing vm) (contract : Contract) (calldata : Buffer) (f : Word → Word) where
  module : Module I
  table : SyscallDispatchTable
  start : I
  prepared : ∀ S, prepare vm module S = .ok ⟨start, S⟩
  outcome : ExecOutcome
  left : Word → Word
  plays : Plays mem table calldata contract f start outcome left

def Played.call {contract : Contract} (c : Played mem contract calldata f) (fuel : Nat) :
    EStateM.Result Panic Storage (Option (Except CallError Reply)) :=
  callWithDispatchTable vm c.module calldata c.table fuel (sparse zeroWord f)

theorem played_call (hgas : Metered vm) {contract : Contract} (c : Played mem contract calldata f) :
    ∃ fuel r, c.call fuel = .ok (some r) (sparse zeroWord c.left) ∧ Shows c.outcome r := by
  have hasks (q : Query) (f : Word → Word) (inst after : I)
      (h : Puts mem c.table q (answer vm.keccak256 calldata q f).1 inst after) := puts_rounds h
  have hends {outcome : ExecOutcome} {inst : I} (h : Ends vm c.table inst outcome ∨
      (outcome = .outOfGas ∧ Ends vm c.table inst .outOfGas)) : Ends vm c.table inst outcome := by
    obtain h | ⟨rfl, h⟩ := h
    · exact h
    · exact h
  obtain ⟨n, inst, hn⟩ := Dialogue.Plays.loops (fun inst f => (⟨inst, sparse zeroWord f⟩ : Machine I))
    Except.ok hasks (fun _ _ _ h => end_rounds (hends h) calldata _) c.plays
  obtain ⟨r, hr, hshows⟩ := conclude_shows hgas c.outcome ⟨inst, sparse zeroWord c.left⟩
  exact ⟨n, r, callWith_ok.mpr (.inr ⟨_, c.prepared _, .inr ⟨_, _, r, _, hn, hr, rfl, rfl⟩⟩), hshows⟩

theorem played_call_unique (hgas : Metered vm) {contract : Contract} (c : Played mem contract calldata f)
    {fuel : Nat} {r : Except CallError Reply} {T : Storage} (h : c.call fuel = .ok (some r) T) :
    T = sparse zeroWord c.left ∧ Shows c.outcome r := by
  obtain ⟨fuel', r', h', hshows⟩ := played_call hgas c
  have hlonger := callWith_mono fuel' h
  rw [Nat.add_comm] at hlonger
  cases hlonger.symm.trans (callWith_mono fuel h')
  exact ⟨rfl, hshows⟩

def Hosted.play (c : Hosted mem) (calldata : Buffer) (f : Word → Word) : Played mem c.contract calldata f where
  module := c.module
  table := c.table
  start := c.start
  prepared := c.prepared
  outcome := (c.eval calldata f).1
  left := (c.eval calldata f).2
  plays := c.follows.plays calldata f

theorem hosted_call (hgas : Metered vm) (c : Hosted mem) (calldata : Buffer) (f : Word → Word) : ∃ fuel r,
    callWithDispatchTable vm c.module calldata c.table fuel (sparse zeroWord f) =
        .ok (some r) (sparse zeroWord (c.eval calldata f).2) ∧
      Shows (c.eval calldata f).1 r := played_call hgas (c.play calldata f)

theorem hosted_call_unique (hgas : Metered vm) (c : Hosted mem) {fuel : Nat} {r : Except CallError Reply}
    {T : Storage} (h : callWithDispatchTable vm c.module calldata c.table fuel (sparse zeroWord f) =
      .ok (some r) T) : T = sparse zeroWord (c.eval calldata f).2 ∧ Shows (c.eval calldata f).1 r :=
  played_call_unique hgas (c.play calldata f) h

inductive Session (mem : Writing vm) :
    Storage → List (Hosted mem × Buffer) → List (Except CallError Reply) → Storage → Prop
  | nil (S : Storage) : Session mem S [] [] S
  | call {S T U : Storage} {c : Hosted mem} {calldata : Buffer} {fuel : Nat} {r : Except CallError Reply}
      {calls rs} : callWithDispatchTable vm c.module calldata c.table fuel S = .ok (some r) T →
      Session mem T calls rs U → Session mem S ((c, calldata) :: calls) (r :: rs) U

def evaluate : List (Hosted mem × Buffer) → (Word → Word) → List ExecOutcome × (Word → Word)
  | [], f => ([], f)
  | (c, calldata) :: calls, f =>
    let r := c.eval calldata f
    let rest := evaluate calls r.2
    (r.1 :: rest.1, rest.2)

/-- The executor serves contracts as a host does that keeps a map of words: any
calls return, with what the contracts come to on that map. -/
theorem sessions_evaluate (hgas : Metered vm) (calls : List (Hosted mem × Buffer)) (f : Word → Word) :
    (∃ rs T, Session mem (sparse zeroWord f) calls rs T) ∧
      ∀ rs T, Session mem (sparse zeroWord f) calls rs T →
        T = sparse zeroWord (evaluate calls f).2 ∧ List.Forall₂ Shows (evaluate calls f).1 rs := by
  induction calls generalizing f with
  | nil =>
      refine ⟨⟨[], _, .nil _⟩, fun rs T h => ?_⟩
      cases h
      exact ⟨rfl, .nil⟩
  | cons call calls ih =>
      obtain ⟨c, calldata⟩ := call
      constructor
      · obtain ⟨fuel, r, h, -⟩ := hosted_call hgas c calldata f
        obtain ⟨rs, T, hrest⟩ := (ih (c.eval calldata f).2).1
        exact ⟨r :: rs, T, .call h hrest⟩
      · intro rs T h
        cases h with
        | call h hrest =>
            obtain ⟨rfl, hshows⟩ := hosted_call_unique hgas c h
            obtain ⟨hT, hrs⟩ := (ih (c.eval calldata f).2).2 _ _ hrest
            exact ⟨hT, .cons hshows hrs⟩

end Calls

section Players

/-- A guest that is the contract itself, with the answer to its query as far as it has come. -/
structure Player where
  contract : Contract
  answered : Option Answer

def Player.next (p : Player) : Contract :=
  match p.answered, p.contract with
  | some a, .ask _ next => next a
  | _, d => d

def Player.write (p : Player) (data : Buffer) : Player where
  contract := p.contract
  answered := match p.answered with
    | some (.bytes before) => some (.bytes (before ++ data))
    | _ => some (.bytes data)

def passed : Contract → Buffer
  | .ask (.getStorageOrZero key) _ => key.toList
  | .ask (.setStorageOrClear key value) _ => key.toList ++ value.toList
  | .ask (.hashKeccak256 input) _ => input
  | .done (.returned _ data) => data
  | _ => []

def argument : Contract → Reg → U64
  | .ask (.callDataLoad offset) _, .a1 => offset.setWidth 64
  | .ask (.callDataCopy len _) _, .a1 => len.setWidth 64
  | .ask (.callDataCopy _ offset) _, .a2 => offset.setWidth 64
  | .ask (.setStorageOrClear _ _) _, .a2 => 32
  | .ask (.hashKeccak256 input) _, .a1 => BitVec.ofNat 64 input.length
  | .done (.returned flags _), .a0 => flags.setWidth 64
  | .done (.returned _ data), .a2 => BitVec.ofNat 64 data.length
  | _, _ => 0

def playerTable : SyscallDispatchTable :=
  ⟨[.callDataSize, .callDataLoad, .callDataCopy, .sealReturn, .valueTransferred, .setImmutableData,
    .getImmutableData, .getStorageOrZero, .setStorageOrClear, .hashKeccak256, .address, .caller, .balance,
    .blockNumber, .returnDataSize]⟩

def importIndex (id : SyscallId) : U32 := BitVec.ofNat 32 (playerTable.table.idxOf id)

def interrupt : Contract → InterruptKind
  | .ask q _ => .ecalli (importIndex q.id)
  | .done (.returned _ _) => .ecalli (importIndex .sealReturn)
  | .done .finished => .finished
  | .done .trap => .trap
  | .done .outOfGas => .notEnoughGas

def playerVm (keccak : Buffer → Word) : Vm Player where
  reg p r := argument p.contract r
  setReg p _ v := { p with answered := some (.value v) }
  gas _ := 0
  setGas p _ := p
  prepareCallUntyped p _ := p
  run p := (.ok (interrupt p.next), { contract := p.next, answered := some .none })
  readMemoryInto p ptr n _ := .ofFn fun i : Fin n => (passed p.contract).getD (ptr.toNat + i) 0
  writeMemory p _ data := p.write data
  zeroMemory p _ len := p.write (zeros len.toNat)
  keccak256 := keccak
  overflowChecks := true

def playerMemory (keccak : Buffer → Word) : Writing (playerVm keccak) where
  writable _ _ := True
  zero _ := rfl
  append := by
    intro inst ptr a b _ _
    obtain ⟨contract, answered⟩ := inst
    simp only [playerVm, Player.write]
    rcases answered with _ | _ | _ | data <;> simp
  kept := rfl

def Sized : Contract → Prop
  | .done (.returned _ data) => data.length < 2 ^ 32
  | .done _ => True
  | .ask (.hashKeccak256 input) next => input.length < 2 ^ 32 ∧ ∀ a, Sized (next a)
  | .ask _ next => ∀ a, Sized (next a)

variable {keccak : Buffer → Word}

theorem ofFn_passed (before after : Buffer) {n : Nat} (v : Vector UInt8 n) {ptr : Nat}
    (hptr : ptr = before.length) :
    (Vector.ofFn fun i : Fin n => (before ++ v.toList ++ after).getD (ptr + i) 0) = v := by
  subst hptr
  refine Vector.ext fun i hi => ?_
  have hv : i < v.toList.length := by rwa [Vector.length_toList]
  rw [Vector.getElem_ofFn, List.append_assoc, List.getD_eq_getElem?_getD,
    List.getElem?_append_right (Nat.le_add_right ..), Nat.add_sub_cancel_left, List.getElem?_append_left hv,
    List.getElem?_eq_getElem hv, Option.getD_some, Vector.getElem_toList]

theorem toList_passed {data : Buffer} {ptr n : Nat} (hptr : ptr = 0) (hn : n = data.length) :
    (Vector.ofFn fun i : Fin n => data.getD (ptr + i) 0).toList = data := by
  subst hn
  have h := ofFn_passed [] [] (⟨data.toArray, rfl⟩ : Vector UInt8 data.length) hptr
  rw [List.nil_append, List.append_nil] at h
  exact congrArg Vector.toList h

theorem toNat_length {data : Buffer} (h : data.length < 2 ^ 32) :
    ((BitVec.ofNat 64 data.length).setWidth 32 : U32).toNat = data.length := by
  rw [BitVec.toNat_setWidth, BitVec.toNat_ofNat, Nat.mod_eq_of_lt (h.trans (by decide)), Nat.mod_eq_of_lt h]

theorem passes_player {q : Query} {next : Answer → Contract} (hd : Sized (.ask q next)) :
    Passes (playerMemory keccak) ⟨.ask q next, some .none⟩ q := by
  cases q with
  | callDataLoad offset => exact BitVec.setWidth_setWidth_of_le _ (by decide)
  | callDataCopy len offset =>
      refine ⟨BitVec.setWidth_setWidth_of_le _ (by decide), BitVec.setWidth_setWidth_of_le _ (by decide), ?_,
        fun _ _ _ => trivial⟩
      exact (Nat.zero_add _).trans_le len.isLt.le
  | getStorageOrZero key =>
      have h := ofFn_passed [] [] key rfl
      rw [List.nil_append, List.append_nil] at h
      exact h
  | setStorageOrClear key value =>
      have hkey := ofFn_passed [] value.toList key rfl
      have hvalue := ofFn_passed key.toList [] value key.length_toList.symm
      rw [List.append_nil] at hvalue
      exact ⟨hkey, hvalue⟩
  | hashKeccak256 input => exact toList_passed rfl (toNat_length hd.1)
  | _ => trivial

theorem Sized.next {q : Query} {next : Answer → Contract} (hd : Sized (.ask q next)) (a : Answer) :
    Sized (next a) := by
  cases q with
  | hashKeccak256 input => exact hd.2 a
  | _ => exact hd a

theorem run_player {p : Player} {d : Contract} (hp : p.next = d) :
    (playerVm keccak).run p = (.ok (interrupt d), ⟨d, some .none⟩) := by
  rw [← hp]
  rfl

theorem next_deliver (q : Query) (next : Answer → Contract) (a : Answer) :
    (deliver (playerVm keccak) ⟨.ask q next, some .none⟩ q a).next = next a := by
  cases a <;> rfl

/-- Every contract has a guest that does what it says. -/
theorem follows_player (d : Contract) (hd : Sized d) (p : Player) (hp : p.next = d) :
    Follows (playerMemory keccak) playerTable d p := by
  induction d generalizing p with
  | done outcome =>
      have hrun : (playerVm keccak).run p = _ := run_player hp
      cases outcome with
      | finished | outOfGas => exact ⟨_, .here hrun (by decide)⟩
      | trap => exact ⟨_, _, .here hrun (by decide), .inl rfl⟩
      | returned flags data =>
          refine ⟨_, _, .here hrun (by decide), .inl ⟨rfl, BitVec.setWidth_setWidth_of_le _ (by decide), ?_⟩⟩
          exact toList_passed rfl (toNat_length hd)
  | ask q next ih =>
      refine ⟨importIndex q.id, _, .here (run_player hp) (nomatch ·), ?_, passes_player hd,
        fun calldata f => ?_⟩
      · cases q <;> rfl
      · exact ih _ (hd.next _) _ (next_deliver q next _)

def hostedPlayer (keccak : Buffer → Word) (d : Contract) (hd : Sized d) : Hosted (playerMemory keccak) where
  module :=
    { imports := ⟨[], by decide⟩, exports := [(symbolBytes "call", 0)], instantiate := .ok ⟨d, none⟩ }
  table := playerTable
  contract := d
  start := ⟨d, none⟩
  prepared S := by rfl
  follows := follows_player d hd _ rfl

theorem metered_player : Metered (playerVm keccak) := fun _ => le_of_eq (by rfl)

theorem newStorage_eq : newStorage = sparse zeroWord fun _ => zeroWord := by
  funext key
  rw [sparse, present, if_pos rfl, newStorage]

def keeper : Contract :=
  .ask (.getStorageOrZero zeroWord) fun old =>
    .ask (.callDataCopy 32 0) fun new =>
      .ask (.setStorageOrClear zeroWord new.word) fun _ => .done (.returned 0 (old.word).toList)

theorem sized_keeper : Sized keeper := by
  intro old new _
  rw [Sized, Vector.length_toList]
  decide

theorem sessions_evaluate_sample :
    let c := hostedPlayer (fun _ => zeroWord) keeper sized_keeper
    ∃ rs T, Session (playerMemory fun _ => zeroWord) newStorage [(c, [7]), (c, [8])] rs T ∧
      List.Forall₂ Shows [.returned 0 (zeros 32), .returned 0 (7 :: zeros 31)] rs := by
  intro c
  obtain ⟨⟨rs, T, h⟩, hall⟩ := sessions_evaluate metered_player [(c, [7]), (c, [8])] fun _ => zeroWord
  have houtcomes : (evaluate [(c, [7]), (c, [8])] fun _ => zeroWord).1 =
      [.returned 0 (zeros 32), .returned 0 (7 :: zeros 31)] := by decide +kernel
  exact ⟨rs, T, newStorage_eq ▸ h, houtcomes ▸ (hall rs T h).2⟩

end Players

end RiscVContracts.Hosting
