import RiscVContracts.Lib.Memory
import RiscVContracts.Pvm.Dispatch
import RiscVContracts.Pvm.FailedCalls

namespace RiscVContracts.CalldataCopy

open Programs Bytes Memory Runner Handlers Executor Dispatch FailedCalls

variable {I : Type} {vm : Vm I} {m t : Machine I} {calldata : Buffer}

/-- The bytes of the guest's memory and which of them may be written: a write
or a zero fill of a writable range sets its bytes and leaves the others. -/
structure GuestMemory (vm : Vm I) where
  byte : I → Nat → UInt8
  writable : I → Nat → Prop
  writeMemory (inst : I) (ptr : U32) (data : Buffer)
    (h : ∀ i, ptr.toNat ≤ i → i < ptr.toNat + data.length → writable inst i) :
    byte (vm.writeMemory inst ptr data) = store (byte inst) ptr.toNat data ∧
      writable (vm.writeMemory inst ptr data) = writable inst
  zeroMemory (inst : I) (ptr len : U32)
    (h : ∀ i, ptr.toNat ≤ i → i < ptr.toNat + len.toNat → writable inst i) :
    byte (vm.zeroMemory inst ptr len) = store (byte inst) ptr.toNat (zeros len.toNat) ∧
      writable (vm.zeroMemory inst ptr len) = writable inst

section Arguments

def outPtr (vm : Vm I) (m : Machine I) : U32 := (vm.reg m.inst .a0).setWidth 32

def outLen (vm : Vm I) (m : Machine I) : U32 := (vm.reg m.inst .a1).setWidth 32

def copyOffset (vm : Vm I) (m : Machine I) : U32 := (vm.reg m.inst .a2).setWidth 32

def loadOffset (vm : Vm I) (m : Machine I) : U32 := (vm.reg m.inst .a1).setWidth 32

def OutputMapped {vm : Vm I} (mem : GuestMemory vm) (m : Machine I) : Prop :=
  (outPtr vm m).toNat + (outLen vm m).toNat ≤ 2 ^ 32 ∧
    ∀ i, (outPtr vm m).toNat ≤ i → i < (outPtr vm m).toNat + (outLen vm m).toNat →
      mem.writable m.inst i

def copied (calldata : Buffer) (vm : Vm I) (m : Machine I) : Nat :=
  min ((copyOffset vm m).toNat + (outLen vm m).toNat) calldata.length - (copyOffset vm m).toNat

theorem copied_le (calldata : Buffer) (vm : Vm I) (m : Machine I) :
    copied calldata vm m ≤ (outLen vm m).toNat := by
  rw [copied]
  omega

theorem toNat_copied (calldata : Buffer) (vm : Vm I) (m : Machine I) :
    (BitVec.ofNat 32 (copied calldata vm m)).toNat = copied calldata vm m := by
  rw [BitVec.toNat_ofNat]
  exact Nat.mod_eq_of_lt (lt_of_le_of_lt (copied_le ..) (outLen vm m).isLt)

end Arguments

section Copy

def taken (calldata : Buffer) (vm : Vm I) (m : Machine I) : Buffer :=
  slice calldata (copyOffset vm m).toNat
    (min ((copyOffset vm m).toNat + (outLen vm m).toNat) calldata.length)

theorem taken_length : (taken calldata vm m).length = copied calldata vm m := by
  rw [taken, slice, List.length_drop, List.length_take, copied, Nat.min_eq_left (Nat.min_le_right ..)]

theorem callDataCopy_eq : handleSyscallById vm .callDataCopy calldata m =
    (if (copyOffset vm m).toNat ≥ calldata.length then do
      zeroMemory vm (outPtr vm m) (outLen vm m)
      return .continues
    else do
      writeMemory vm (outPtr vm m) (taken calldata vm m)
      let written := BitVec.ofNat 32 (copied calldata vm m)
      if written < outLen vm m then do
        let rest ← addU32 vm (outPtr vm m) written
        zeroMemory vm rest (outLen vm m - written)
        return .continues
      else return .continues : Execution I SyscallResult) m := rfl

theorem addU32_of_lt {a b : U32} (h : a.toNat + b.toNat < 2 ^ 32) : addU32 vm a b m = .ok (a + b) m := by
  rw [addU32, if_neg]
  · rfl
  · rintro ⟨-, hoverflow⟩
    simp only [BitVec.uaddOverflow, ge_iff_le, decide_eq_true_eq] at hoverflow
    exact absurd h (Nat.not_lt.mpr hoverflow)

theorem callDataCopy_past (h : calldata.length ≤ (copyOffset vm m).toNat) :
    handleSyscallById vm .callDataCopy calldata m =
      .ok .continues ⟨vm.zeroMemory m.inst (outPtr vm m) (outLen vm m), m.storage⟩ := by
  rw [callDataCopy_eq, if_pos h]
  rfl

theorem callDataCopy_full (h : (copyOffset vm m).toNat < calldata.length)
    (hfull : copied calldata vm m = (outLen vm m).toNat) :
    handleSyscallById vm .callDataCopy calldata m =
      .ok .continues ⟨vm.writeMemory m.inst (outPtr vm m) (taken calldata vm m), m.storage⟩ := by
  have hwritten : ¬ BitVec.ofNat 32 (copied calldata vm m) < outLen vm m := by
    rw [BitVec.lt_def, toNat_copied, hfull]
    exact Nat.lt_irrefl _
  rw [callDataCopy_eq, if_neg (Nat.not_le.mpr h)]
  dsimp only
  rw [if_neg hwritten]
  rfl

theorem callDataCopy_tail (h : (copyOffset vm m).toNat < calldata.length)
    (htail : copied calldata vm m < (outLen vm m).toNat)
    (hend : (outPtr vm m).toNat + (outLen vm m).toNat ≤ 2 ^ 32) :
    let written := BitVec.ofNat 32 (copied calldata vm m)
    handleSyscallById vm .callDataCopy calldata m =
      .ok .continues ⟨vm.zeroMemory (vm.writeMemory m.inst (outPtr vm m) (taken calldata vm m))
        (outPtr vm m + written) (outLen vm m - written), m.storage⟩ := by
  intro written
  have hwritten : written < outLen vm m := by
    rw [BitVec.lt_def, toNat_copied]
    exact htail
  have hadd : (outPtr vm m).toNat + written.toNat < 2 ^ 32 := by
    rw [toNat_copied]
    omega
  have hwrite : writeMemory vm (outPtr vm m) (taken calldata vm m) m =
      .ok () ⟨vm.writeMemory m.inst (outPtr vm m) (taken calldata vm m), m.storage⟩ := rfl
  rw [callDataCopy_eq, if_neg (Nat.not_le.mpr h), bind_of_ok hwrite, if_pos hwritten,
    bind_of_ok (addU32_of_lt hadd)]
  rfl

variable {mem : GuestMemory vm}

theorem callDataCopy_stores (calldata : Buffer) (hmapped : OutputMapped mem m) :
    ∃ t, handleSyscallById vm .callDataCopy calldata m = .ok .continues t ∧ t.storage = m.storage ∧
      mem.byte t.inst = store (mem.byte m.inst) (outPtr vm m).toNat
        (window 0 calldata (copyOffset vm m).toNat (outLen vm m).toNat) := by
  obtain ⟨hend, hwritable⟩ := hmapped
  obtain h | h := Nat.lt_or_ge (copyOffset vm m).toNat calldata.length
  · have hlength : (taken calldata vm m).length = copied calldata vm m := taken_length
    have hle := copied_le calldata vm m
    have hwindow : window 0 calldata (copyOffset vm m).toNat (outLen vm m).toNat =
        taken calldata vm m ++ zeros ((outLen vm m).toNat - copied calldata vm m) :=
      window_eq 0 calldata h.le
    obtain ⟨hbyte, hkept⟩ := mem.writeMemory m.inst (outPtr vm m) (taken calldata vm m)
      fun i hi hi' => hwritable i hi (by omega)
    obtain htail | hfull := Nat.lt_or_eq_of_le hle
    · refine ⟨_, callDataCopy_tail h htail hend, rfl, ?_⟩
      have hptr : (outPtr vm m + BitVec.ofNat 32 (copied calldata vm m)).toNat =
          (outPtr vm m).toNat + (taken calldata vm m).length := by
        rw [BitVec.toNat_add_of_lt (by rw [toNat_copied]; omega), toNat_copied, hlength]
      have hrest : (outLen vm m - BitVec.ofNat 32 (copied calldata vm m)).toNat =
          (outLen vm m).toNat - copied calldata vm m := by
        rw [BitVec.toNat_sub_of_le (by rw [BitVec.le_def, toNat_copied]; exact hle), toNat_copied]
      obtain ⟨hzero, -⟩ := mem.zeroMemory _ (outPtr vm m + BitVec.ofNat 32 (copied calldata vm m))
        (outLen vm m - BitVec.ofNat 32 (copied calldata vm m)) fun i hi hi' => by
          rw [hkept]
          exact hwritable i (by omega) (by omega)
      rw [hzero, hbyte, hptr, hrest, store_store, hwindow]
    · refine ⟨_, callDataCopy_full h hfull, rfl, ?_⟩
      rw [hbyte, hwindow, hfull, Nat.sub_self]
      exact congrArg _ (List.append_nil _).symm
  · refine ⟨_, callDataCopy_past h, rfl, ?_⟩
    rw [(mem.zeroMemory m.inst (outPtr vm m) (outLen vm m) hwritable).1, window_past 0 calldata h]
    rfl

/-- After a copy the guest reads the window where it asked for it. -/
theorem window_of_copied (hmapped : OutputMapped mem m)
    (h : handleSyscallById vm .callDataCopy calldata m = .ok .continues t) :
    window 0 calldata (copyOffset vm m).toNat (outLen vm m).toNat =
      (List.range (outLen vm m).toNat).map fun j => mem.byte t.inst ((outPtr vm m).toNat + j) := by
  obtain ⟨t', ht, -, hbyte⟩ := callDataCopy_stores calldata hmapped
  cases h.symm.trans ht
  refine List.map_congr_left fun j hj => ?_
  have hj : j < (outLen vm m).toNat := List.mem_range.mp hj
  rw [hbyte, store_inside (by rwa [window_length]) 0, window_getD 0 calldata hj]

end Copy

section Load

theorem callDataLoad_writes : handleSyscallById vm .callDataLoad calldata m = .ok .continues
    ⟨vm.writeMemory m.inst (outPtr vm m) (window 0 calldata (loadOffset vm m).toNat 32).reverse,
      m.storage⟩ := by
  have hload : handleSyscallById vm .callDataLoad calldata m =
      .ok .continues ⟨vm.writeMemory m.inst (outPtr vm m)
        (if (loadOffset vm m).toNat < calldata.length then
          (copyFromSlice (zeros 32) 0 (slice calldata (loadOffset vm m).toNat
            (min ((loadOffset vm m).toNat + 32) calldata.length))).reverse
        else zeros 32), m.storage⟩ := rfl
  rw [hload]
  split
  · rename_i h
    rw [window_eq 0 calldata h.le, copyFromSlice, zeros, List.take_zero, List.nil_append,
      List.drop_replicate, slice, List.length_drop, List.length_take,
      Nat.min_eq_left (Nat.min_le_right ..), Nat.zero_add]
  · rename_i h
    rw [window_past 0 calldata (Nat.not_lt.mp h), List.reverse_replicate]
    rfl

end Load

/-- `call_data_copy` to a mapped range leaves zero-extended calldata there and
all other bytes as they were, without overflow; `call_data_load` writes the
reversal of the bytes that a copy of 32 bytes from its offset leaves. -/
theorem calldata_reads_window (vm : Vm I) (mem : GuestMemory vm) (calldata : Buffer) :
    (∀ m, OutputMapped mem m →
      (∃ t, handleSyscallById vm .callDataCopy calldata m = .ok .continues t ∧
        handleSyscall vm (symbolBytes "call_data_copy") calldata m = .ok .continues t ∧
        t.storage = m.storage ∧
        (∀ j < (outLen vm m).toNat, mem.byte t.inst ((outPtr vm m).toNat + j) =
          calldata.getD ((copyOffset vm m).toNat + j) 0) ∧
        ∀ i, i < (outPtr vm m).toNat ∨ (outPtr vm m).toNat + (outLen vm m).toNat ≤ i →
          mem.byte t.inst i = mem.byte m.inst i) ∧
      (BitVec.ofNat 32 (copied calldata vm m)).toNat = copied calldata vm m ∧
      copied calldata vm m ≤ (outLen vm m).toNat ∧
      (copied calldata vm m < (outLen vm m).toNat →
        (outPtr vm m).toNat + copied calldata vm m < 2 ^ 32)) ∧
    ∀ m, ∃ data,
      handleSyscallById vm .callDataLoad calldata m =
        .ok .continues ⟨vm.writeMemory m.inst (outPtr vm m) data, m.storage⟩ ∧
      handleSyscall vm (symbolBytes "call_data_load") calldata m =
        .ok .continues ⟨vm.writeMemory m.inst (outPtr vm m) data, m.storage⟩ ∧
      data = (window 0 calldata (loadOffset vm m).toNat 32).reverse ∧
      ∀ m' t', OutputMapped mem m' → outLen vm m' = 32 → copyOffset vm m' = loadOffset vm m →
        handleSyscallById vm .callDataCopy calldata m' = .ok .continues t' →
        data = ((List.range 32).map fun j => mem.byte t'.inst ((outPtr vm m').toNat + j)).reverse := by
  have hcopy : symbolToSyscallId (symbolBytes "call_data_copy") = .callDataCopy := by decide
  have hload : symbolToSyscallId (symbolBytes "call_data_load") = .callDataLoad := by decide
  constructor
  · intro m hmapped
    obtain ⟨t, ht, hstorage, hbyte⟩ := callDataCopy_stores calldata hmapped
    refine ⟨⟨t, ht, by rw [handleSyscall_eq, hcopy, ht], hstorage, fun j hj => ?_, fun i hi => ?_⟩,
      toNat_copied .., copied_le .., fun hlt => ?_⟩
    · rw [hbyte, store_inside (by rwa [window_length]) 0, window_getD 0 calldata hj]
    · rw [hbyte, store_outside (by rwa [window_length])]
    · have hend := hmapped.1
      omega
  · intro m
    refine ⟨_, callDataLoad_writes, by rw [handleSyscall_eq, hload, callDataLoad_writes], rfl, ?_⟩
    intro m' t' hmapped hlen hoffset h
    have hwindow := window_of_copied hmapped h
    rw [hlen, hoffset] at hwindow
    exact congrArg List.reverse hwindow

section Samples

theorem copyFromSlice_getD {buf src : Buffer} {lo : Nat} (h : lo + src.length ≤ buf.length) :
    (fun i => (copyFromSlice buf lo src).getD i 0) = store (fun i => buf.getD i 0) lo src := by
  funext i
  have hlo : (buf.take lo).length = lo := List.length_take_of_le (by omega)
  rw [store, copyFromSlice, List.append_assoc, List.getD_eq_getElem?_getD]
  split
  · rename_i hi
    rw [List.getElem?_append_right (by omega), hlo]
    obtain hsrc | hsrc := Nat.lt_or_ge (i - lo) src.length
    · rw [List.getElem?_append_left hsrc, List.getElem?_eq_getElem hsrc]
      rfl
    · rw [List.getElem?_append_right hsrc, List.getElem?_drop, List.getElem?_eq_none hsrc,
        Option.getD_none, List.getD_eq_getElem?_getD]
      congr 2
      omega
  · rename_i hi
    rw [List.getElem?_append_left (by omega), List.getElem?_take_of_lt (by omega),
      List.getD_eq_getElem?_getD]

theorem guest_write {g : Guest} {ptr : U32} {data : Buffer}
    (h : ∀ i, ptr.toNat ≤ i → i < ptr.toNat + data.length → i < g.memory.length) :
    (fun i => (g.write ptr data).memory.getD i 0) =
        store (fun i => g.memory.getD i 0) ptr.toNat data ∧
      (fun i => i < (g.write ptr data).memory.length) = fun i => i < g.memory.length := by
  rw [Guest.write]
  split
  · rename_i hfits
    refine ⟨copyFromSlice_getD hfits, ?_⟩
    have hlength : (copyFromSlice g.memory ptr.toNat data).length = g.memory.length := by
      rw [copyFromSlice, List.length_append, List.length_append, List.length_take, List.length_drop]
      omega
    dsimp only
    rw [hlength]
  · rename_i hfits
    -- only an empty range is within a memory that does not reach its end
    obtain rfl : data = [] := by
      by_contra hne
      have hlength := List.length_pos_of_ne_nil hne
      have hlast := h (ptr.toNat + data.length - 1) (by omega) (by omega)
      omega
    exact ⟨store_nil.symm, rfl⟩

def scriptedMemory : GuestMemory scriptedVm where
  byte g i := g.memory.getD i 0
  writable g i := i < g.memory.length
  writeMemory _ _ _ h := guest_write h
  zeroMemory _ _ _ h := guest_write (by rwa [zeros_length])

theorem calldata_reads_window_sample :
    let calldata : Buffer := [1, 2, 3, 4, 5]
    let m (a1 a2 : U64) : Machine Guest :=
      { inst := { Guest.start (List.replicate 96 7) [] with a0 := 40, a1 := a1, a2 := a2 },
        storage := fun _ => none }
    (∃ t, handleSyscallById scriptedVm .callDataCopy calldata (m 8 2) = .ok .continues t ∧
      (∀ j < 8, scriptedMemory.byte t.inst (40 + j) = ([3, 4, 5, 0, 0, 0, 0, 0] : Buffer).getD j 0) ∧
      scriptedMemory.byte t.inst 48 = 7) ∧
    handleSyscallById scriptedVm .callDataLoad calldata (m 2 0) = .ok .continues
      { m 2 0 with inst := scriptedVm.writeMemory (m 2 0).inst 40 (zeros 29 ++ [5, 4, 3]) } := by
  intro calldata m
  obtain ⟨hcopy, hload⟩ := calldata_reads_window scriptedVm scriptedMemory calldata
  have hmapped : OutputMapped scriptedMemory (m 8 2) :=
    ⟨by decide, fun i _ hi => lt_of_lt_of_le (show i < 40 + 8 from hi) (by decide)⟩
  obtain ⟨⟨t, ht, -, -, hinside, houtside⟩, -⟩ := hcopy (m 8 2) hmapped
  refine ⟨⟨t, ht, fun j hj => ?_, houtside 48 (.inr (by decide))⟩, ?_⟩
  · rw [show 40 + j = (outPtr scriptedVm (m 8 2)).toNat + j from rfl, hinside j hj]
    revert j
    decide
  · obtain ⟨data, hdata, -, hwindow, -⟩ := hload (m 2 0)
    have hbytes : (window 0 calldata 2 32).reverse = zeros 29 ++ [5, 4, 3] := by decide
    rw [hdata, hwindow, ← hbytes]
    rfl

end Samples

end RiscVContracts.CalldataCopy
