import RiscVContracts.Lib.Bytes
import RiscVContracts.Lib.Checked
import Mathlib.Algebra.BigOperators.Intervals
import Mathlib.Algebra.BigOperators.Ring.Finset
import Mathlib.Logic.Function.Basic
import Mathlib.Tactic.NormNum
import Mathlib.Tactic.Ring

namespace RiscVContracts.Benchmarks

open Bytes Checked

abbrev U256 := BitVec 256

section Arithmetic

def compute (a b : U256) : Except Panic U256 := do
  let result ← add 0 (← add a b)
  let result ← add result (← mul a b)
  let result ← add result (← div a (← add b 1))
  add result (← mod a (← add b 1))

def computeMany (iterations : U256) : Except Panic U256 :=
  forLoop (fun i => i ≤ iterations) (fun i sum => do add sum (← div (← mul i i) i)) 1 0

theorem compute_eq (a b : U256) : compute a b =
    if b.toNat + 1 < 2 ^ 256 then
      fits 256 (a.toNat + b.toNat + a.toNat * b.toNat + a.toNat / (b.toNat + 1) + a.toNat % (b.toNat + 1))
    else .error .overflow := by
  have hsum : Adds (fun s => add a b >>= add s) (a.toNat + b.toNat) := by
    rw [add_eq]
    exact adds_fits _
  have hprod : Adds (fun s => mul a b >>= add s) (a.toNat * b.toNat) := by
    rw [mul_eq]
    exact adds_fits _
  have hfirst := (hsum.bind hprod).start
  have hcompute : compute a b = ((add a b >>= add 0) >>= fun s => mul a b >>= add s) >>= fun s =>
      (add b 1 >>= div a >>= add s) >>= fun s => add b 1 >>= mod a >>= add s := by
    simp only [compute, bind_assoc]
  rw [hcompute, hfirst]
  split
  · rename_i hb
    have hnext : add b 1 = .ok (b + 1) := if_pos hb
    have hn : (b + 1).toNat = b.toNat + 1 := BitVec.toNat_add_of_lt hb
    have hne : b + 1 ≠ 0 := fun h0 => by
      rw [h0] at hn
      exact absurd hn (by simp)
    have hdiv : Adds (fun s => add b 1 >>= div a >>= add s) (a.toNat / (b.toNat + 1)) := by
      have hq : div a (b + 1) = .ok (a / (b + 1)) := if_neg hne
      have h := adds_add (a / (b + 1))
      rw [BitVec.toNat_udiv, hn] at h
      rw [hnext]
      change Adds (fun s => div a (b + 1) >>= add s) _
      rw [hq]
      exact h
    have hmod : Adds (fun s => add b 1 >>= mod a >>= add s) (a.toNat % (b.toNat + 1)) := by
      have hr : mod a (b + 1) = .ok (a % (b + 1)) := if_neg hne
      have h := adds_add (a % (b + 1))
      rw [BitVec.toNat_umod, hn] at h
      rw [hnext]
      change Adds (fun s => mod a (b + 1) >>= add s) _
      rw [hr]
      exact h
    rw [← hfirst]
    have hall := ((hsum.bind hprod).bind (hdiv.bind hmod)).start
    rw [← Nat.add_assoc] at hall
    exact hall
  · rename_i hb
    have hnext : add b 1 = .error .overflow := if_neg hb
    rw [hnext]
    exact fits_bind_error

theorem adds_computeMany {i : Nat} (h0 : 0 < i) (hi : i < 2 ^ 128) :
    Adds (fun sum => do add sum (← div (← mul (BitVec.ofNat 256 i) (BitVec.ofNat 256 i))
      (BitVec.ofNat 256 i))) i := by
  have hlt : i < 2 ^ 256 := hi.trans (by norm_num)
  have hsq : i * i < 2 ^ 256 := (Nat.mul_lt_mul'' hi hi).trans_eq (by norm_num)
  have hto : (BitVec.ofNat 256 i).toNat = i := by rw [BitVec.toNat_ofNat, Nat.mod_eq_of_lt hlt]
  have hmul : mul (BitVec.ofNat 256 i) (BitVec.ofNat 256 i) = .ok (BitVec.ofNat 256 (i * i)) := by
    rw [mul_eq, hto, fits_of_lt hsq]
  have hne : BitVec.ofNat 256 i ≠ 0 := fun h => by
    rw [h] at hto
    exact absurd h0 (by rw [← hto]; decide)
  have hdiv : div (BitVec.ofNat 256 (i * i)) (BitVec.ofNat 256 i) = .ok (BitVec.ofNat 256 i) := by
    rw [div, if_neg hne]
    refine congrArg Except.ok (BitVec.eq_of_toNat_eq ?_)
    rw [BitVec.toNat_udiv, hto, BitVec.toNat_ofNat, Nat.mod_eq_of_lt hsq, Nat.mul_div_cancel _ h0]
  intro s
  simp only [hmul]
  change (div _ _ >>= add s) = _
  rw [hdiv]
  exact (adds_add _ s).trans (by rw [hto])

theorem computeMany_eq (n : U256) : computeMany n =
    if n.toNat < 2 ^ 128 then fits 256 (n.toNat * (n.toNat + 1) / 2) else .error .overflow := by
  have hle (k : Nat) (hk : k < 2 ^ 256) : decide (BitVec.ofNat 256 k ≤ n) = true ↔ k ≤ n.toNat := by
    rw [decide_eq_true_iff, BitVec.le_def, BitVec.toNat_ofNat, Nat.mod_eq_of_lt hk]
  have hn := n.isLt
  have hrounds (m : Nat) (hm : m < 2 ^ 128) : Adds (fun s => (List.range' 1 m).foldlM
      (fun s k => do add s (← div (← mul (BitVec.ofNat 256 k) (BitVec.ofNat 256 k)) (BitVec.ofNat 256 k))) s)
      (m * (m + 1) / 2) := by
    have h : Adds _ _ := Adds.foldlM (i := 1) (m := m) fun k hk hlt =>
      adds_computeMany (i := k) hk (by omega)
    have hsum : ∑ k ∈ Finset.range m, (1 + k) = m * (m + 1) / 2 := by
      have h := Finset.sum_range_id (m + 1)
      rw [Finset.sum_range_succ', Nat.add_sub_cancel, Nat.add_zero, Nat.mul_comm] at h
      rw [← h]
      exact Finset.sum_congr rfl fun k _ => Nat.add_comm 1 k
    rwa [hsum] at h
  split
  · rename_i hlt
    rw [← (hrounds n.toNat hlt).start]
    refine forLoop_eq (i := 1) (m := n.toNat) (fun k hk hkn => (hle k (by omega)).mpr (by omega)) ?_
      (by omega) 0
    exact Bool.eq_false_iff.mpr (mt (hle (1 + n.toNat) (by omega)).mp (by omega))
  · rename_i hlt
    have hlast : ∃ t, (List.range' 1 (2 ^ 128 - 1)).foldlM (fun s k => do
        add s (← div (← mul (BitVec.ofNat 256 k) (BitVec.ofNat 256 k)) (BitVec.ofNat 256 k))) (0 : U256) =
          Except.ok t :=
      ⟨_, (hrounds (2 ^ 128 - 1) (by norm_num)).start.trans (fits_of_lt (by norm_num))⟩
    obtain ⟨t, ht⟩ := hlast
    refine forLoop_panics (i := 1) (m := 2 ^ 128 - 1) (fun k hk hkn => (hle k (by omega)).mpr (by omega))
      (by norm_num) (fun s => ?_) ht
    have hsq : mul (BitVec.ofNat 256 (1 + (2 ^ 128 - 1))) (BitVec.ofNat 256 (1 + (2 ^ 128 - 1))) =
        .error .overflow := by
      rw [mul_eq, BitVec.toNat_ofNat]
      exact fits_of_le (by norm_num)
    rw [hsq]
    rfl

end Arithmetic

section Loops

def sumBelow (n : U256) : Except Panic U256 := forLoop (fun i => i < n) (fun i sum => add sum i) 0 0

def simpleLoop (n : U256) : Except Panic U256 := sumBelow n

def nestedLoop (n : U256) : Except Panic U256 :=
  forLoop (fun i => i < n)
    (fun i sum => forLoop (fun j => j < n) (fun j sum => do add sum (← mul i j)) 0 sum) 0 0

def whileLoop (n : U256) : Except Panic U256 := sumBelow n

theorem toNat_ofNat_of_lt {n : U256} {k : Nat} (h : k < n.toNat) : (BitVec.ofNat 256 k).toNat = k := by
  rw [BitVec.toNat_ofNat, Nat.mod_eq_of_lt (h.trans n.isLt)]

theorem sumBelow_eq (n : U256) : sumBelow n = fits 256 (n.toNat * (n.toNat - 1) / 2) := by
  have h : Adds (forLoop (fun i => i < n) (fun i sum => add sum i) 0) (∑ k ∈ Finset.range n.toNat, k) := by
    refine adds_forLoop n fun k hk => ?_
    have hadd := adds_add (BitVec.ofNat 256 k)
    rwa [toNat_ofNat_of_lt hk] at hadd
  rw [sumBelow, h.start, Finset.sum_range_id]

theorem nestedLoop_eq (n : U256) : nestedLoop n = fits 256 ((n.toNat * (n.toNat - 1) / 2) ^ 2) := by
  have hinner (i : Nat) (hi : i < n.toNat) : Adds
      (forLoop (fun j => j < n) (fun j sum => do add sum (← mul (BitVec.ofNat 256 i) j)) 0)
      (∑ j ∈ Finset.range n.toNat, i * j) := by
    refine adds_forLoop n fun j hj => ?_
    have hmul := mul_eq (BitVec.ofNat 256 i) (BitVec.ofNat 256 j)
    rw [toNat_ofNat_of_lt hi, toNat_ofNat_of_lt hj] at hmul
    simp only [hmul]
    exact adds_fits (i * j)
  have h : Adds (forLoop (fun i => i < n)
      (fun i sum => forLoop (fun j => j < n) (fun j sum => do add sum (← mul i j)) 0 sum) 0)
      (∑ i ∈ Finset.range n.toNat, ∑ j ∈ Finset.range n.toNat, i * j) :=
    adds_forLoop n fun i hi s => hinner i hi s
  have hsum : ∑ i ∈ Finset.range n.toNat, ∑ j ∈ Finset.range n.toNat, i * j =
      (n.toNat * (n.toNat - 1) / 2) ^ 2 := by
    rw [← Finset.sum_mul_sum, Finset.sum_range_id, sq]
  rw [nestedLoop, h.start, hsum]

/-- The nested loops compute the square of what one loop computes, or panic. -/
theorem loops_exact (n : U256) :
    simpleLoop n = fits 256 (n.toNat * (n.toNat - 1) / 2) ∧
      whileLoop n = fits 256 (n.toNat * (n.toNat - 1) / 2) ∧
      nestedLoop n = (simpleLoop n >>= fun sum => mul sum sum) := by
  refine ⟨sumBelow_eq n, sumBelow_eq n, ?_⟩
  rw [nestedLoop_eq, simpleLoop, sumBelow_eq, sq]
  generalize n.toNat * (n.toNat - 1) / 2 = total
  by_cases h : total < 2 ^ 256
  · rw [fits_of_lt h]
    refine Eq.symm ((pure_bind _ _).trans ?_)
    rw [mul_eq, BitVec.toNat_ofNat, Nat.mod_eq_of_lt h]
  · have hle := Nat.not_lt.mp h
    rw [fits_of_le hle, fits_of_le (hle.trans (Nat.le_mul_self total))]
    rfl

end Loops

section Hashes

variable (keccak : Buffer → Buffer)

def hashOnce (data : Buffer) : Buffer := keccak data

/-- A hash is its own packed encoding. -/
def hashMany (iterations : U256) : Except Panic Buffer :=
  forLoop (fun i => i < iterations) (fun _ result => pure (keccak result)) 1 (keccak (zeros 32))

/-- `new bytes(size)`, where memory can hold `limit` of them. -/
def newBytes (limit : Nat) (size : U256) : Except Panic Buffer :=
  if size.toNat ≤ limit then pure (zeros size.toNat) else throw .memory

def setByte (data : Buffer) (i : U256) (b : UInt8) : Except Panic Buffer :=
  if i.toNat < data.length then pure (data.set i.toNat b) else throw .index

def hashVariableSize (limit : Nat) (dataSize : U256) : Except Panic Buffer := do
  let data ← newBytes limit dataSize
  let data ← forLoop (fun i => i < dataSize)
    (fun i data => setByte data i (UInt8.ofNat (i &&& 0xff).toNat)) 0 data
  return keccak data

def ramp (n : Nat) : Buffer := (List.range n).map UInt8.ofNat

theorem ramp_length (n : Nat) : (ramp n).length = n := by simp [ramp]

theorem ramp_succ (n : Nat) : ramp (n + 1) = ramp n ++ [UInt8.ofNat n] := by
  simp [ramp, List.range_succ]

theorem ofNat_low_byte {n : U256} {k : Nat} (hk : k < n.toNat) :
    UInt8.ofNat (BitVec.ofNat 256 k &&& 0xff).toNat = UInt8.ofNat k := by
  have hff : (0xff : U256).toNat = 2 ^ 8 - 1 := rfl
  rw [BitVec.toNat_and, toNat_ofNat_of_lt hk, hff, Nat.and_two_pow_sub_one_eq_mod]
  apply UInt8.toNat_inj.mp
  simp

theorem hashMany_eq (n : U256) : hashMany keccak n = .ok (keccak^[n.toNat - 1] (keccak (zeros 32))) := by
  have hn := n.isLt
  have hle (k : Nat) (hk : k < 2 ^ 256) : decide (BitVec.ofNat 256 k < n) = true ↔ k < n.toNat := by
    rw [decide_eq_true_iff, BitVec.lt_def, BitVec.toNat_ofNat, Nat.mod_eq_of_lt hk]
  refine (forLoop_eq (i := 1) (m := n.toNat - 1) ?_ ?_ (by omega) (keccak (zeros 32))).trans ?_
  · intro k _ hk
    exact (hle k (by omega)).mpr (by omega)
  · exact Bool.eq_false_iff.mpr (mt (hle _ (by omega)).mp (by omega))
  · rw [List.foldlM_pure, List.foldl_const keccak, List.length_range']
    rfl

theorem fill_rounds (n : U256) :
    (List.range' 0 n.toNat).foldlM (fun data k =>
      setByte data (BitVec.ofNat 256 k) (UInt8.ofNat (BitVec.ofNat 256 k &&& 0xff).toNat)) (zeros n.toNat) =
        (.ok (ramp n.toNat) : Except Panic Buffer) := by
  refine (foldlM_rounds (fun k => .ok (ramp k ++ zeros (n.toNat - k))) rfl fun k hk => ?_).trans ?_
  · have hlt : k < (ramp k ++ zeros (n.toNat - k)).length := by
      rw [List.length_append, ramp_length, zeros_length]
      omega
    have hrest : n.toNat - k = n.toNat - (k + 1) + 1 := by omega
    change setByte _ _ _ = _
    rw [ofNat_low_byte hk, setByte, toNat_ofNat_of_lt hk, if_pos hlt,
      List.set_append_right _ _ (ramp_length k).le, ramp_length, Nat.sub_self, ramp_succ, hrest, zeros,
      List.replicate_succ, List.set_cons_zero, List.append_assoc]
    rfl
  · rw [Nat.sub_self, zeros, List.replicate_zero, List.append_nil]

/-- The hashing loops: one hash over another, at least one of them, and the
hash of as many bytes as asked for, no index out of bounds. -/
theorem hashes_exact (limit : Nat) (n : U256) :
    hashMany keccak n = .ok (keccak^[max n.toNat 1] (zeros 32)) ∧
      hashVariableSize keccak limit n =
        if n.toNat ≤ limit then .ok (hashOnce keccak (ramp n.toNat)) else .error .memory := by
  constructor
  · rw [hashMany_eq, ← Function.iterate_succ_apply]
    exact congrArg (fun m => Except.ok (keccak^[m] (zeros 32))) (by omega)
  · rw [hashVariableSize, newBytes]
    split
    · refine (pure_bind _ _).trans ?_
      rw [forLoop_below, fill_rounds]
      rfl
    · rfl

end Hashes

section Storage

@[ext] structure Slots where
  data : U256 → U256
  counter : U256

def writeSequential (count : U256) (s : Slots) : Except Panic Slots := do
  let s ← forLoop (fun i => i < count)
    (fun i s => do return { s with data := Function.update s.data i (← mul i 2) }) 0 s
  return { s with counter := count }

def readSequential (count : U256) (s : Slots) : Except Panic U256 :=
  forLoop (fun i => i < count) (fun i sum => add sum (s.data i)) 0 0

def writeRead (iterations : U256) (s : Slots) : Except Panic Slots :=
  forLoop (fun i => i < iterations)
    (fun i s => do
      let s := { s with data := Function.update s.data i i }
      return { s with counter := ← add s.counter (s.data i) }) 0 s

def written (m : Nat) (f data : U256 → U256) : U256 → U256 := fun i => if i.toNat < m then f i else data i

theorem written_zero (f data : U256 → U256) : written 0 f data = data := by
  funext i
  rw [written, if_neg (Nat.not_lt_zero _)]

theorem update_written {m : Nat} (hm : m < 2 ^ 256) (f data : U256 → U256) :
    Function.update (written m f data) (BitVec.ofNat 256 m) (f (BitVec.ofNat 256 m)) =
      written (m + 1) f data := by
  have hto : (BitVec.ofNat 256 m).toNat = m := by rw [BitVec.toNat_ofNat, Nat.mod_eq_of_lt hm]
  funext i
  by_cases hi : i = BitVec.ofNat 256 m
  · subst hi
    rw [Function.update_self, written, if_pos (by omega)]
  · have hne : i.toNat ≠ m := fun h => hi (BitVec.eq_of_toNat_eq (h.trans hto.symm))
    rw [Function.update_of_ne hi, written, written]
    by_cases hlt : i.toNat < m
    · rw [if_pos hlt, if_pos (by omega)]
    · rw [if_neg hlt, if_neg (by omega)]

theorem written_of_lt {m : Nat} {f data : U256 → U256} {i : U256} (hi : i.toNat < m) :
    written m f data i = f i := if_pos hi

theorem writeSequential_rounds {m : Nat} (hm : m ≤ 2 ^ 255) (s : Slots) :
    (List.range' 0 m).foldlM (fun (s : Slots) k => do
      return { s with data := Function.update s.data (BitVec.ofNat 256 k) (← mul (BitVec.ofNat 256 k) 2) }) s =
      (.ok { s with data := written m (· * 2) s.data } : Except Panic Slots) := by
  refine foldlM_rounds (fun k => .ok { s with data := written k (· * 2) s.data }) (by rw [written_zero])
    fun k hk => ?_
  have hmul : mul (BitVec.ofNat 256 k) 2 = .ok (BitVec.ofNat 256 k * 2) := by
    refine if_pos ?_
    rw [BitVec.toNat_ofNat, Nat.mod_eq_of_lt (by omega)]
    change k * 2 < 2 ^ 256
    omega
  rw [← update_written (by omega), hmul]
  rfl

theorem toNat_double {k : Nat} (hk : k < 2 ^ 255) : (BitVec.ofNat 256 k * 2).toNat = k * 2 := by
  have htwo : (2 : U256).toNat = 2 := rfl
  rw [BitVec.toNat_mul, BitVec.toNat_ofNat, htwo, Nat.mod_eq_of_lt (show k < 2 ^ 256 by omega),
    Nat.mod_eq_of_lt (by omega)]

/-- The write panics for the first entry whose double has no word. -/
theorem writeSequential_eq (count : U256) (s : Slots) : writeSequential count s =
    if count.toNat ≤ 2 ^ 255 then
      .ok { data := written count.toNat (· * 2) s.data, counter := count } else .error .overflow := by
  split
  · rename_i hle
    rw [writeSequential, forLoop_below, writeSequential_rounds hle]
    rfl
  · rename_i hlt
    have hcond (k : Nat) (hk : k ≤ 0 + 2 ^ 255) : decide (BitVec.ofNat 256 k < count) = true := by
      rw [decide_eq_true_iff, BitVec.lt_def, BitVec.toNat_ofNat, Nat.mod_eq_of_lt (by omega)]
      omega
    have hpanic : mul (BitVec.ofNat 256 (0 + 2 ^ 255)) 2 = .error .overflow := by
      have htwo : (2 : U256).toNat = 2 := rfl
      rw [mul_eq, BitVec.toNat_ofNat, htwo]
      exact fits_of_le (by norm_num)
    have hloop : forLoop (fun i => i < count) (fun i (s : Slots) => do
        return { s with data := Function.update s.data i (← mul i 2) }) (BitVec.ofNat 256 0) s =
          .error .overflow :=
      forLoop_panics (fun k _ hk => hcond k hk) (by norm_num)
        (fun s => by simp only [hpanic]; rfl) (writeSequential_rounds le_rfl s)
    exact congrArg (· >>= fun s => pure { s with counter := count }) hloop

theorem writeRead_eq (n : U256) (s : Slots) : writeRead n s =
    (fits 256 (s.counter.toNat + n.toNat * (n.toNat - 1) / 2)).map fun c =>
      { data := written n.toNat id s.data, counter := c } := by
  rw [writeRead, forLoop_below, ← Finset.sum_range_id]
  refine foldlM_rounds (fun m => (fits 256 (s.counter.toNat + ∑ k ∈ Finset.range m, k)).map fun c =>
    Slots.mk (written m id s.data) c) ?_ fun m hm => ?_
  · rw [written_zero, Finset.sum_range_zero, Nat.add_zero, fits_of_lt s.counter.isLt, BitVec.ofNat_toNat,
      BitVec.setWidth_eq]
    rfl
  · rw [Finset.sum_range_succ, ← Nat.add_assoc]
    by_cases h : s.counter.toNat + ∑ k ∈ Finset.range m, k < 2 ^ 256
    · have hadd : add (BitVec.ofNat 256 (s.counter.toNat + ∑ k ∈ Finset.range m, k)) (BitVec.ofNat 256 m) =
          fits 256 (s.counter.toNat + ∑ k ∈ Finset.range m, k + m) := by
        rw [add_eq, toNat_ofNat_of_lt hm, BitVec.toNat_ofNat, Nat.mod_eq_of_lt h]
      rw [fits_of_lt h, ← update_written (hm.trans n.isLt) id s.data]
      change (do
        let c ← add (BitVec.ofNat 256 (s.counter.toNat + ∑ k ∈ Finset.range m, k))
          (Function.update (written m id s.data) (BitVec.ofNat 256 m) (BitVec.ofNat 256 m) (BitVec.ofNat 256 m))
        pure (Slots.mk (Function.update (written m id s.data) (BitVec.ofNat 256 m) (BitVec.ofNat 256 m)) c)) = _
      rw [Function.update_self, hadd]
      cases fits 256 (s.counter.toNat + ∑ k ∈ Finset.range m, k + m) <;> rfl
    · have hle := Nat.not_lt.mp h
      rw [fits_of_le hle, fits_of_le (hle.trans (Nat.le_add_right ..))]
      rfl

theorem readSequential_eq (count : U256) (s : Slots) : readSequential count s =
    fits 256 (∑ k ∈ Finset.range count.toNat, (s.data (BitVec.ofNat 256 k)).toNat) := by
  have h : Adds (forLoop (fun i => i < count) (fun i sum => add sum (s.data i)) 0)
      (∑ k ∈ Finset.range count.toNat, (s.data (BitVec.ofNat 256 k)).toNat) :=
    adds_forLoop count fun k _ => adds_add _
  rw [readSequential, h.start]

theorem readSequential_written {n : U256} {m : Nat} {f : U256 → U256} {d : Nat → Nat} {s : Slots} {c : U256}
    (hm : n.toNat ≤ m) (hf : ∀ k < n.toNat, (f (BitVec.ofNat 256 k)).toNat = d k) :
    readSequential n ⟨written m f s.data, c⟩ = fits 256 (∑ k ∈ Finset.range n.toNat, d k) := by
  refine (readSequential_eq n _).trans (congrArg _ (Finset.sum_congr rfl fun k hk => ?_))
  have hlt : k < n.toNat := Finset.mem_range.mp hk
  have hto := toNat_ofNat_of_lt hlt
  exact (congrArg BitVec.toNat (written_of_lt (by omega))).trans (hf k hlt)

/-- What was written is read back, or the sum has no word. -/
theorem writes_read_back (count iterations n : U256) (s : Slots) (hcount : n ≤ count)
    (hiterations : n ≤ iterations) :
    (writeSequential count s >>= readSequential n) =
        (if count.toNat ≤ 2 ^ 255 then fits 256 (n.toNat * (n.toNat - 1)) else .error .overflow) ∧
      (writeRead iterations s >>= readSequential n) =
        (if s.counter.toNat + iterations.toNat * (iterations.toNat - 1) / 2 < 2 ^ 256 then
          fits 256 (n.toNat * (n.toNat - 1) / 2) else .error .overflow) := by
  constructor
  · rw [writeSequential_eq]
    split
    · rename_i hle
      rw [← Finset.sum_range_id_mul_two, Finset.sum_mul]
      refine (pure_bind _ _).trans (readSequential_written hcount fun k hk => ?_)
      have hn : n.toNat ≤ count.toNat := hcount
      exact toNat_double (by omega)
    · rfl
  · rw [writeRead_eq]
    split
    · rename_i hlt
      rw [fits_of_lt hlt]
      refine (pure_bind _ _).trans ((readSequential_written hiterations fun k hk =>
        toNat_ofNat_of_lt hk).trans ?_)
      rw [Finset.sum_range_id]
    · rename_i hle
      rw [fits_of_le (Nat.not_lt.mp hle)]
      rfl

theorem writes_read_back_sample : (3 : U256) ≤ 5 ∧ (3 : U256) ≤ 4 ∧
    (writeSequential 5 ⟨fun _ => 0, 0⟩ >>= readSequential 3) = .ok 6 ∧
    (writeRead 4 ⟨fun _ => 0, 0⟩ >>= readSequential 3) = .ok 3 :=
  have h := writes_read_back 5 4 3 ⟨fun _ => 0, 0⟩ (by decide) (by decide)
  ⟨by decide, by decide, h.1, h.2⟩

inductive Write
  | sequential (count : U256)
  | interleaved (iterations : U256)

def Write.attempt : Write → Slots → Except Panic Slots
  | .sequential count, s => writeSequential count s
  | .interleaved iterations, s => writeRead iterations s

/-- The storage after a call; a call that panics leaves it as it was. -/
def Write.after (call : Write) (s : Slots) : Slots :=
  match call.attempt s with
  | .ok t => t
  | .error _ => s

def deployed : Slots := ⟨fun _ => 0, 0⟩

def Doubled (s : Slots) : Prop := ∀ i, (s.data i).toNat ≤ 2 * i.toNat

theorem Doubled.written {s : Slots} (h : Doubled s) {n : Nat} {f : U256 → U256} {c : U256}
    (hf : ∀ i, i.toNat < n → (f i).toNat ≤ 2 * i.toNat) : Doubled ⟨written n f s.data, c⟩ := by
  intro i
  simp only [Benchmarks.written]
  split
  · exact hf i ‹_›
  · exact h i

theorem Doubled.after {s : Slots} (h : Doubled s) (call : Write) : Doubled (call.after s) := by
  cases call with
  | sequential count =>
      rw [Write.after, Write.attempt, writeSequential_eq]
      by_cases hle : count.toNat ≤ 2 ^ 255
      · rw [if_pos hle]
        refine h.written fun i hi => ?_
        rw [BitVec.toNat_mul]
        exact (Nat.mod_le _ _).trans_eq (Nat.mul_comm ..)
      · rw [if_neg hle]
        exact h
  | interleaved iterations =>
      rw [Write.after, Write.attempt, writeRead_eq]
      cases fits 256 (s.counter.toNat + iterations.toNat * (iterations.toNat - 1) / 2) with
      | ok c => exact h.written fun i _ => Nat.le_mul_of_pos_left _ (by decide)
      | error _ => exact h

theorem doubled_run (calls : List Write) : Doubled (calls.foldl (fun s call => call.after s) deployed) := by
  have hstart : Doubled deployed := fun i => Nat.zero_le _
  generalize deployed = s at hstart
  induction calls generalizing s with
  | nil => exact hstart
  | cons call calls ih => exact ih _ (hstart.after call)

/-- The longest read that returns after every run of calls. -/
theorem readSequential_returns_iff (count : U256) :
    (∀ calls : List Write, ∃ sum,
      readSequential count (calls.foldl (fun s call => call.after s) deployed) = .ok sum) ↔
      count.toNat ≤ 2 ^ 128 := by
  have hdouble : ∑ k ∈ Finset.range count.toNat, 2 * k = count.toNat * (count.toNat - 1) := by
    rw [← Finset.mul_sum, Nat.mul_comm, Finset.sum_range_id_mul_two]
  constructor
  · intro h
    by_contra hlong
    obtain ⟨c, hc⟩ : ∃ c : U256, c.toNat = 2 ^ 128 + 1 := ⟨BitVec.ofNat 256 (2 ^ 128 + 1), rfl⟩
    obtain ⟨sum, hsum⟩ := h [.sequential c]
    have hstored : (Write.sequential c).after deployed =
        ⟨written c.toNat (· * 2) deployed.data, c⟩ := by
      rw [Write.after, Write.attempt, writeSequential_eq, if_pos (by omega)]
    have hpart : ∑ k ∈ Finset.range c.toNat, k * 2 ≤ ∑ k ∈ Finset.range count.toNat,
        (written c.toNat (· * 2) deployed.data (BitVec.ofNat 256 k)).toNat := by
      calc ∑ k ∈ Finset.range c.toNat, k * 2
          = ∑ k ∈ Finset.range c.toNat,
              (written c.toNat (· * 2) deployed.data (BitVec.ofNat 256 k)).toNat := by
            refine Finset.sum_congr rfl fun k hk => ?_
            have hlt : k < c.toNat := Finset.mem_range.mp hk
            have hk := toNat_ofNat_of_lt hlt
            rw [written_of_lt (by omega), toNat_double (by omega)]
        _ ≤ _ := Finset.sum_le_sum_of_subset (Finset.range_subset_range.mpr (by omega))
    rw [← Finset.sum_mul, Finset.sum_range_id_mul_two, hc] at hpart
    rw [List.foldl_cons, List.foldl_nil, hstored, readSequential_eq, hc] at hsum
    rw [fits_of_le ((show 2 ^ 256 ≤ (2 ^ 128 + 1) * (2 ^ 128 + 1 - 1) by norm_num).trans hpart)] at hsum
    cases hsum
  · intro hle calls
    have hsum := doubled_run calls
    generalize calls.foldl (fun s call => call.after s) deployed = s at hsum ⊢
    have hbound : ∑ k ∈ Finset.range count.toNat, (s.data (BitVec.ofNat 256 k)).toNat ≤
        count.toNat * (count.toNat - 1) := by
      rw [← hdouble]
      refine Finset.sum_le_sum fun k hk => ?_
      have hto := toNat_ofNat_of_lt (Finset.mem_range.mp hk)
      exact (hsum _).trans_eq (by rw [hto])
    have hlt : count.toNat * (count.toNat - 1) < 2 ^ 256 := by
      calc count.toNat * (count.toNat - 1) ≤ 2 ^ 128 * (2 ^ 128 - 1) :=
            Nat.mul_le_mul hle (Nat.sub_le_sub_right hle 1)
        _ < 2 ^ 256 := by norm_num
    exact ⟨_, (readSequential_eq count s).trans (fits_of_lt (hbound.trans_lt hlt))⟩

end Storage

end RiscVContracts.Benchmarks
