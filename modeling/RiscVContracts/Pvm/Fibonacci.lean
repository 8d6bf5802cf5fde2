import RiscVContracts.Pvm.Hosting
import Mathlib.Data.Nat.Fib.Basic

namespace RiscVContracts.Fibonacci

open Bytes Memory Writes Runner Executor HostStorage Dialogues Hosting

/-- The sum wraps: the contract is built without overflow checks. -/
def fibonacci (n : U32) : U32 :=
  if n = 0 then 0
  else if n = 1 then 1
  else fibonacci (n - 1) + fibonacci (n - 2)
termination_by n.toNat
decreasing_by
  all_goals
    have hpos : 0 < n.toNat := Nat.pos_of_ne_zero fun h => ‹¬n = 0› (BitVec.eq_of_toNat_eq h)
    bv_omega

def selector : Buffer := [0xe4, 0x44, 0xa7, 0x09]

def respond (abiDecode : Buffer → Option U32) (callData : Buffer) : ExecOutcome :=
  if callData.length < 4 then .trap
  else if callData.take 4 = selector then
    match abiDecode callData with
    | some n => .returned 0 (beBytes 32 (fibonacci n).toNat)
    | none => .trap
  else .trap

/-- `allocates` says for which lengths of the calldata the allocator has room,
`abiDecode` decodes the arguments. -/
def call (allocates : Nat → Bool) (abiDecode : Buffer → Option U32) : Contract :=
  .ask .callDataSize fun callDataLen =>
    if allocates callDataLen.number.toNat then
      .ask (.callDataCopy (callDataLen.number.setWidth 32) 0) fun callData =>
        .done (respond abiDecode callData.data)
    else .done .trap

theorem fibonacci_add_two {n : Nat} (h : n + 2 < 2 ^ 32) : fibonacci (BitVec.ofNat 32 (n + 2)) =
    fibonacci (BitVec.ofNat 32 (n + 1)) + fibonacci (BitVec.ofNat 32 n) := by
  have hto : (BitVec.ofNat 32 (n + 2)).toNat = n + 2 := by rw [BitVec.toNat_ofNat, Nat.mod_eq_of_lt h]
  have h0 : BitVec.ofNat 32 (n + 2) ≠ 0 := fun h0 => by
    rw [h0] at hto
    exact absurd hto.symm (Nat.succ_ne_zero _)
  have h1 : BitVec.ofNat 32 (n + 2) ≠ 1 := fun h1 => by
    rw [h1] at hto
    exact absurd (Nat.succ.inj hto.symm) (Nat.succ_ne_zero _)
  have hpred : BitVec.ofNat 32 (n + 2) - 1 = BitVec.ofNat 32 (n + 1) := by bv_omega
  have hpred2 : BitVec.ofNat 32 (n + 2) - 2 = BitVec.ofNat 32 n := by bv_omega
  rw [fibonacci, if_neg h0, if_neg h1, hpred, hpred2]

theorem fibonacci_eq {n : Nat} (h : n < 2 ^ 32) : fibonacci (BitVec.ofNat 32 n) = BitVec.ofNat 32 n.fib := by
  induction n using Nat.twoStepInduction with
  | zero =>
      rw [fibonacci]
      rfl
  | one =>
      rw [fibonacci]
      rfl
  | more n ih ih' =>
      rw [fibonacci_add_two h, ih (by omega), ih' (by omega), Nat.fib_add_two,
        BitVec.ofNat_add, BitVec.add_comm]

theorem fib_lt_iff {n : Nat} : n.fib < 2 ^ 32 ↔ n ≤ 47 := by
  constructor
  · intro h
    by_contra hn
    have hle : Nat.fib 48 ≤ n.fib := Nat.fib_mono (by omega)
    have h48 : Nat.fib 48 = 4807526976 := by decide +kernel
    omega
  · intro h
    have hle : n.fib ≤ Nat.fib 47 := Nat.fib_mono h
    have h47 : Nat.fib 47 = 2971215073 := by decide +kernel
    omega

def Asks (abiDecode : Buffer → Option U32) (callData : Buffer) (n : U32) : Prop :=
  callData.take 4 = selector ∧ abiDecode callData = some n

instance (abiDecode : Buffer → Option U32) (callData : Buffer) (n : U32) :
    Decidable (Asks abiDecode callData n) := inferInstanceAs (Decidable (_ ∧ _))

variable {abiDecode : Buffer → Option U32} {allocates : Nat → Bool} {callData : Buffer}

theorem respond_of_asks {n : U32} (h : Asks abiDecode callData n) :
    respond abiDecode callData = .returned 0 (beBytes 32 (n.toNat.fib % 2 ^ 32)) := by
  obtain ⟨hsel, hn⟩ := h
  have hlen : ¬ callData.length < 4 := fun hlt => by
    have hl := congrArg List.length hsel
    rw [List.length_take, Nat.min_eq_right hlt.le] at hl
    exact absurd hl hlt.ne
  have hresult := congrArg BitVec.toNat (fibonacci_eq n.isLt)
  rw [BitVec.ofNat_toNat, BitVec.setWidth_eq, BitVec.toNat_ofNat] at hresult
  rw [respond, if_neg hlen, if_pos hsel, hn, ← hresult]

theorem respond_of_not_asks (h : ∀ n, ¬ Asks abiDecode callData n) : respond abiDecode callData = .trap := by
  rw [respond]
  split
  · rfl
  · split
    · rename_i hsel
      cases hd : abiDecode callData with
      | none => rfl
      | some n => exact absurd ⟨hsel, hd⟩ (h n)
    · rfl

theorem eval_call {keccak : Buffer → Word} {f : Word → Word} (hlen : callData.length < 2 ^ 32) :
    (call allocates abiDecode).eval (answer keccak callData) f =
      (if allocates callData.length then respond abiDecode callData else .trap, f) := by
  have hsize : (BitVec.ofNat 64 callData.length).toNat = callData.length := by
    rw [BitVec.toNat_ofNat, Nat.mod_eq_of_lt (hlen.trans (by decide))]
  have hcopied :
      window 0 callData 0 ((BitVec.ofNat 64 callData.length).setWidth 32 : U32).toNat = callData := by
    rw [toNat_length hlen]
    exact (window_inside 0 callData (Nat.zero_le _) le_rfl).trans List.take_length
  rw [call, Dialogue.eval]
  simp only [answer, Answer.number, hsize]
  split
  · rw [Dialogue.eval, Dialogue.eval]
    exact congrArg (fun data => (respond abiDecode data, f)) hcopied
  · rfl

theorem visits_call {keccak : Buffer → Word} {f g : Word → Word}
    (h : g ∈ (call allocates abiDecode).visits (answer keccak callData) f) : g = f := by
  rw [call, Dialogue.visits] at h
  split at h
  · simpa [Dialogue.visits, answer] using h
  · simpa [Dialogue.visits, answer] using h

/-- A guest that does what the contract says as far as its gas goes returns from
the call. When the gas lasts, and there is room for the calldata, it answers the
Fibonacci number modulo `2 ^ 32`, which is the number itself up to the 47th, and
it traps otherwise; the storage stays in any case. -/
theorem hosted_fibonacci {I : Type} {vm : Vm I} {mem : Writing vm} (hgas : Metered vm) {f : Word → Word}
    (c : Played mem (call allocates abiDecode) callData f) (hlen : callData.length < 2 ^ 32) :
    (∃ fuel r T, c.call fuel = .ok (some r) T) ∧
      ∀ fuel r T, c.call fuel = .ok (some r) T →
        T = sparse zeroWord f ∧ (c.outcome = .outOfGas → r = .error .outOfGas) ∧
        (c.outcome ≠ .outOfGas →
          (∀ n, allocates callData.length → Asks abiDecode callData n → ∃ gasUsed out, r = .ok (gasUsed, out) ∧
            out.length = 32 ∧ ofBeBytes out = n.toNat.fib % 2 ^ 32 ∧
              (ofBeBytes out = n.toNat.fib ↔ n.toNat ≤ 47)) ∧
          ((∀ n, allocates callData.length → ¬ Asks abiDecode callData n) → r = .error .trapped)) := by
  refine ⟨?_, fun fuel r T h => ?_⟩
  · obtain ⟨fuel, r, h, -⟩ := played_call hgas c
    exact ⟨fuel, r, _, h⟩
  obtain ⟨rfl, gasUsed, hr⟩ := played_call_unique hgas c h
  have heval := c.plays.eval_or_stops
  rw [eval_call hlen, Prod.mk.injEq] at heval
  have hleft : c.left = f := heval.elim (fun heq => heq.2) fun hstop => visits_call hstop.2
  refine ⟨congrArg _ hleft, fun hout => ?_, fun hlasts => ?_⟩
  · rw [hout] at hr
    exact hr
  obtain ⟨heq, -⟩ := heval.resolve_right fun hstop => hlasts (hstop.1.elim fun _ hu => hu.1)
  rw [heq] at hr
  refine ⟨fun n hroom hasks => ?_, fun hnot => ?_⟩
  · rw [if_pos hroom, respond_of_asks hasks] at hr
    have hsmall : n.toNat.fib % 2 ^ 32 < 256 ^ 32 := (Nat.mod_lt _ (by decide)).trans (by decide)
    refine ⟨gasUsed, _, hr, beBytes_length .., ?_⟩
    rw [ofBeBytes_beBytes, Nat.mod_eq_of_lt hsmall, Nat.mod_eq_iff_lt (by decide), fib_lt_iff]
    exact ⟨rfl, Iff.rfl⟩
  · by_cases hroom : allocates callData.length
    · rw [if_pos hroom, respond_of_not_asks fun n => hnot n hroom] at hr
      exact hr
    · rw [if_neg hroom] at hr
      exact hr

theorem sized_call (allocates : Nat → Bool) (abiDecode : Buffer → Option U32) :
    Sized (call allocates abiDecode) := by
  intro size
  dsimp only
  split
  · intro data
    simp only [respond]
    split
    · trivial
    · split
      · split
        · rw [Sized, beBytes_length]
          decide
        · trivial
      · trivial
  · trivial

def decodeCall (callData : Buffer) : Option U32 :=
  if callData.length < 36 then none else some (BitVec.ofNat 32 (ofBeBytes ((callData.drop 4).take 32)))

theorem hosted_fibonacci_sample :
    let c : Played (playerMemory fun _ => zeroWord) (call (· ≤ 512) decodeCall) (selector ++ beBytes 32 10)
        fun _ => zeroWord := (hostedPlayer _ (call _ _) (sized_call (· ≤ 512) decodeCall)).play _ _
    ∃ fuel T gasUsed out, c.call fuel = .ok (some (.ok (gasUsed, out))) T ∧ ofBeBytes out = 55 := by
  intro c
  have hlen : (selector ++ beBytes 32 10).length < 2 ^ 32 := by decide
  have hasks : Asks decodeCall (selector ++ beBytes 32 10) 10 := by decide +kernel
  have hlasts : c.outcome ≠ .outOfGas := by decide +kernel
  obtain ⟨⟨fuel, r, T, h⟩, hall⟩ := hosted_fibonacci metered_player c hlen
  obtain ⟨gasUsed, out, rfl, -, hout, -⟩ := ((hall fuel r T h).2.2 hlasts).1 10 (by decide) hasks
  have hfib : Nat.fib (10 : U32).toNat % 2 ^ 32 = 55 := by decide +kernel
  exact ⟨fuel, T, gasUsed, out, h, hout.trans hfib⟩

end RiscVContracts.Fibonacci
