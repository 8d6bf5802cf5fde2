import RiscVContracts.Lib.Bytes
import Mathlib.Data.List.Basic

namespace RiscVContracts.Bytecode

open Bytes

section Loading

def isWhitespace (c : Char) : Bool :=
  (9 ≤ c.toNat && c.toNat ≤ 13) || (0x2000 ≤ c.toNat && c.toNat ≤ 0x200a) ||
    [0x20, 0x85, 0xa0, 0x1680, 0x2028, 0x2029, 0x202f, 0x205f, 0x3000].contains c.toNat

def trim (text : List Char) : List Char :=
  ((text.dropWhile isWhitespace).reverse.dropWhile isWhitespace).reverse

def stripPrefix (text : List Char) : Option (List Char) :=
  match text with
  | '0' :: 'x' :: rest => some rest
  | _ => none

/-- Where the split is made: after the first `0xf3`, or one byte further. -/
def initLen (full : Buffer) : Nat :=
  let initLen := ((full.findIdx? (· == 0xf3)).map (· + 1)).getD 0
  if initLen > 0 ∧ initLen < full.length then
    let first := full.getD initLen 0
    if first = 0xf3 ∨ first = 0x90 then initLen + 1 else initLen
  else initLen

def split (full : Buffer) : Buffer × Buffer :=
  if full.length > initLen full ∧ initLen full > 0 then full.splitAt (initLen full) else (full, [])

def hexDigits (text : List Char) : List Char := (stripPrefix (trim text)).getD (trim text)

/-- Reads the initialisation code and the runtime code from the file's text;
`decode` decodes hexadecimal digits. -/
def loadEvmBytecode (readToString : Except String (List Char))
    (decode : List Char → Except String Buffer) : Except String (Buffer × Buffer) := do
  let hexStr ← readToString.mapError ("Failed to read EVM bytecode: " ++ ·)
  let full ← (decode (hexDigits hexStr)).mapError ("Invalid EVM bytecode hex: " ++ ·)
  return split full

theorem findIdx?_first {before after : Buffer} (h : 0xf3 ∉ before) :
    (before ++ 0xf3 :: after).findIdx? (· == 0xf3) = some before.length := by
  have hnone : before.findIdx? (· == 0xf3) = none :=
    List.findIdx?_eq_none_iff.mpr fun b hb => beq_false_of_ne (ne_of_mem_of_not_mem hb h)
  rw [List.findIdx?_append, hnone, List.findIdx?_cons, if_pos (by decide), Option.none_or,
    Option.map_some, Nat.zero_add]

theorem initLen_first {before : Buffer} (after : Buffer) (h : 0xf3 ∉ before) :
    initLen (before ++ 0xf3 :: after) =
      if after.head? = some 0xf3 ∨ after.head? = some 0x90 then before.length + 2
      else before.length + 1 := by
  rw [initLen, findIdx?_first h]
  cases after with
  | nil => simp
  | cons first rest =>
      have hlt : before.length + 1 < (before ++ 0xf3 :: first :: rest).length := by
        simp only [List.length_append, List.length_cons]
        omega
      have hfirst : (before ++ 0xf3 :: first :: rest).getD (before.length + 1) 0 = first := by
        rw [List.getD_eq_getElem?_getD, List.getElem?_append_right (Nat.le_succ _)]
        simp
      simp only [Option.map_some, Option.getD_some, hfirst, List.head?_cons, Option.some.injEq]
      exact if_pos ⟨Nat.succ_pos _, hlt⟩

theorem split_eq {full : Buffer} (h : 0 < initLen full) :
    split full = (full.take (initLen full), full.drop (initLen full)) := by
  by_cases hlt : initLen full < full.length
  · rw [split, if_pos ⟨hlt, h⟩, List.splitAt_eq]
  · have hle : full.length ≤ initLen full := Nat.not_lt.mp hlt
    rw [split, if_neg fun h => hlt h.1, List.take_of_length_le hle, List.drop_of_length_le hle]

theorem split_first {before after : Buffer} (h : 0xf3 ∉ before) : split (before ++ 0xf3 :: after) =
    if after.head? = some 0xf3 ∨ after.head? = some 0x90 then
      (before ++ 0xf3 :: after.take 1, after.drop 1)
    else (before ++ [0xf3], after) := by
  have hlen := initLen_first after h
  have hpos : 0 < initLen (before ++ 0xf3 :: after) := by
    rw [hlen]
    split <;> exact Nat.succ_pos _
  rw [split_eq hpos, hlen]
  split
  · rw [List.take_length_add_append, List.drop_length_add_append]
    rfl
  · rw [List.take_length_add_append, List.drop_length_add_append]
    rfl

end Loading

section Instructions

/-- How many bytes follow an opcode in the code: those that `PUSH1` to `PUSH32` push. -/
def immediateLength (opcode : UInt8) : Nat :=
  if 0x60 ≤ opcode ∧ opcode ≤ 0x7f then opcode.toNat - 0x5f else 0

structure Instruction where
  opcode : UInt8
  immediate : Buffer
  length_immediate : immediate.length = immediateLength opcode

def Instruction.bytes (i : Instruction) : Buffer := i.opcode :: i.immediate

def encode (instructions : List Instruction) : Buffer := instructions.flatMap Instruction.bytes

def returnInstruction : Instruction := ⟨0xf3, [], rfl⟩

variable {body : List Instruction}

theorem encode_concat (body : List Instruction) (last : Instruction) :
    encode (body ++ [last]) = encode body ++ last.opcode :: last.immediate := by
  rw [encode, List.flatMap_append, List.flatMap_singleton]
  rfl

theorem mem_encode (h : ∀ i ∈ body, i.opcode ≠ 0xf3) :
    0xf3 ∈ encode body ↔ ∃ i ∈ body, 0xf3 ∈ i.immediate := by
  rw [encode, List.mem_flatMap]
  refine exists_congr fun i => and_congr_right fun hi => ?_
  rw [Instruction.bytes, List.mem_cons]
  exact or_iff_right (h i hi).symm

theorem split_exact_bytes {code runtime : Buffer} (hruntime : runtime ≠ []) :
    split (code ++ 0xf3 :: runtime) = (code ++ [0xf3], runtime) ↔
      (0xf3 ∉ code ∧ runtime.head? ≠ some 0xf3 ∧ runtime.head? ≠ some 0x90) ∨
        ∃ before, code = before ++ [0xf3] ∧ 0xf3 ∉ before := by
  have hshift : runtime.drop 1 ≠ runtime := by
    intro h
    have hlength := congrArg List.length h
    have hpos := List.length_pos_iff.mpr hruntime
    rw [List.length_drop] at hlength
    omega
  by_cases hcode : 0xf3 ∈ code
  · obtain ⟨before, between, rfl, hbefore⟩ := List.eq_append_cons_of_mem hcode
    rw [List.append_assoc, List.cons_append, split_first hbefore]
    cases between with
    | nil =>
        refine iff_of_true ?_ (.inr ⟨before, rfl, hbefore⟩)
        rw [List.nil_append, List.head?_cons, if_pos (.inl rfl)]
        simp
    | cons first rest =>
        refine iff_of_false (fun h => ?_) ?_
        · have hlength := congrArg (fun p => p.2.length) h
          dsimp only at hlength
          split at hlength
          · simp only [List.cons_append, List.drop_succ_cons, List.drop_zero, List.length_append,
              List.length_cons] at hlength
            omega
          · simp only [List.length_append, List.length_cons] at hlength
            omega
        · rintro (⟨hmem, -⟩ | ⟨before', heq, hmem⟩)
          · exact hmem hcode
          · have hlast := congrArg List.dropLast heq
            rw [List.dropLast_concat, List.dropLast_append_of_ne_nil (List.cons_ne_nil _ _)] at hlast
            rw [← hlast] at hmem
            exact hmem (by simp)
  · rw [split_first hcode]
    have hright : (∃ before, code = before ++ [0xf3] ∧ 0xf3 ∉ before) ↔ False := by
      refine iff_of_false ?_ id
      rintro ⟨before, rfl, -⟩
      exact hcode (by simp)
    rw [hright, or_false, and_iff_right hcode, ← not_or]
    split
    · rename_i hhead
      exact iff_of_false (fun h => hshift (congrArg Prod.snd h)) (not_not_intro hhead)
    · rename_i hhead
      exact iff_of_true rfl hhead

/-- The first `0xf3` in the code of a body ends it exactly when it ends its last
instruction. -/
theorem encode_ends_iff (h : ∀ i ∈ body, i.opcode ≠ 0xf3) :
    (∃ before, encode body = before ++ [0xf3] ∧ 0xf3 ∉ before) ↔
      ∃ prior last start, body = prior ++ [last] ∧ (∀ i ∈ prior, 0xf3 ∉ i.immediate) ∧
        last.immediate = start ++ [0xf3] ∧ 0xf3 ∉ start := by
  constructor
  · rintro ⟨before, hcode, hbefore⟩
    obtain rfl | ⟨prior, last, rfl⟩ := List.eq_nil_or_concat' body
    · cases before <;> cases hcode
    · have hprior : ∀ i ∈ prior, i.opcode ≠ 0xf3 := fun i hi => h i (List.mem_append_left _ hi)
      have hlast : last.opcode ≠ 0xf3 := h last (by simp)
      rw [encode_concat] at hcode
      obtain himmediate | ⟨start, b, himmediate⟩ := List.eq_nil_or_concat' last.immediate
      · rw [himmediate] at hcode
        obtain ⟨-, hopcode⟩ := List.append_inj' hcode rfl
        exact absurd (List.singleton_inj.mp hopcode) hlast
      · rw [himmediate, ← List.cons_append, ← List.append_assoc] at hcode
        obtain ⟨rfl, hb⟩ := List.append_inj' hcode rfl
        obtain rfl := List.singleton_inj.mp hb
        simp only [List.mem_append, List.mem_cons, not_or] at hbefore
        refine ⟨prior, last, start, rfl, fun i hi himm => ?_, himmediate, hbefore.2.2⟩
        exact hbefore.1 ((mem_encode hprior).mpr ⟨i, hi, himm⟩)
  · rintro ⟨prior, last, start, rfl, hprior, himmediate, hstart⟩
    refine ⟨encode prior ++ last.opcode :: start, ?_, ?_⟩
    · rw [encode_concat, himmediate, List.append_assoc, List.cons_append]
    · have hcode : 0xf3 ∉ encode prior := by
        rw [mem_encode fun i hi => h i (List.mem_append_left _ hi)]
        rintro ⟨i, hi, himm⟩
        exact hprior i hi himm
      simp only [List.mem_append, List.mem_cons, not_or]
      exact ⟨hcode, (h last (by simp)).symm, hstart⟩

/-- Code that ends with its only `RETURN` is split from the runtime code behind
it exactly when no immediate holds `0xf3` and the runtime code starts with
neither `0xf3` nor `0x90`, or when the first such byte of an immediate is the
last byte before the `RETURN`. -/
theorem load_exact_iff (decode : List Char → Except String Buffer) (text : List Char)
    {body : List Instruction} {runtime : Buffer} (hbody : ∀ i ∈ body, i.opcode ≠ 0xf3)
    (hruntime : runtime ≠ [])
    (hdecode : decode (hexDigits text) = .ok (encode (body ++ [returnInstruction]) ++ runtime)) :
    loadEvmBytecode (.ok text) decode = .ok (encode (body ++ [returnInstruction]), runtime) ↔
      ((∀ i ∈ body, 0xf3 ∉ i.immediate) ∧ runtime.head? ≠ some 0xf3 ∧ runtime.head? ≠ some 0x90) ∨
        ∃ prior last start, body = prior ++ [last] ∧ (∀ i ∈ prior, 0xf3 ∉ i.immediate) ∧
          last.immediate = start ++ [0xf3] ∧ 0xf3 ∉ start := by
  have hload : loadEvmBytecode (.ok text) decode =
      .ok (split (encode (body ++ [returnInstruction]) ++ runtime)) := by
    change (((decode (hexDigits text)).mapError _) >>= _) = _
    rw [hdecode]
    rfl
  have hcode : encode (body ++ [returnInstruction]) = encode body ++ [0xf3] := encode_concat ..
  have hnone : 0xf3 ∉ encode body ↔ ∀ i ∈ body, 0xf3 ∉ i.immediate := by
    rw [mem_encode hbody]
    push Not
    rfl
  rw [hload, Except.ok.injEq, hcode, List.append_assoc, List.singleton_append,
    split_exact_bytes hruntime, hnone, encode_ends_iff hbody]

end Instructions

section Samples

def hexValue (c : Char) : Option Nat :=
  if '0' ≤ c ∧ c ≤ '9' then some (c.toNat - '0'.toNat)
  else if 'a' ≤ c ∧ c ≤ 'f' then some (c.toNat - 'a'.toNat + 10)
  else if 'A' ≤ c ∧ c ≤ 'F' then some (c.toNat - 'A'.toNat + 10)
  else none

def decodeHex : List Char → Except String Buffer
  | [] => .ok []
  | [_] => .error "Odd number of digits"
  | a :: b :: rest => match hexValue a, hexValue b with
    | some high, some low => (UInt8.ofNat (16 * high + low) :: ·) <$> decodeHex rest
    | _, _ => .error "Invalid character"

/-- The code pushes `0xf3` and then zero before it returns. -/
theorem pushed_return_splits_early :
    let body : List Instruction := [⟨0x60, [0xf3], rfl⟩, ⟨0x60, [0x00], rfl⟩]
    let text := "0x60f36000f35b\n".toList
    (∀ i ∈ body, i.opcode ≠ 0xf3) ∧
      decodeHex (hexDigits text) = .ok (encode (body ++ [returnInstruction]) ++ [0x5b]) ∧
      loadEvmBytecode (.ok text) decodeHex = .ok ([0x60, 0xf3], [0x60, 0x00, 0xf3, 0x5b]) ∧
      loadEvmBytecode (.ok text) decodeHex ≠ .ok (encode (body ++ [returnInstruction]), [0x5b]) := by
  decide +kernel

theorem load_exact_sample :
    let body : List Instruction := [⟨0x60, [0x20], rfl⟩, ⟨0x60, [0xf3], rfl⟩]
    loadEvmBytecode (.ok "602060f3f35b".toList) decodeHex =
      .ok (encode (body ++ [returnInstruction]), [0x5b]) := by
  intro body
  have hdecode : decodeHex (hexDigits "602060f3f35b".toList) =
      .ok (encode (body ++ [returnInstruction]) ++ [0x5b]) := by decide +kernel
  refine (load_exact_iff _ _ (by decide) (by decide) hdecode).mpr (.inr ?_)
  exact ⟨[⟨0x60, [0x20], rfl⟩], ⟨0x60, [0xf3], rfl⟩, [], rfl, by decide, rfl, by decide⟩

end Samples

end RiscVContracts.Bytecode
