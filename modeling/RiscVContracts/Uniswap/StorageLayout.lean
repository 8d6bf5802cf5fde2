import RiscVContracts.Lib.Hashing
import RiscVContracts.Uniswap.Tokens

namespace RiscVContracts.StorageLayout

open Bytes Hashing Host Storage Pair PairView Tokens

abbrev Bytes32 := ByteString 32

abbrev Bytes64 := ByteString 64

section Derivation

def addressBytes (a : Address) : ByteString 20 := .ofNat 20 a.toNat

def slotBytes (slot : U32) : ByteString 4 := .ofNat 4 slot.toNat

def slotKey (slot : U32) : Bytes32 :=
  (ByteString.zeros 32).copyFromSlice 28 (slotBytes slot) (by decide)

def keyInput (key : Address) : Bytes64 :=
  (ByteString.zeros 64).copyFromSlice 12 (addressBytes key) (by decide)

def slotInput (slot : U32) (key : Address) : Bytes64 :=
  (keyInput key).copyFromSlice 44 (slotBytes slot) (by decide)

def outerInput (key : Address) (innerHash : Bytes32) : Bytes64 :=
  (keyInput key).copyFromSlice 32 innerHash (by decide)

variable (H : Bytes64 → Bytes32)

def mappingKey1 (baseSlot : U32) (key : Address) : Asking Bytes64 Bytes32 :=
  ask H (slotInput baseSlot key)

def mappingKey2 (baseSlot : U32) (key1 key2 : Address) : Asking Bytes64 Bytes32 := do
  let innerHash ← ask H (slotInput (baseSlot + 1) key2)
  ask H (outerInput key1 innerHash)

end Derivation

/-- What the pair stores. The fixed slots are those numbered up to
`slotTotalSupply`; a slot key can be derived from every number. -/
inductive Cell
  | slot (n : U32)
  | balanceOf (owner : Address)
  | allowance (owner spender : Address)
  deriving DecidableEq

namespace Cell

variable (H : Bytes64 → Bytes32)

def derive : Cell → Asking Bytes64 Bytes32
  | slot n => return slotKey n
  | balanceOf owner => mappingKey1 H slotBalanceOf owner
  | allowance owner spender => mappingKey2 H slotAllowance owner spender

def key (c : Cell) : Bytes32 := value (c.derive H)

def hashed (c : Cell) : List Bytes64 := asked (c.derive H)

end Cell

section Strings

theorem slotKey_eq (slot : U32) : slotKey slot = .ofNat 32 slot.toNat := by
  apply Subtype.ext
  have hlt : slot.toNat < 256 ^ 4 := slot.isLt.trans_eq (by norm_num)
  have h : copyFromSlice (zeros 28 ++ (zeros 4 ++ [])) 28 (beBytes 4 slot.toNat) =
      zeros 28 ++ (beBytes 4 slot.toNat ++ []) := copyFromSlice_append rfl (by simp)
  change copyFromSlice (zeros 28 ++ (zeros 4 ++ [])) 28 (beBytes 4 slot.toNat) = beBytes (28 + 4) slot.toNat
  rw [h, beBytes_of_lt 28 hlt, List.append_nil]

/-- The word of a slot number written to bytes 12 to 16 of it. -/
def spelledSlot (slot : U32) : Bytes32 := .ofNat 32 (slot.toNat * 2 ^ 128)

theorem spelledSlot_val (slot : U32) :
    (spelledSlot slot).1 = zeros 12 ++ (beBytes 4 slot.toNat ++ zeros 16) := by
  have hlt : slot.toNat < 256 ^ 4 := slot.isLt.trans_eq (by norm_num)
  have hpow : slot.toNat * 2 ^ 128 = slot.toNat * 256 ^ 16 := congrArg _ (by norm_num)
  calc beBytes 32 (slot.toNat * 2 ^ 128) = beBytes (12 + 4 + 16) (slot.toNat * 256 ^ 16) := by rw [hpow]
    _ = beBytes (12 + 4) slot.toNat ++ zeros 16 := beBytes_mul_pow (12 + 4) 16 slot.toNat
    _ = _ := by rw [beBytes_of_lt 12 hlt, List.append_assoc]

theorem keyInput_val (key : Address) :
    (keyInput key).1 = zeros 12 ++ (beBytes 20 key.toNat ++ zeros 32) := by
  have h : copyFromSlice (zeros 12 ++ (zeros 20 ++ zeros 32)) 12 (beBytes 20 key.toNat) =
      zeros 12 ++ (beBytes 20 key.toNat ++ zeros 32) := copyFromSlice_append rfl (by simp)
  exact h

theorem outerInput_val (key : Address) (innerHash : Bytes32) :
    (outerInput key innerHash).1 = (zeros 12 ++ beBytes 20 key.toNat) ++ innerHash.1 := by
  have h : copyFromSlice ((zeros 12 ++ beBytes 20 key.toNat) ++ (zeros 32 ++ [])) 32 innerHash.1 =
      (zeros 12 ++ beBytes 20 key.toNat) ++ (innerHash.1 ++ []) :=
    copyFromSlice_append (by simp) (by simp [innerHash.2])
  change copyFromSlice (keyInput key).1 32 innerHash.1 = _
  rw [keyInput_val, ← List.append_assoc, ← List.append_nil (zeros 32), h, List.append_nil]

theorem slotInput_eq (slot : U32) (key : Address) :
    slotInput slot key = outerInput key (spelledSlot slot) := by
  apply Subtype.ext
  let head : Buffer := (zeros 12 ++ beBytes 20 key.toNat) ++ zeros 12
  have h : copyFromSlice (head ++ (zeros 4 ++ zeros 16)) 44 (beBytes 4 slot.toNat) =
      head ++ (beBytes 4 slot.toNat ++ zeros 16) := copyFromSlice_append (by simp [head]) (by simp)
  have hkey : (keyInput key).1 = head ++ (zeros 4 ++ zeros 16) := by
    rw [keyInput_val, show zeros 32 = zeros 12 ++ (zeros 4 ++ zeros 16) from rfl]
    simp only [head, List.append_assoc]
  change copyFromSlice (keyInput key).1 44 (beBytes 4 slot.toNat) = _
  rw [hkey, h, outerInput_val, spelledSlot_val]
  simp only [head, List.append_assoc]

theorem outerInput_eq (key : Address) (innerHash : Bytes32) :
    outerInput key innerHash = (ByteString.ofNat 32 (padAddress key).toNat).append innerHash := by
  apply Subtype.ext
  rw [outerInput_val, ← toBeBytes_padAddress]
  rfl

theorem toNat_lt_pow {n m : Nat} (x : BitVec n) (h : 2 ^ n = 256 ^ m) : x.toNat < 256 ^ m := h ▸ x.isLt

theorem outerInput_injective {a b : Address} {h k : Bytes32} (he : outerInput a h = outerInput b k) :
    a = b ∧ h = k := by
  rw [outerInput_eq, outerInput_eq] at he
  obtain ⟨ha, hk⟩ := ByteString.append_injective he
  have hpad := ByteString.ofNat_injective (toNat_lt_pow _ (by norm_num)) (toNat_lt_pow _ (by norm_num)) ha
  exact ⟨padAddress_injective (BitVec.eq_of_toNat_eq hpad), hk⟩

theorem slotInput_injective {slot : U32} {a b : Address} (he : slotInput slot a = slotInput slot b) :
    a = b := by
  rw [slotInput_eq, slotInput_eq] at he
  exact (outerInput_injective he).1

theorem slotKey_toNat (slot : U32) : (slotKey slot).toNat = slot.toNat := by
  rw [slotKey_eq]
  exact ByteString.toNat_ofNat (slot.isLt.trans (by decide))

theorem slotKey_injective : Function.Injective slotKey := by
  intro m n h
  have h' := congrArg ByteString.toNat h
  rw [slotKey_toNat, slotKey_toNat] at h'
  exact BitVec.eq_of_toNat_eq h'

end Strings

section Coincidences

variable {H : Bytes64 → Bytes32} {c d : Cell}

/-- The inner string of an allowance hashes to the balances' slot number, as
the key of its owner's balance has it in the place of an inner hash. -/
def Spelled (H : Bytes64 → Bytes32) (c d : Cell) : Prop :=
  ∃ owner spender, H (slotInput (slotAllowance + 1) spender) = spelledSlot slotBalanceOf ∧
    (c = .balanceOf owner ∧ d = .allowance owner spender ∨
      c = .allowance owner spender ∧ d = .balanceOf owner)

/-- What two cells need to have one key: a collision among the strings hashed
for them, a hash that reads as a slot number, or a hash that spells the
balances' slot. -/
def Coincidence (H : Bytes64 → Bytes32) (c d : Cell) : Prop :=
  Collision H (c.hashed H ++ d.hashed H) ∨
    (∃ x ∈ c.hashed H ++ d.hashed H, (H x).toNat < 2 ^ 32) ∨ Spelled H c d

theorem Spelled.symm (h : Spelled H c d) : Spelled H d c := by
  obtain ⟨owner, spender, hH, ⟨rfl, rfl⟩ | ⟨rfl, rfl⟩⟩ := h
  · exact ⟨owner, spender, hH, .inr ⟨rfl, rfl⟩⟩
  · exact ⟨owner, spender, hH, .inl ⟨rfl, rfl⟩⟩

theorem Coincidence.symm (h : Coincidence H c d) : Coincidence H d c := by
  have hsub : c.hashed H ++ d.hashed H ⊆ d.hashed H ++ c.hashed H := fun x hx =>
    List.mem_append.mpr (List.mem_append.mp hx).symm
  obtain h | ⟨x, hx, hlt⟩ | h := h
  · exact .inl (h.mono hsub)
  · exact .inr (.inl ⟨x, hsub hx, hlt⟩)
  · exact .inr (.inr h.symm)

theorem eq_or_coincidence_of_hashed {x y : Bytes64} (hx : x ∈ c.hashed H) (hy : y ∈ d.hashed H)
    (h : H x = H y) : x = y ∨ Coincidence H c d :=
  (eq_or_collision (List.mem_append_left _ hx) (List.mem_append_right _ hy) h).imp_right .inl

theorem key_slot (H : Bytes64 → Bytes32) (n : U32) : (Cell.slot n).key H = slotKey n := by
  simp [Cell.key, Cell.derive]

theorem key_balanceOf (H : Bytes64 → Bytes32) (owner : Address) :
    (Cell.balanceOf owner).key H = H (slotInput slotBalanceOf owner) := by
  simp [Cell.key, Cell.derive, mappingKey1]

theorem key_allowance (H : Bytes64 → Bytes32) (owner spender : Address) :
    (Cell.allowance owner spender).key H =
      H (outerInput owner (H (slotInput (slotAllowance + 1) spender))) := by
  simp [Cell.key, Cell.derive, mappingKey2]

theorem hashed_slot (H : Bytes64 → Bytes32) (n : U32) : (Cell.slot n).hashed H = [] := by
  simp [Cell.hashed, Cell.derive]

theorem hashed_balanceOf (H : Bytes64 → Bytes32) (owner : Address) :
    (Cell.balanceOf owner).hashed H = [slotInput slotBalanceOf owner] := by
  simp [Cell.hashed, Cell.derive, mappingKey1]

theorem hashed_allowance (H : Bytes64 → Bytes32) (owner spender : Address) :
    (Cell.allowance owner spender).hashed H =
      [slotInput (slotAllowance + 1) spender,
        outerInput owner (H (slotInput (slotAllowance + 1) spender))] := by
  simp [Cell.hashed, Cell.derive, mappingKey2]

theorem mem_hashed_balanceOf (H : Bytes64 → Bytes32) (owner : Address) :
    slotInput slotBalanceOf owner ∈ (Cell.balanceOf owner).hashed H := by
  simp [hashed_balanceOf]

theorem mem_hashed_inner (H : Bytes64 → Bytes32) (owner spender : Address) :
    slotInput (slotAllowance + 1) spender ∈ (Cell.allowance owner spender).hashed H := by
  simp [hashed_allowance]

theorem mem_hashed_outer (H : Bytes64 → Bytes32) (owner spender : Address) :
    outerInput owner (H (slotInput (slotAllowance + 1) spender)) ∈
      (Cell.allowance owner spender).hashed H := by
  simp [hashed_allowance]

theorem slot_shared {n : U32} (h : (Cell.slot n).key H = d.key H) :
    Cell.slot n = d ∨ Coincidence H (.slot n) d := by
  have hlt : (d.key H).toNat < 2 ^ 32 := by
    rw [← h, key_slot, slotKey_toNat]
    exact n.isLt
  cases d with
  | slot m =>
      rw [key_slot, key_slot] at h
      exact .inl (congrArg Cell.slot (slotKey_injective h))
  | balanceOf a =>
      exact .inr (.inr (.inl ⟨_, List.mem_append_right _ (mem_hashed_balanceOf H a), hlt⟩))
  | allowance o p =>
      exact .inr (.inr (.inl ⟨_, List.mem_append_right _ (mem_hashed_outer H o p), hlt⟩))

theorem balanceOf_shared {a b : Address} (h : (Cell.balanceOf a).key H = (Cell.balanceOf b).key H) :
    Cell.balanceOf a = .balanceOf b ∨ Coincidence H (.balanceOf a) (.balanceOf b) := by
  rw [key_balanceOf, key_balanceOf] at h
  have hin := eq_or_coincidence_of_hashed (mem_hashed_balanceOf H a) (mem_hashed_balanceOf H b) h
  exact hin.imp_left fun h => congrArg Cell.balanceOf (slotInput_injective h)

theorem balanceOf_allowance_shared {a o p : Address}
    (h : (Cell.balanceOf a).key H = (Cell.allowance o p).key H) :
    Coincidence H (.balanceOf a) (.allowance o p) := by
  rw [key_balanceOf, key_allowance] at h
  obtain hin | hc := eq_or_coincidence_of_hashed (mem_hashed_balanceOf H a) (mem_hashed_outer H o p) h
  · rw [slotInput_eq] at hin
    obtain ⟨rfl, hH⟩ := outerInput_injective hin
    exact .inr (.inr ⟨a, p, hH.symm, .inl ⟨rfl, rfl⟩⟩)
  · exact hc

/-- The outer strings tell the owners and the inner hashes, and these the spenders. -/
theorem allowance_shared {o p o' p' : Address}
    (h : (Cell.allowance o p).key H = (Cell.allowance o' p').key H) :
    Cell.allowance o p = .allowance o' p' ∨ Coincidence H (.allowance o p) (.allowance o' p') := by
  rw [key_allowance, key_allowance] at h
  obtain hout | hc := eq_or_coincidence_of_hashed (mem_hashed_outer H o p) (mem_hashed_outer H o' p') h
  · obtain ⟨rfl, hH⟩ := outerInput_injective hout
    have hin := eq_or_coincidence_of_hashed (mem_hashed_inner H o p) (mem_hashed_inner H o p') hH
    exact hin.imp_left fun h => congrArg (Cell.allowance o) (slotInput_injective h)
  · exact .inr hc

theorem eq_or_coincidence (h : c.key H = d.key H) : c = d ∨ Coincidence H c d := by
  cases c with
  | slot n => exact slot_shared h
  | balanceOf a =>
      cases d with
      | slot n => exact (slot_shared h.symm).imp Eq.symm Coincidence.symm
      | balanceOf b => exact balanceOf_shared h
      | allowance o p => exact .inr (balanceOf_allowance_shared h)
  | allowance o p =>
      cases d with
      | slot n => exact (slot_shared h.symm).imp Eq.symm Coincidence.symm
      | balanceOf b => exact .inr (balanceOf_allowance_shared h.symm).symm
      | allowance o' p' => exact allowance_shared h

/-- Cells share a key only by a coincidence of the hash. -/
theorem layout_injective (hne : c ≠ d) (hkey : c.key H = d.key H) :
    Collision H (c.hashed H ++ d.hashed H) ∨
      (∃ x ∈ c.hashed H ++ d.hashed H, (H x).toNat < 2 ^ 32) ∨ Spelled H c d :=
  (eq_or_coincidence hkey).resolve_left hne

def spellingHash (x : Bytes64) : Bytes32 :=
  if x = slotInput (slotAllowance + 1) 0 then spelledSlot slotBalanceOf else .ofNat 32 (2 ^ 256 - 1)

theorem layout_injective_spelled :
    Collision spellingHash
        ((Cell.balanceOf 0).hashed spellingHash ++ (Cell.allowance 0 0).hashed spellingHash) ∨
      (∃ x ∈ (Cell.balanceOf 0).hashed spellingHash ++ (Cell.allowance 0 0).hashed spellingHash,
        (spellingHash x).toNat < 2 ^ 32) ∨
      Spelled spellingHash (.balanceOf 0) (.allowance 0 0) :=
  layout_injective (by decide) (by decide +kernel)

theorem layout_shared :
    Cell.balanceOf 0 ≠ .allowance 0 0 ∧
      (Cell.balanceOf 0).key spellingHash = (Cell.allowance 0 0).key spellingHash ∧
      ¬ Collision spellingHash
          ((Cell.balanceOf 0).hashed spellingHash ++ (Cell.allowance 0 0).hashed spellingHash) ∧
      ¬ ∃ x ∈ (Cell.balanceOf 0).hashed spellingHash ++ (Cell.allowance 0 0).hashed spellingHash,
          (spellingHash x).toNat < 2 ^ 32 := by
  unfold Collision
  decide +kernel

theorem Spelled.key_eq (h : Spelled H c d) : c.key H = d.key H := by
  have hshared {o p : Address} (hH : H (slotInput (slotAllowance + 1) p) = spelledSlot slotBalanceOf) :
      (Cell.balanceOf o).key H = (Cell.allowance o p).key H := by
    rw [key_balanceOf, key_allowance, hH, slotInput_eq]
  obtain ⟨o, p, hH, ⟨rfl, rfl⟩ | ⟨rfl, rfl⟩⟩ := h
  · exact hshared hH
  · exact (hshared hH).symm

end Coincidences

section Host

variable {κ W : Type} {H : Bytes64 → Bytes32} {c d : Cell}

/-- A host whose storage keys are the 32 bytes that it is given. -/
def onBytes (H : Bytes64 → Bytes32) (api : Api Bytes32 W) : Api Bytes32 W :=
  { api with
    word := fun v => .ofNat 32 v.toNat
    word_injective := fun _ _ h => BitVec.eq_of_toNat_eq
      (ByteString.ofNat_injective (toNat_lt_pow _ (by norm_num)) (toNat_lt_pow _ (by norm_num)) h)
    hashKeccak256 := fun a b => H (a.append b) }

def Cell.wordKey (api : Api κ W) : Cell → κ
  | .slot n => Storage.slotKey api n
  | .balanceOf owner => Storage.mappingKey1 api slotBalanceOf owner
  | .allowance owner spender => Storage.mappingKey2 api slotAllowance owner spender

def Cell.read (api : Api κ W) (s : State κ W) : Cell → U256
  | .slot n => slots api s n
  | .balanceOf owner => lp api s owner
  | .allowance owner spender => PairView.allowance api s owner spender

theorem Cell.read_eq (api : Api κ W) (s : State κ W) (c : Cell) :
    c.read api s = s.storage (c.wordKey api) := by
  cases c <;> rfl

theorem slotWord_toNat (slot : U32) : (slotWord slot).toNat = slot.toNat * 2 ^ 128 := by
  have hlt := slot.isLt
  rw [slotWord, BitVec.toNat_shiftLeft, BitVec.toNat_setWidth, Nat.shiftLeft_eq]
  omega

theorem mappingKey1_onBytes (H : Bytes64 → Bytes32) (api : Api Bytes32 W) (slot : U32) (key : Address) :
    Storage.mappingKey1 (onBytes H api) slot key = H (slotInput slot key) := by
  rw [slotInput_eq, outerInput_eq, spelledSlot, ← slotWord_toNat]
  rfl

theorem wordKey_onBytes (H : Bytes64 → Bytes32) (api : Api Bytes32 W) (c : Cell) : c.wordKey (onBytes H api) = c.key H := by
  cases c with
  | slot n =>
      change ByteString.ofNat 32 (n.setWidth 256).toNat = _
      rw [key_slot, slotKey_eq, BitVec.toNat_setWidth, Nat.mod_eq_of_lt (n.isLt.trans (by decide))]
  | balanceOf owner => rw [key_balanceOf, Cell.wordKey, mappingKey1_onBytes]
  | allowance owner spender =>
      have hinner := mappingKey1_onBytes H api (slotAllowance + 1) spender
      rw [key_allowance, outerInput_eq, ← hinner]
      rfl

theorem read_set (api : Api Bytes32 W) (hc : ¬ Coincidence H c d) (s : State Bytes32 W) (v : U256) :
    d.read (onBytes H api) (s.set (c.wordKey (onBytes H api)) v) =
      if d = c then v else d.read (onBytes H api) s := by
  rw [Cell.read_eq, Cell.read_eq]
  split
  · rename_i h
    rw [h, State.set_storage_self]
  · rename_i h
    apply State.set_storage_of_ne
    rw [wordKey_onBytes, wordKey_onBytes]
    exact fun hkey => (eq_or_coincidence hkey).elim h fun h => hc h.symm

def Sound (H : Bytes64 → Bytes32) : Prop :=
  ∀ c d : Cell, (∀ o p, c ≠ .allowance o p) → ¬ Coincidence H c d

theorem Sound.eq_of_wordKey (sound : Sound H) (api : Api Bytes32 W) (hc : ∀ o p, c ≠ .allowance o p)
    (h : c.wordKey (onBytes H api) = d.wordKey (onBytes H api)) : c = d := by
  rw [wordKey_onBytes, wordKey_onBytes] at h
  exact (eq_or_coincidence h).resolve_right (sound c d hc)

theorem Sound.separated (sound : Sound H) (api : Api Bytes32 W) : Separated (onBytes H api) where
  balance a b h := Cell.balanceOf.inj
    (sound.eq_of_wordKey api (c := .balanceOf a) (d := .balanceOf b) (by simp) h)
  balance_slot a n h := Cell.noConfusion
    (sound.eq_of_wordKey api (c := .balanceOf a) (d := .slot n) (by simp) h)
  allowance_slot o p n h := Cell.noConfusion
    (sound.eq_of_wordKey api (c := .slot n) (d := .allowance o p) (by simp) h.symm)
  allowance_balance o p a h := Cell.noConfusion
    (sound.eq_of_wordKey api (c := .balanceOf a) (d := .allowance o p) (by simp) h.symm)

end Host

section Tagged

def kindOf (word : Bytes32) : Nat :=
  if word = spelledSlot slotBalanceOf then 1 else if word = spelledSlot (slotAllowance + 1) then 2 else 3

def secondWord (x : Bytes64) : Bytes32 := ⟨x.1.drop 32, by rw [List.length_drop, x.2]⟩

def taggedHash (x : Bytes64) : Bytes32 :=
  .ofNat 32 (kindOf (secondWord x) * 2 ^ 248 + ofBeBytes ((x.1.drop 12).take 20))

theorem kindOf_le (word : Bytes32) : 1 ≤ kindOf word ∧ kindOf word ≤ 3 := by
  unfold kindOf
  split
  · decide
  · split <;> decide

theorem secondWord_val (x : Bytes64) : (secondWord x).1 = x.1.drop 32 := rfl

theorem secondWord_outerInput (a : Address) (word : Bytes32) : secondWord (outerInput a word) = word := by
  apply Subtype.ext
  rw [secondWord_val, outerInput_val a word, List.drop_left' (by simp)]

theorem taggedHash_outerInput (a : Address) (word : Bytes32) :
    taggedHash (outerInput a word) = .ofNat 32 (kindOf word * 2 ^ 248 + a.toNat) := by
  have hkey : ((outerInput a word).1.drop 12).take 20 = beBytes 20 a.toNat := by
    rw [outerInput_val, List.append_assoc, List.drop_left' (zeros_length 12),
      List.take_left' (beBytes_length 20 _)]
  have ha : a.toNat < 256 ^ 20 := toNat_lt_pow a (by norm_num)
  rw [taggedHash, secondWord_outerInput, hkey, ofBeBytes_beBytes, Nat.mod_eq_of_lt ha]

theorem tagged_lt (a : Address) (word : Bytes32) : kindOf word * 2 ^ 248 + a.toNat < 256 ^ 32 := by
  have hk := (kindOf_le word).2
  have ha := a.isLt
  omega

theorem taggedHash_toNat (a : Address) (word : Bytes32) :
    (taggedHash (outerInput a word)).toNat = kindOf word * 2 ^ 248 + a.toNat := by
  rw [taggedHash_outerInput, ByteString.toNat_ofNat (tagged_lt a word)]

theorem taggedHash_eq {a b : Address} {v w : Bytes32}
    (h : taggedHash (outerInput a v) = taggedHash (outerInput b w)) : a = b ∧ kindOf v = kindOf w := by
  have h' := congrArg ByteString.toNat h
  rw [taggedHash_toNat, taggedHash_toNat] at h'
  have ha := a.isLt
  have hb := b.isLt
  exact ⟨BitVec.eq_of_toNat_eq (by omega), by omega⟩

theorem taggedHash_ne_spelled (a : Address) (word : Bytes32) (slot : U32) :
    taggedHash (outerInput a word) ≠ spelledSlot slot := by
  intro h
  have hslot := slot.isLt
  have hk := (kindOf_le word).1
  have h' := congrArg ByteString.toNat h
  rw [taggedHash_toNat, spelledSlot, ByteString.toNat_ofNat (by omega)] at h'
  omega

theorem kindOf_balanceOf : kindOf (spelledSlot slotBalanceOf) = 1 := if_pos rfl

theorem kindOf_inner : kindOf (spelledSlot (slotAllowance + 1)) = 2 := by
  decide +kernel

theorem kindOf_outer (spender : Address) :
    kindOf (taggedHash (slotInput (slotAllowance + 1) spender)) = 3 := by
  rw [kindOf, slotInput_eq, if_neg (taggedHash_ne_spelled _ _ _), if_neg (taggedHash_ne_spelled _ _ _)]

def IsWord (d : Cell) (a : Address) (word : Bytes32) : Prop :=
  word = spelledSlot slotBalanceOf ∨ word = spelledSlot (slotAllowance + 1) ∨
    ∃ p, d = .allowance a p ∧ word = taggedHash (slotInput (slotAllowance + 1) p)

theorem IsWord.eq_of_kindOf {d : Cell} {a : Address} {v w : Bytes32} (hv : IsWord d a v)
    (hw : IsWord d a w) (h : kindOf v = kindOf w) : v = w := by
  obtain rfl | rfl | ⟨p, rfl, rfl⟩ := hv <;> obtain rfl | rfl | ⟨q, hq, rfl⟩ := hw <;>
    simp only [kindOf_balanceOf, kindOf_inner, kindOf_outer] at h
  any_goals cases h
  · rfl
  · rfl
  · cases hq
    rfl

theorem hashed_words {c d : Cell} {x : Bytes64} (hc : ∀ o p, c ≠ .allowance o p)
    (hx : x ∈ c.hashed taggedHash ++ d.hashed taggedHash) :
    ∃ a word, x = outerInput a word ∧ IsWord d a word := by
  have hplain {e : Cell} (he : ∀ o p, e ≠ .allowance o p) (hx : x ∈ e.hashed taggedHash) :
      ∃ a, x = outerInput a (spelledSlot slotBalanceOf) := by
    cases e with
    | slot n => simp [hashed_slot] at hx
    | balanceOf a =>
        rw [hashed_balanceOf, List.mem_singleton, slotInput_eq] at hx
        exact ⟨a, hx⟩
    | allowance o p => exact absurd rfl (he o p)
  obtain hx | hx := List.mem_append.mp hx
  · obtain ⟨a, rfl⟩ := hplain hc hx
    exact ⟨a, _, rfl, .inl rfl⟩
  · cases d with
    | slot n => simp [hashed_slot] at hx
    | balanceOf b =>
        obtain ⟨a, rfl⟩ := hplain (by simp) hx
        exact ⟨a, _, rfl, .inl rfl⟩
    | allowance o p =>
        rw [hashed_allowance, List.mem_cons, List.mem_singleton] at hx
        obtain rfl | rfl := hx
        · exact ⟨p, _, slotInput_eq _ _, .inr (.inl rfl)⟩
        · exact ⟨o, _, rfl, .inr (.inr ⟨p, rfl, rfl⟩)⟩

/-- There are hashes into 32 bytes that keep the pair's slots and balances apart from its other cells. -/
theorem sound_taggedHash : Sound taggedHash := by
  intro c d hc hcd
  obtain ⟨x, hx, y, hy, hne, hxy⟩ | ⟨x, hx, hlt⟩ | ⟨o, p, hH, -⟩ := hcd
  · obtain ⟨a, v, rfl, hv⟩ := hashed_words hc hx
    obtain ⟨b, w, rfl, hw⟩ := hashed_words hc hy
    obtain ⟨rfl, hkind⟩ := taggedHash_eq hxy
    exact hne (congrArg (outerInput a) (hv.eq_of_kindOf hw hkind))
  · obtain ⟨a, v, rfl, -⟩ := hashed_words hc hx
    have hk := (kindOf_le v).1
    rw [taggedHash_toNat] at hlt
    omega
  · rw [slotInput_eq] at hH
    exact taggedHash_ne_spelled _ _ _ hH

theorem separated_taggedHash {W : Type} (api : Api Bytes32 W) : Separated (onBytes taggedHash api) :=
  sound_taggedHash.separated api

end Tagged

end RiscVContracts.StorageLayout
