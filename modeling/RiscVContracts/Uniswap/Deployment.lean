import RiscVContracts.Lib.Hex
import RiscVContracts.Uniswap.FactoryOffice

namespace RiscVContracts.Deployment

open Bytes Host Storage PairView Symbolic Factory FactorySpec PairRegistry Registries FactoryRegistry
  ArrayIndex FactoryOffice Calldata

section Encoding

def hexText (bs : Buffer) : List Char := '0' :: 'x' :: Hex.encode bs

def hexToBytes : List Char → Buffer
  | '0' :: 'x' :: h => Hex.decode h
  | h => Hex.decode h

def hexToFixedBinary20 (hex : List Char) : Except String Buffer :=
  let buf := hexToBytes hex
  if buf.length ≠ 20 then .error ("Address must be 20 bytes, got " ++ toString buf.length) else .ok buf

def encodeAddress (addr : List Char ⊕ Buffer) : Buffer :=
  let bytes := match addr with
    | .inl text => hexToBytes text
    | .inr bytes => bytes
  let buf := zeros 32
  let src := if bytes.length = 20 then bytes else bytes.drop (bytes.length - 20)
  copyFromSlice buf 12 src

def pubkeyToAccountId20 (publicKey : Buffer) : Buffer := publicKey.take 20

/-- A hash too long for its place is a range error. -/
def encodeFactoryConstructor (feeToSetter : List Char) (pairCodeHash : Buffer) : Option Buffer :=
  let out := zeros 64
  let feeSetterPadded := encodeAddress (.inl feeToSetter)
  let out := copyFromSlice out 0 feeSetterPadded
  if 32 + pairCodeHash.length ≤ out.length then some (copyFromSlice out 32 pairCodeHash) else none

def factoryData (blake2b : Buffer → Buffer) (publicKey pairBytecode : Buffer) : Option Buffer :=
  let accountId20 := pubkeyToAccountId20 publicKey
  let feeToSetterHex := hexText accountId20
  encodeFactoryConstructor feeToSetterHex (blake2b pairBytecode)

/-- The two tokens, in the order the client takes them to have. -/
def sortTexts (tokenA tokenB : List Char) : List Char × List Char :=
  if Hex.lower tokenA < Hex.lower tokenB then (tokenA, tokenB) else (tokenB, tokenA)

def Spells (text : List Char) (bs : Buffer) : Prop :=
  ∃ digits, text = '0' :: 'x' :: digits ∧ Hex.lower digits = Hex.encode bs

theorem spells_hexText (bs : Buffer) : Spells (hexText bs) bs :=
  ⟨_, rfl, Hex.lower_encode bs⟩

variable {text : List Char} {bs : Buffer}

theorem Spells.hexToBytes (h : Spells text bs) : hexToBytes text = bs := by
  obtain ⟨digits, rfl, hd⟩ := h
  change Hex.decode digits = bs
  rw [← Hex.decode_lower, hd, Hex.decode_encode]

theorem Spells.lower (h : Spells text bs) : Hex.lower text = hexText bs := by
  obtain ⟨digits, rfl, hd⟩ := h
  change '0' :: 'x' :: Hex.lower digits = _
  rw [hd, hexText]

theorem hexText_lt (as bs : Buffer) : hexText as < hexText bs ↔ as < bs := by
  rw [hexText, hexText, List.cons_lt_cons_iff, List.cons_lt_cons_iff, Hex.encode_lt]
  simp

theorem encodeAddress_of_length (h : bs.length = 20) : encodeAddress (.inr bs) = zeros 12 ++ bs := by
  have hcopy : copyFromSlice (zeros 12 ++ (zeros 20 ++ [])) 12 bs = zeros 12 ++ (bs ++ []) :=
    copyFromSlice_append (zeros_length 12) ((zeros_length 20).trans h.symm)
  rw [List.append_nil, List.append_nil] at hcopy
  simp only [encodeAddress, if_pos h]
  exact hcopy

theorem Spells.encodeAddress (h : Spells text bs) (hlen : bs.length = 20) :
    encodeAddress (.inl text) = zeros 12 ++ bs := by
  rw [← encodeAddress_of_length hlen, Deployment.encodeAddress, Deployment.encodeAddress, h.hexToBytes]

theorem encodeFactoryConstructor_eq (h : Spells text bs) (hlen : bs.length = 20) {hash : Buffer}
    (hhash : hash.length = 32) : encodeFactoryConstructor text hash = some (zeros 12 ++ bs ++ hash) := by
  have haddress : (zeros 12 ++ bs).length = 32 := by
    rw [List.length_append, zeros_length, hlen]
  have hset : copyFromSlice (zeros 64) 0 (zeros 12 ++ bs) = zeros 12 ++ bs ++ zeros 32 := by
    have h : copyFromSlice ([] ++ (zeros 32 ++ zeros 32)) 0 (zeros 12 ++ bs) =
        [] ++ (zeros 12 ++ bs ++ zeros 32) :=
      copyFromSlice_append rfl ((zeros_length 32).trans haddress.symm)
    exact h
  have hhashed : copyFromSlice (zeros 12 ++ bs ++ (zeros 32 ++ [])) 32 hash = zeros 12 ++ bs ++ (hash ++ []) :=
    copyFromSlice_append haddress ((zeros_length 32).trans hhash.symm)
  rw [List.append_nil, List.append_nil] at hhashed
  rw [encodeFactoryConstructor, h.encodeAddress hlen, hset, hhashed]
  refine if_pos ?_
  rw [List.length_append, haddress, zeros_length, hhash]

theorem openedWith_encoded (hlen : bs.length = 20) {hash : Buffer} (hhash : hash.length = 32) :
    openedWith (zeros 12 ++ bs ++ hash) = .opened (lowAddress (fromBeSlice bs)) (fromBeSlice hash) := by
  have haddress : (zeros 12 ++ bs).length = 32 := by
    rw [List.length_append, zeros_length, hlen]
  have hsetter : ((zeros 12 ++ bs ++ hash).drop 12).take 20 = bs := by
    rw [List.append_assoc, List.drop_left' (zeros_length 12), List.take_left' hlen]
  have hcode : ((zeros 12 ++ bs ++ hash).drop 32).take 32 = hash := by
    rw [List.drop_left' haddress, ← hhash, List.take_length]
  have hlong : ¬ (zeros 12 ++ bs ++ hash).length < 64 := by
    rw [List.length_append, haddress, hhash]
    decide
  rw [openedWith, if_neg hlong, hsetter, hcode]

/-- The client puts two tokens in the order the factory puts them in. -/
theorem client_sorts_alike {a b : Address} {tokenA tokenB : List Char} (ha : Spells tokenA (addressBytes a))
    (hb : Spells tokenB (addressBytes b)) :
    hexToFixedBinary20 (sortTexts tokenA tokenB).1 = .ok (addressBytes (sortTokens a b).1) ∧
      hexToFixedBinary20 (sortTexts tokenA tokenB).2 = .ok (addressBytes (sortTokens a b).2) := by
  have hread {text : List Char} {c : Address} (h : Spells text (addressBytes c)) :
      hexToFixedBinary20 text = .ok (addressBytes c) := by
    have hlen : (addressBytes c).length = 20 := beBytes_length ..
    rw [hexToFixedBinary20, h.hexToBytes]
    exact if_neg (not_not.mpr hlen)
  rw [sortTexts, sortTokens, ha.lower, hb.lower]
  by_cases h : addressBytes a < addressBytes b
  · rw [if_pos h, if_pos ((hexText_lt _ _).mpr h)]
    exact ⟨hread ha, hread hb⟩
  · rw [if_neg h, if_neg (mt (hexText_lt _ _).mp h)]
    exact ⟨hread hb, hread ha⟩

theorem client_sorts_alike_sample :
    let tokenA := '0' :: 'x' :: (List.replicate 38 '0' ++ ['B', 'c'])
    let tokenB := '0' :: 'x' :: (List.replicate 38 '0' ++ ['a', 'D'])
    tokenA < tokenB ∧
      hexToFixedBinary20 (sortTexts tokenA tokenB).1 = .ok (addressBytes (sortTokens 0xbc 0xad).1) ∧
      hexToFixedBinary20 (sortTexts tokenA tokenB).2 = .ok (addressBytes (sortTokens 0xbc 0xad).2) := by
  intro tokenA tokenB
  have ha : Spells tokenA (addressBytes 0xbc) := ⟨_, rfl, by decide +kernel⟩
  have hb : Spells tokenB (addressBytes 0xad) := ⟨_, rfl, by decide +kernel⟩
  exact ⟨by decide +kernel, client_sorts_alike ha hb⟩

end Encoding

section Runs

variable {κ W : Type} [DecidableEq κ] {live : W → Set Address} {api : Api κ W}

def deployer (publicKey : Buffer) : Address := lowAddress (fromBeSlice (pubkeyToAccountId20 publicKey))

theorem factoryData_opens {blake2b : Buffer → Buffer} (hhash : ∀ code, (blake2b code).length = 32)
    {publicKey : Buffer} (hkey : publicKey.length = 32) (pairBytecode : Buffer) :
    ∃ data, factoryData blake2b publicKey pairBytecode = some data ∧
      openedWith data = .opened (deployer publicKey) (fromBeSlice (blake2b pairBytecode)) := by
  have hlen : (pubkeyToAccountId20 publicKey).length = 20 := by
    rw [pubkeyToAccountId20, List.length_take, hkey]
    rfl
  exact ⟨_, encodeFactoryConstructor_eq (spells_hexText _) hlen (hhash _), openedWith_encoded hlen (hhash _)⟩

/-- A factory that the client deploys runs the pair's code for its pairs, and
takes its settings from the deployer alone, whatever it is called with. -/
theorem deployer_keeps_settings (free : FreeKeccak api) (fresh : FreshInstances api live)
    (untouched : Untouched api) (abi : FactoryAbi) {blake2b : Buffer → Buffer}
    (hhash : ∀ code, (blake2b code).length = 32) {publicKey : Buffer} (hkey : publicKey.length = 32)
    (pairBytecode : Buffer) (world : W) (txs : List (Tx live))
    (hcallers : ∀ tx ∈ txs, tx.caller ≠ deployer publicKey) :
    ∃ data, factoryData blake2b publicKey pairBytecode = some data ∧
      let t := txs.foldl (fun s tx => step api abi tx s) (deployed api data world)
      slots api t slotFeeTo = 0 ∧ slots api t slotFeeToSetter = padAddress (deployer publicKey) ∧
        slots api t slotPairCodeHash = fromBeSlice (blake2b pairBytecode) := by
  obtain ⟨data, hdata, hopened⟩ := factoryData_opens hhash hkey pairBytecode
  refine ⟨data, hdata, ?_⟩
  have hstart : Represents api live (deployed api data world) (openedWith data) :=
    represents_deployed (apart_of_free free) data world
  obtain ⟨o, hm, ht⟩ := minutes_kept free fresh untouched abi txs hstart
  rw [hopened] at hm
  obtain ⟨hto, hsetter⟩ := hm.settings fun turn hturn => by
    obtain ⟨tx, hmem, heq⟩ := callers_minutes txs _ hturn
    rw [heq]
    exact hcallers tx hmem
  exact ⟨by rw [ht.feeTo, hto]; rfl, by rw [ht.feeToSetter, hsetter]; rfl,
    by rw [ht.codeHash, hm.codeHash]; rfl⟩

theorem deployer_keeps_settings_sample :
    let hash := toBeBytes 0x0e5751c026e543b2e8ab2eb06099daa1d1e5df47778f7787faab45cdf12fe3a8
    let key := (List.replicate 32 1 : Buffer)
    ∃ data, factoryData (fun _ => hash) key [] = some data ∧
      let t := officeTxs.foldl (fun s tx => step supplyApi standardFactoryAbi tx s)
        (deployed supplyApi data [20, 21, 22])
      slots supplyApi t slotFeeTo = 0 ∧ slots supplyApi t slotFeeToSetter = padAddress (deployer key) ∧
        slots supplyApi t slotPairCodeHash = fromBeSlice hash := by
  intro hash key
  have free : FreeKeccak supplyApi := freeKeccak_key rfl rfl
  have hcallers : ∀ tx ∈ officeTxs, tx.caller ≠ deployer key := by decide +kernel
  exact deployer_keeps_settings free freshInstances_supply untouched_supply standardFactoryAbi
    (fun _ => by rfl) (by rfl) [] [20, 21, 22] officeTxs hcallers

end Runs

end RiscVContracts.Deployment
