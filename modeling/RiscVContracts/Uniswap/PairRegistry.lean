import RiscVContracts.Lib.Registry
import RiscVContracts.Uniswap.FactorySpec
import Mathlib.Data.Fintype.Card

namespace RiscVContracts.PairRegistry

open Programs Bytes Host Storage PairView Symbolic Factory FactorySpec Registries

section Book

/-- The pairs of a factory: each is entered under two distinct non-zero tokens
and has a non-zero address. -/
structure Book extends Registry (Sym2 Address) Address where
  tokens : ∀ e ∈ entries, ¬ e.1.IsDiag ∧ 0 ∉ e.1
  address : ∀ e ∈ entries, e.2 ≠ 0

def Book.empty : Book where
  toRegistry := Registry.empty
  tokens _ h := absurd h List.not_mem_nil
  address _ h := absurd h List.not_mem_nil

structure Enters (r : Book) (token0 token1 pair : Address) : Prop where
  distinct : token0 ≠ token1
  token0_ne : token0 ≠ 0
  token1_ne : token1 ≠ 0
  unknown : s(token0, token1) ∉ r.entries.map Prod.fst
  pair_ne : pair ≠ 0
  fresh : pair ∉ r.entries.map Prod.snd

variable {r r' : Book} {token0 token1 pair : Address}

def Book.enter (r : Book) (h : Enters r token0 token1 pair) : Book where
  toRegistry := r.toRegistry.add s(token0, token1) pair h.unknown h.fresh
  tokens e he := by
    rcases List.mem_append.mp he with he | he
    · exact r.tokens e he
    · rw [List.mem_singleton.mp he, Sym2.mk_isDiag_iff, Sym2.mem_iff]
      exact ⟨h.distinct, not_or.mpr ⟨h.token0_ne.symm, h.token1_ne.symm⟩⟩
  address e he := by
    rcases List.mem_append.mp he with he | he
    · exact r.address e he
    · rw [List.mem_singleton.mp he]
      exact h.pair_ne

theorem enter_entries (h : Enters r token0 token1 pair) :
    (r.enter h).entries = r.entries ++ [(s(token0, token1), pair)] := rfl

theorem lookup_ne_zero {z : Sym2 Address} : (r.lookup z).getD 0 ≠ 0 ↔ r.lookup z ≠ none := by
  cases h : r.lookup z with
  | none => simp
  | some p => simpa using r.address _ (Registry.lookup_eq_some.mp h)

theorem entries_length_lt (r : Book) : r.entries.length + 1 < 2 ^ 256 := by
  have hnd : ((r.entries.map Prod.snd).map BitVec.toFin).Nodup :=
    r.values_nodup.map fun _ _ h => BitVec.toFin_inj.mp h
  have h := hnd.length_le_card
  rw [List.length_map, List.length_map, Fintype.card_fin] at h
  omega

end Book

section Refinement

structure Refines (v : View) (r : Book) : Prop where
  length : v.length.toNat = r.entries.length
  allPairs : ∀ i e, r.entries[i]? = some e → v.allPairs (BitVec.ofNat 256 i) = e.2
  pair : ∀ a b, v.pair a b = (r.lookup s(a, b)).getD 0

variable {v v' : View} {r r' : Book} {token0 token1 pair : Address}

theorem Refines.reported (h : Refines v r) (a b : Address) :
    v.reported a b = (r.lookup s(a, b)).getD 0 := by
  rw [View.reported, h.pair, sortTokens_pair]

theorem Refines.empty (hl : v.length = 0) (hp : ∀ a b, v.pair a b = 0) : Refines v Book.empty where
  length := by rw [hl]; rfl
  allPairs _ _ h := nomatch h
  pair a b := hp a b

theorem Refines.register (h : Refines v r) (he : Enters r token0 token1 pair) :
    Refines (v.register token0 token1 pair) (r.enter he) where
  length := by
    have hlt := entries_length_lt r
    rw [View.register, BitVec.toNat_add, h.length, enter_entries, List.length_append]
    exact Nat.mod_eq_of_lt hlt
  allPairs i e hi := by
    have hlt := entries_length_lt r
    have hlen : v.length = BitVec.ofNat 256 r.entries.length := by
      rw [← h.length, BitVec.ofNat_toNat, BitVec.setWidth_eq]
    rw [enter_entries] at hi
    have hle : i ≤ r.entries.length := by
      have hb := (List.getElem?_eq_some_iff.mp hi).1
      rw [List.length_append, List.length_singleton] at hb
      omega
    rcases hle.lt_or_eq with hlt' | rfl
    · have hne : BitVec.ofNat 256 i ≠ v.length := by
        rw [hlen, Ne, ← BitVec.toNat_inj, BitVec.toNat_ofNat, BitVec.toNat_ofNat,
          Nat.mod_eq_of_lt (by omega), Nat.mod_eq_of_lt (by omega)]
        exact hlt'.ne
      rw [List.getElem?_append_left hlt'] at hi
      rw [View.register_allPairs, Function.update_of_ne hne]
      exact h.allPairs i e hi
    · rw [List.getElem?_concat_length] at hi
      rw [View.register_allPairs, ← hlen, Function.update_self, ← Option.some.inj hi]
  pair a b := by
    have hlook : (r.enter he).lookup s(a, b) =
        if s(a, b) = s(token0, token1) then some pair else r.lookup s(a, b) :=
      Registry.lookup_add _ he.unknown he.fresh _
    rw [hlook, View.register_pair]
    split
    · rfl
    · exact h.pair a b

def View.pairOf (v : View) : Sym2 Address → Address := Sym2.lift ⟨v.reported, v.reported_comm⟩

/-- Array and mapping describe one set of pairs. -/
structure WellFormed (v : View) : Prop where
  bijection : ∃ φ : Nat → Sym2 Address,
    Set.BijOn φ {i | i < v.length.toNat} {z | View.pairOf v z ≠ 0} ∧
    ∀ i < v.length.toNat, ∀ a b, φ i = s(a, b) →
      v.reported a b = v.allPairs (BitVec.ofNat 256 i) ∧ v.reported b a = v.allPairs (BitVec.ofNat 256 i)
  distinct : Set.InjOn (fun i => v.allPairs (BitVec.ofNat 256 i)) {i | i < v.length.toNat}
  nonzero : ∀ i < v.length.toNat, v.allPairs (BitVec.ofNat 256 i) ≠ 0
  tokens : ∀ a b, v.reported a b ≠ 0 → a ≠ b ∧ a ≠ 0 ∧ b ≠ 0

structure Extends (v v' : View) : Prop where
  length : v.length.toNat ≤ v'.length.toNat
  allPairs : ∀ i < v.length.toNat,
    v'.allPairs (BitVec.ofNat 256 i) = v.allPairs (BitVec.ofNat 256 i)
  pair : ∀ a b, v.reported a b ≠ 0 → v'.reported a b = v.reported a b

theorem Refines.entry (h : Refines v r) {i : Nat} (hi : i < v.length.toNat) :
    ∃ e, r.entries[i]? = some e ∧ v.allPairs (BitVec.ofNat 256 i) = e.2 ∧
      r.lookup e.1 = some e.2 := by
  rw [h.length] at hi
  have he := List.getElem?_eq_getElem hi
  exact ⟨_, he, h.allPairs i _ he, Registry.lookup_eq_some.mpr (List.mem_of_getElem? he)⟩

theorem Refines.wellFormed (h : Refines v r) : WellFormed v where
  bijection := by
    refine ⟨fun i => (r.entries[i]?.map Prod.fst).getD s(0, 0), ?_, ?_⟩
    · have hset : {z | View.pairOf v z ≠ 0} = {z | r.lookup z ≠ none} := by
        ext z
        induction z using Sym2.ind with
        | h a b =>
            simp only [Set.mem_ofPred_eq, View.pairOf, Sym2.lift_mk, h.reported]
            exact lookup_ne_zero
      rw [hset, h.length]
      exact r.bijOn_keys s(0, 0)
    · intro i hi a b hab
      obtain ⟨e, he, hp, hl⟩ := h.entry hi
      simp only [he, Option.map_some, Option.getD_some] at hab
      rw [v.reported_comm b a, h.reported, ← hab, hl, hp]
      exact ⟨rfl, rfl⟩
  distinct i hi j hj hij := by
    obtain ⟨e, he, hp, -⟩ := h.entry hi
    obtain ⟨e', he', hp', -⟩ := h.entry hj
    exact r.entry_unique he he' (.inr (hp.symm.trans (hij.trans hp')))
  nonzero i hi := by
    obtain ⟨e, he, hp, -⟩ := h.entry hi
    rw [hp]
    exact r.address e (List.mem_of_getElem? he)
  tokens a b hab := by
    rw [h.reported, lookup_ne_zero] at hab
    obtain ⟨p, hp⟩ := Option.ne_none_iff_exists'.mp hab
    have ht := r.tokens _ (Registry.lookup_eq_some.mp hp)
    rw [Sym2.mk_isDiag_iff, Sym2.mem_iff, not_or] at ht
    exact ⟨ht.1, Ne.symm ht.2.1, Ne.symm ht.2.2⟩

theorem Refines.extends (h : Refines v r) (h' : Refines v' r') (hr : r.entries <+: r'.entries) :
    Extends v v' where
  length := by
    rw [h.length, h'.length]
    exact hr.length_le
  allPairs i hi := by
    obtain ⟨e, he, hp, -⟩ := h.entry hi
    obtain ⟨es, hes⟩ := hr
    rw [hp, h'.allPairs i e]
    rw [← hes, List.getElem?_append_left (List.getElem?_eq_some_iff.mp he).1, he]
  pair a b hab := by
    rw [h.reported, lookup_ne_zero] at hab
    obtain ⟨p, hp⟩ := Option.ne_none_iff_exists'.mp hab
    rw [h.reported, h'.reported, hp, Registry.lookup_of_prefix hr hp]

end Refinement

section Steps

variable {κ W : Type} [DecidableEq κ] {api : Api κ W} {abi : FactoryAbi} {callData : Buffer}
  {s t : State κ W} {r : Book}

theorem createPair_enters (h : Refines (view api s) r) {p : Address}
    (hc : createPair api abi callData s = .ok p t) : ∃ token0 token1 u v output,
      token0 < token1 ∧ (p ≠ 0 → p ∉ r.entries.map Prod.snd → Enters r token0 token1 p) ∧
      api.instantiate (toBeBytes (slots api s slotPairCodeHash)) s = (some p, u) ∧
      api.call p (encodeInitialize token0 token1) u = (some output, v) ∧
      registered api v token0 token1 p = t := by
  obtain ⟨⟨a, b⟩, -, hab, h0, hnone, -, hd⟩ := createPair_ok.mp hc
  obtain ⟨u, v, output, hi, hcall, ht⟩ := deployPair_ok.mp hd
  have hlt := sortTokens_lt hab
  refine ⟨_, _, u, v, output, hlt, fun hp hfresh => ?_, hi, hcall, ht⟩
  have hne : (sortTokens a b).1 ≠ (sortTokens a b).2 := fun heq => by
    rw [heq] at hlt
    exact absurd hlt (BitVec.lt_irrefl _)
  have h1 : (sortTokens a b).2 ≠ 0 := fun heq => by
    rw [heq] at hlt
    exact absurd hlt (BitVec.not_lt_zero)
  have hunknown : s((sortTokens a b).1, (sortTokens a b).2) ∉ r.entries.map Prod.fst := by
    rw [sortTokens_pair, ← Registry.lookup_eq_none]
    by_contra hl
    rw [h.reported] at hnone
    exact lookup_ne_zero.mpr hl hnone
  exact ⟨hne, h0, h1, hunknown, hp, hfresh⟩

end Steps

end RiscVContracts.PairRegistry
