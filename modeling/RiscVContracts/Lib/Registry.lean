import Mathlib.Data.List.Nodup
import Mathlib.Data.Set.Function

namespace RiscVContracts.Registries

/-- An append-only registry: no key and no value is entered twice. -/
structure Registry (K V : Type) where
  entries : List (K × V)
  keys_nodup : (entries.map Prod.fst).Nodup
  values_nodup : (entries.map Prod.snd).Nodup

namespace Registry

variable {K V : Type}

def empty : Registry K V where
  entries := []
  keys_nodup := List.nodup_nil
  values_nodup := List.nodup_nil

def add (r : Registry K V) (k : K) (v : V) (hk : k ∉ r.entries.map Prod.fst)
    (hv : v ∉ r.entries.map Prod.snd) : Registry K V where
  entries := r.entries ++ [(k, v)]
  keys_nodup := by
    rw [List.map_append, List.map_cons, List.map_nil]
    exact List.nodup_append_comm.mp (List.nodup_cons.mpr ⟨hk, r.keys_nodup⟩)
  values_nodup := by
    rw [List.map_append, List.map_cons, List.map_nil]
    exact List.nodup_append_comm.mp (List.nodup_cons.mpr ⟨hv, r.values_nodup⟩)

theorem index_unique {α β : Type} {l : List α} {f : α → β} (h : (l.map f).Nodup) {i j : Nat} {a b : α}
    (hi : l[i]? = some a) (hj : l[j]? = some b) (hab : f a = f b) : i = j := by
  obtain ⟨hi', rfl⟩ := List.getElem?_eq_some_iff.mp hi
  obtain ⟨hj', rfl⟩ := List.getElem?_eq_some_iff.mp hj
  have hmi : i < (l.map f).length := by rwa [List.length_map]
  have hmj : j < (l.map f).length := by rwa [List.length_map]
  have hm : (l.map f)[i] = (l.map f)[j] := by rwa [List.getElem_map, List.getElem_map]
  exact h.getElem_inj_iff.mp hm

theorem entry_unique (r : Registry K V) {i j : Nat} {e e' : K × V} (hi : r.entries[i]? = some e)
    (hj : r.entries[j]? = some e') (h : e.1 = e'.1 ∨ e.2 = e'.2) : i = j := by
  rcases h with h | h
  · exact index_unique r.keys_nodup hi hj h
  · exact index_unique r.values_nodup hi hj h

variable [DecidableEq K]

def lookup (r : Registry K V) (k : K) : Option V :=
  (r.entries.find? (fun e => e.1 = k)).map Prod.snd

theorem lookup_eq_some {r : Registry K V} {k : K} {v : V} :
    r.lookup k = some v ↔ (k, v) ∈ r.entries := by
  constructor
  · intro h
    obtain ⟨e, he, rfl⟩ := Option.map_eq_some_iff.mp h
    have hk : e.1 = k := by simpa using List.find?_some he
    subst k
    exact List.mem_of_find?_eq_some he
  · intro h
    cases hf : r.entries.find? (fun e => e.1 = k) with
    | none => exact absurd (decide_eq_true rfl) (List.find?_eq_none.mp hf _ h)
    | some e =>
        have hk : e.1 = k := by simpa using List.find?_some hf
        obtain ⟨i, hi⟩ := List.mem_iff_getElem?.mp h
        obtain ⟨j, hj⟩ := List.mem_iff_getElem?.mp (List.mem_of_find?_eq_some hf)
        obtain rfl := r.entry_unique hi hj (.inl hk.symm)
        rw [lookup, hf, Option.some.inj (hj.symm.trans hi)]
        rfl

theorem lookup_eq_none {r : Registry K V} {k : K} : r.lookup k = none ↔ k ∉ r.entries.map Prod.fst := by
  simp only [lookup, Option.map_eq_none_iff, List.find?_eq_none, decide_eq_true_eq, List.mem_map,
    not_exists, not_and]

theorem lookup_add (r : Registry K V) {k : K} {v : V} (hk : k ∉ r.entries.map Prod.fst)
    (hv : v ∉ r.entries.map Prod.snd) (k' : K) :
    (r.add k v hk hv).lookup k' = if k' = k then some v else r.lookup k' := by
  split
  · rename_i h
    subst k'
    exact lookup_eq_some.mpr (by simp [add])
  · rename_i h
    simp only [lookup, add, List.find?_append]
    cases hf : r.entries.find? (fun e => e.1 = k') with
    | some e => rfl
    | none => simp [Ne.symm h]

theorem lookup_of_prefix {r r' : Registry K V} (h : r.entries <+: r'.entries) {k : K} {v : V}
    (hv : r.lookup k = some v) : r'.lookup k = some v :=
  lookup_eq_some.mpr (h.subset (lookup_eq_some.mp hv))

/-- The positions of a registry are in bijection with its keys. -/
theorem bijOn_keys (r : Registry K V) (d : K) :
    Set.BijOn (fun i => (r.entries[i]?.map Prod.fst).getD d) {i | i < r.entries.length}
      {k | r.lookup k ≠ none} := by
  refine ⟨?_, ?_, ?_⟩
  · intro i hi
    obtain ⟨e, he⟩ : ∃ e, r.entries[i]? = some e := ⟨_, List.getElem?_eq_getElem hi⟩
    simp only [he, Option.map_some, Option.getD_some, Set.mem_ofPred_eq]
    rw [lookup_eq_some.mpr (List.mem_of_getElem? he)]
    exact Option.some_ne_none _
  · intro i hi j hj h
    obtain ⟨e, he⟩ : ∃ e, r.entries[i]? = some e := ⟨_, List.getElem?_eq_getElem hi⟩
    obtain ⟨e', he'⟩ : ∃ e, r.entries[j]? = some e := ⟨_, List.getElem?_eq_getElem hj⟩
    simp only [he, he', Option.map_some, Option.getD_some] at h
    exact r.entry_unique he he' (.inl h)
  · intro k hk
    obtain ⟨v, hv⟩ := Option.ne_none_iff_exists'.mp hk
    obtain ⟨i, hi⟩ := List.mem_iff_getElem?.mp (lookup_eq_some.mp hv)
    refine ⟨i, (List.getElem?_eq_some_iff.mp hi).1, ?_⟩
    simp [hi]

end Registry

end RiscVContracts.Registries
