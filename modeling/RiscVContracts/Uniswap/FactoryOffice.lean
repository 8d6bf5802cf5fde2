import RiscVContracts.Uniswap.ArrayIndex

namespace RiscVContracts.FactoryOffice

open Programs Bytes Host Storage Pair PairView Symbolic Factory FactorySpec PairRegistry Registries
  FactoryRegistry ArrayIndex Calldata

section Model

/-- What a factory is for: it keeps a book of pairs that run one code, and the
account that fees go to, which one account sets and hands on. -/
structure Office where
  feeTo : Address
  feeToSetter : Address
  codeHash : U256
  book : Book

inductive Request
  | feeTo
  | feeToSetter
  | getPair (a b : Address)
  | allPairs (index : U256)
  | allPairsLength
  | createPair (a b : Address)
  | setFeeTo (account : Address)
  | setFeeToSetter (account : Address)

def Office.opened (feeToSetter : Address) (codeHash : U256) : Office where
  feeTo := 0
  feeToSetter := feeToSetter
  codeHash := codeHash
  book := Book.empty

def addressWord (a : Address) : Buffer := toBeBytes (padAddress a)

structure Creatable (o : Office) (a b : Address) : Prop where
  distinct : a ≠ b
  left_ne : a ≠ 0
  right_ne : b ≠ 0
  unknown : o.book.lookup s(a, b) = none
  code : o.codeHash ≠ 0

/-- How the office serves a request of `caller`, `granted` being the address
of the contract that was instantiated and initialized for it. What it says
about an index beyond its book is left open. -/
inductive Serves (o : Office) (caller : Address) (granted : Option Address) :
    Request → Option Buffer → Office → Prop
  | feeTo : Serves o caller granted .feeTo (some (addressWord o.feeTo)) o
  | feeToSetter : Serves o caller granted .feeToSetter (some (addressWord o.feeToSetter)) o
  | getPair (a b) : Serves o caller granted (.getPair a b)
      (some (addressWord ((o.book.lookup s(a, b)).getD 0))) o
  | allPairs {index e} : o.book.entries[index.toNat]? = some e →
      Serves o caller granted (.allPairs index) (some (addressWord e.2)) o
  | beyond {index} (p) : o.book.entries[index.toNat]? = none →
      Serves o caller granted (.allPairs index) (some (addressWord p)) o
  | allPairsLength : Serves o caller granted .allPairsLength
      (some (toBeBytes (BitVec.ofNat 256 o.book.entries.length))) o
  | created {a b token0 token1 p} (h : Enters o.book token0 token1 p) : Creatable o a b →
      s(token0, token1) = s(a, b) → granted = some p →
      Serves o caller granted (.createPair a b) (some (addressWord p)) { o with book := o.book.enter h }
  | uncreated {a b} : ¬ Creatable o a b ∨ granted = none → Serves o caller granted (.createPair a b) none o
  | setFeeTo (account) : caller = o.feeToSetter →
      Serves o caller granted (.setFeeTo account) (some []) { o with feeTo := account }
  | setFeeToSetter (account) : caller = o.feeToSetter →
      Serves o caller granted (.setFeeToSetter account) (some []) { o with feeToSetter := account }
  | feeToRefused (account) : caller ≠ o.feeToSetter → Serves o caller granted (.setFeeTo account) none o
  | setterRefused (account) : caller ≠ o.feeToSetter →
      Serves o caller granted (.setFeeToSetter account) none o

variable {o o' : Office} {caller : Address} {granted : Option Address} {r : Request} {reply : Option Buffer}

theorem Serves.codeHash (h : Serves o caller granted r reply o') : o'.codeHash = o.codeHash := by
  cases h <;> rfl

theorem Serves.settings (h : Serves o caller granted r reply o') (hc : caller ≠ o.feeToSetter) :
    o'.feeTo = o.feeTo ∧ o'.feeToSetter = o.feeToSetter := by
  cases h with
  | setFeeTo _ h | setFeeToSetter _ h => exact absurd h hc
  | _ => exact ⟨rfl, rfl⟩

structure Turn where
  caller : Address
  request : Option Request
  granted : Option Address
  reply : Option Buffer

inductive Minutes : Office → List Turn → Office → Prop
  | nil (o : Office) : Minutes o [] o
  | served {o o' o'' : Office} {turn turns r} : turn.request = some r →
      Serves o turn.caller turn.granted r turn.reply o' →
      Minutes o' turns o'' → Minutes o (turn :: turns) o''
  | unread {o o' : Office} {turn turns} : turn.request = none → turn.reply = none → Minutes o turns o' →
      Minutes o (turn :: turns) o'

theorem Serves.book_of_no_code (h : Serves o caller granted r reply o') (hc : o.codeHash = 0) :
    o'.book = o.book := by
  cases h with
  | created _ h => exact absurd hc h.code
  | _ => rfl

theorem Minutes.codeHash {turns : List Turn} (h : Minutes o turns o') : o'.codeHash = o.codeHash := by
  induction h with
  | nil => rfl
  | served _ hs _ ih => exact ih.trans hs.codeHash
  | unread _ _ _ ih => exact ih

theorem Minutes.settings {turns : List Turn} (h : Minutes o turns o')
    (hc : ∀ turn ∈ turns, turn.caller ≠ o.feeToSetter) :
    o'.feeTo = o.feeTo ∧ o'.feeToSetter = o.feeToSetter := by
  induction h with
  | nil => exact ⟨rfl, rfl⟩
  | served _ hs _ ih =>
      obtain ⟨hto, hsetter⟩ := hs.settings (hc _ (List.mem_cons_self ..))
      rw [← hto, ← hsetter]
      exact ih fun turn ht => hsetter ▸ hc turn (List.mem_cons_of_mem _ ht)
  | unread _ _ _ ih => exact ih fun turn ht => hc turn (List.mem_cons_of_mem _ ht)

theorem Minutes.book_of_no_code {turns : List Turn} (h : Minutes o turns o') (hc : o.codeHash = 0) :
    o'.book = o.book := by
  induction h with
  | nil => rfl
  | served _ hs _ ih => exact (ih (hs.codeHash.trans hc)).trans (hs.book_of_no_code hc)
  | unread _ _ _ ih => exact ih hc

end Model

section Represents

variable {κ W : Type} {live : W → Set Address}

def request (abi : FactoryAbi) (callData : Buffer) : Option Request :=
  match factoryFn callData with
  | none => none
  | some .feeTo => some .feeTo
  | some .feeToSetter => some .feeToSetter
  | some .getPair => (abi.getPairCall callData).map fun decoded => .getPair decoded.1 decoded.2
  | some .allPairs => (abi.allPairsCall callData).map .allPairs
  | some .allPairsLength => some .allPairsLength
  | some .createPair => (abi.createPairCall callData).map fun decoded => .createPair decoded.1 decoded.2
  | some .setFeeTo => (abi.setFeeToCall callData).map .setFeeTo
  | some .setFeeToSetter => (abi.setFeeToSetterCall callData).map .setFeeToSetter

/-- The contract that the host instantiates for a pair of the tokens, once it is initialized. -/
def granted (api : Api κ W) (s : State κ W) : Option Request → Option Address
  | some (.createPair a b) =>
    let instance' := api.instantiate (toBeBytes (slots api s slotPairCodeHash)) s
    let tokens := sortTokens a b
    instance'.1.bind fun p => (api.call p (encodeInitialize tokens.1 tokens.2) instance'.2).1.map fun _ => p
  | _ => none

structure Represents (api : Api κ W) (live : W → Set Address) (s : State κ W) (o : Office) : Prop where
  records : Records api live s o.book
  feeTo : slots api s slotFeeTo = padAddress o.feeTo
  feeToSetter : slots api s slotFeeToSetter = padAddress o.feeToSetter
  codeHash : slots api s slotPairCodeHash = o.codeHash

variable {api : Api κ W} {abi : FactoryAbi} {callData : Buffer} {s t : State κ W} {o : Office}

theorem represents_of_storage (h : Represents api live s o) (hs : t.storage = s.storage)
    (hl : live s.world ⊆ live t.world) : Represents api live t o := by
  have hslots : slots api t = slots api s := funext fun _ => congrFun hs _
  exact ⟨h.records.of_view (view_of_storage hs) hl, hslots ▸ h.feeTo, hslots ▸ h.feeToSetter,
    hslots ▸ h.codeHash⟩

theorem selector_length (f : FactoryFn) : f.selector.length = 4 := by
  cases f <;> rfl

theorem length_of_factoryFn {f : FactoryFn} (h : factoryFn callData = some f) : 4 ≤ callData.length := by
  have hsel := List.find?_some h
  have hlen := congrArg List.length (of_decide_eq_true hsel)
  rw [selector_length, List.length_take] at hlen
  omega

variable [DecidableEq κ]

theorem call_eq_run {f : FactoryFn} (hf : factoryFn callData = some f) :
    Factory.call api abi callData s = Factory.run api abi callData f s := by
  rw [Factory.call, if_neg (Nat.not_lt.mpr (length_of_factoryFn hf)), hf]

section Outcome

variable {tx : Tx live} {out : Buffer}

theorem outcome_of_ok (h : Factory.call (tx.api api) abi tx.callData (tx.before s) = .ok out t) :
    value (execute api abi tx s) = some out ∧ step api abi tx s = t := by
  rw [execute, step, rollback, h]
  exact ⟨rfl, rfl⟩

theorem outcome_of_fail
    (h : ∀ out t, Factory.call (tx.api api) abi tx.callData (tx.before s) ≠ .ok out t) :
    value (execute api abi tx s) = none ∧ step api abi tx s = tx.before s := by
  rw [execute, step, rollback]
  cases hc : Factory.call (tx.api api) abi tx.callData (tx.before s) with
  | ok out t => exact absurd hc (h out t)
  | error e t => exact ⟨rfl, rfl⟩

end Outcome

def Served (api : Api κ W) (abi : FactoryAbi) (tx : Tx live) (s : State κ W) (o : Office) (r : Request) :
    Prop :=
  ∃ o', Serves o tx.caller (granted (tx.api api) (tx.before s) (some r)) r (value (execute api abi tx s)) o' ∧
    Represents api live (step api abi tx s) o'

variable {tx : Tx live} {r : Request} (h : Represents api live s o)

include h

omit [DecidableEq κ] in
theorem represents_before : Represents api live (tx.before s) o :=
  represents_of_storage h rfl (tx.outside_live s.world)

theorem served_of_view {out : Buffer}
    (hcall : Factory.call (tx.api api) abi tx.callData (tx.before s) = .ok out (tx.before s))
    (hs : Serves o tx.caller (granted (tx.api api) (tx.before s) (some r)) r (some out) o) :
    Served api abi tx s o r := by
  obtain ⟨hv, ht⟩ := outcome_of_ok hcall
  exact ⟨o, hv ▸ hs, ht ▸ represents_before h⟩

theorem served_of_fail
    (hcall : ∀ out t, Factory.call (tx.api api) abi tx.callData (tx.before s) ≠ .ok out t)
    (hs : Serves o tx.caller (granted (tx.api api) (tx.before s) (some r)) r none o) :
    Served api abi tx s o r := by
  obtain ⟨hv, ht⟩ := outcome_of_fail hcall
  exact ⟨o, hv ▸ hs, ht ▸ represents_before h⟩

theorem served_setting {f : FactoryFn} (hf : factoryFn tx.callData = some f) {n : U32} {account : Address}
    {o' : Office} {set : Program κ W Unit}
    (hrun : Factory.run (tx.api api) abi tx.callData f = set >>= fun _ => pure [])
    (hset : ∀ t, set (tx.before s) = .ok () t ↔ tx.caller = lowAddress (slots api s slotFeeToSetter) ∧
      (tx.before s).set (slotKey api n) (padAddress account) = t)
    (hs : tx.caller = o.feeToSetter → Serves o tx.caller none r (some []) o')
    (hrefused : tx.caller ≠ o.feeToSetter → Serves o tx.caller none r none o)
    (hg : granted (tx.api api) (tx.before s) (some r) = none)
    (h' : Represents api live ((tx.before s).set (slotKey api n) (padAddress account)) o') :
    Served api abi tx s o r := by
  rw [h.feeToSetter, lowAddress_padAddress] at hset
  by_cases hc : tx.caller = o.feeToSetter
  · have hcall : Factory.call (tx.api api) abi tx.callData (tx.before s) =
        .ok [] ((tx.before s).set (slotKey api n) (padAddress account)) := by
      rw [call_eq_run hf, hrun]
      exact bind_of_ok ((hset _).mpr ⟨hc, rfl⟩)
    obtain ⟨hv, ht⟩ := outcome_of_ok hcall
    exact ⟨o', by rw [hv, hg]; exact hs hc, ht ▸ h'⟩
  · refine served_of_fail h (fun out t hcall => ?_) (by rw [hg]; exact hrefused hc)
    rw [call_eq_run hf, hrun, bind_pure_ok] at hcall
    obtain ⟨_, hok, -⟩ := hcall
    exact hc ((hset t).mp hok).1

end Represents

section Creation

variable {κ W : Type} {live : W → Set Address} {api : Api κ W} {abi : FactoryAbi} {callData : Buffer}
  {s t : State κ W} {o : Office} {a b p : Address}

theorem sortTokens_ne_zero : (sortTokens a b).1 ≠ 0 ∧ (sortTokens a b).2 ≠ 0 ↔ a ≠ 0 ∧ b ≠ 0 := by
  by_cases h : a < b
  · rw [sortTokens_of_lt h]
  · rw [sortTokens_of_not_lt h]
    exact and_comm

theorem granted_eq_some : granted api s (some (.createPair a b)) = some p ↔ ∃ u v output,
    api.instantiate (toBeBytes (slots api s slotPairCodeHash)) s = (some p, u) ∧
      api.call p (encodeInitialize (sortTokens a b).1 (sortTokens a b).2) u = (some output, v) := by
  simp only [granted, Option.bind_eq_some_iff, Option.map_eq_some_iff]
  constructor
  · rintro ⟨q, hq, output, ho, rfl⟩
    exact ⟨_, _, output, Prod.ext hq rfl, Prod.ext ho rfl⟩
  · rintro ⟨u, v, output, hi, hc⟩
    refine ⟨p, by rw [hi], output, ?_, rfl⟩
    rw [hi, hc]

theorem enters_of_creatable (h : Creatable o a b) (hp : p ≠ 0) (hfresh : p ∉ o.book.entries.map Prod.snd) :
    Enters o.book (sortTokens a b).1 (sortTokens a b).2 p := by
  have hlt := sortTokens_lt h.distinct
  have hne : (sortTokens a b).1 ≠ (sortTokens a b).2 := fun heq => by
    rw [heq] at hlt
    exact absurd hlt (BitVec.lt_irrefl _)
  obtain ⟨h0, h1⟩ := sortTokens_ne_zero.mpr ⟨h.left_ne, h.right_ne⟩
  have hunknown : s((sortTokens a b).1, (sortTokens a b).2) ∉ o.book.entries.map Prod.fst := by
    rw [sortTokens_pair, ← Registry.lookup_eq_none]
    exact h.unknown
  exact ⟨hne, h0, h1, hunknown, hp, hfresh⟩

variable [DecidableEq κ]

theorem createPair_iff (h : Represents api live s o) (hd : abi.createPairCall callData = some (a, b)) :
    createPair api abi callData s = .ok p t ↔ Creatable o a b ∧ ∃ u v output,
      api.instantiate (toBeBytes (slots api s slotPairCodeHash)) s = (some p, u) ∧
      api.call p (encodeInitialize (sortTokens a b).1 (sortTokens a b).2) u = (some output, v) ∧
      registered api v (sortTokens a b).1 (sortTokens a b).2 p = t := by
  have hknown : (view api s).reported a b = 0 ↔ o.book.lookup s(a, b) = none := by
    rw [h.records.refines.reported, ← not_iff_not]
    exact lookup_ne_zero
  rw [createPair_ok]
  simp only [hd, Option.some.injEq, exists_eq_left', hknown, deployPair_ok, h.codeHash]
  constructor
  · rintro ⟨hab, h0, hnone, hcode, hdeploy⟩
    have h1 : (sortTokens a b).2 ≠ 0 := fun heq => by
      have hlt := sortTokens_lt hab
      rw [heq] at hlt
      exact absurd hlt BitVec.not_lt_zero
    obtain ⟨ha, hb⟩ := sortTokens_ne_zero.mp ⟨h0, h1⟩
    exact ⟨⟨hab, ha, hb, hnone, hcode⟩, hdeploy⟩
  · rintro ⟨hc, hdeploy⟩
    exact ⟨hc.distinct, (sortTokens_ne_zero.mpr ⟨hc.left_ne, hc.right_ne⟩).1, hc.unknown, hc.code, hdeploy⟩

theorem represents_set_feeTo (apart : Apart api) (h : Represents api live s o) (account : Address) :
    Represents api live (s.set (slotKey api slotFeeTo) (padAddress account)) { o with feeTo := account } := by
  have hv := view_set_slot apart s (n := slotFeeTo) (by decide) (padAddress account)
  refine ⟨h.records.of_view hv subset_rfl, ?_, ?_, ?_⟩
  · rw [slots_set_slot, Function.update_self]
  · rw [slots_set_slot, Function.update_of_ne (by decide)]
    exact h.feeToSetter
  · rw [slots_set_slot, Function.update_of_ne (by decide)]
    exact h.codeHash

theorem represents_set_feeToSetter (apart : Apart api) (h : Represents api live s o) (account : Address) :
    Represents api live (s.set (slotKey api slotFeeToSetter) (padAddress account))
      { o with feeToSetter := account } := by
  have hv := view_set_slot apart s (n := slotFeeToSetter) (by decide) (padAddress account)
  refine ⟨h.records.of_view hv subset_rfl, ?_, ?_, ?_⟩
  · rw [slots_set_slot, Function.update_of_ne (by decide)]
    exact h.feeTo
  · rw [slots_set_slot, Function.update_self]
  · rw [slots_set_slot, Function.update_of_ne (by decide)]
    exact h.codeHash

theorem slots_registered (apart : Apart api) (s : State κ W) (token0 token1 p : Address) {n : U32}
    (hn : n ≠ slotAllPairs) : slots api (registered api s token0 token1 p) n = slots api s n := by
  rw [registered, slots_set_slot, Function.update_of_ne hn, slots,
    State.set_storage_of_ne _ (apart.array_slot _ _).symm]
  exact congrFun ((slots_set_pair apart _ _ _ _).trans (slots_set_pair apart _ _ _ _)) n

variable (free : FreeKeccak api) (fresh : FreshInstances api live) (untouched : Untouched api)

include free fresh untouched

theorem represents_created (h : Represents api live s o) (hc : Creatable o a b) {u v : State κ W}
    {output : Buffer} (hi : api.instantiate (toBeBytes (slots api s slotPairCodeHash)) s = (some p, u))
    (hcall : api.call p (encodeInitialize (sortTokens a b).1 (sortTokens a b).2) u = (some output, v)) :
    ∃ he : Enters o.book (sortTokens a b).1 (sortTokens a b).2 p,
      Represents api live (registered api v (sortTokens a b).1 (sortTokens a b).2 p)
        { o with book := o.book.enter he } := by
  obtain ⟨hp, hnew, hlu, -⟩ := fresh.instantiate hi
  obtain ⟨hlv, -⟩ := fresh.call hi hcall
  have hu := untouched.instantiate (toBeBytes (slots api s slotPairCodeHash)) s
  have hv := untouched.call p (encodeInitialize (sortTokens a b).1 (sortTokens a b).2) u
  rw [hi] at hu
  rw [hcall] at hv
  have hfresh : p ∉ o.book.entries.map Prod.snd := by
    intro hmem
    obtain ⟨e, he, rfl⟩ := List.mem_map.mp hmem
    exact hnew (h.records.live e he)
  have he := enters_of_creatable hc hp hfresh
  have hold := represents_of_storage (t := v) h (hv.trans hu) ((Set.subset_insert p _).trans (hlu.trans hlv))
  have apart := apart_of_free free
  refine ⟨he, ⟨?_, fun e hmem => ?_⟩, ?_, ?_, ?_⟩
  · rw [view_registered apart]
    exact hold.records.refines.register he
  · rw [enter_entries] at hmem
    rcases List.mem_append.mp hmem with hmem | hmem
    · exact hold.records.live e hmem
    · rw [List.mem_singleton.mp hmem]
      exact hlv (hlu (.inl rfl))
  · rw [slots_registered apart _ _ _ _ (by decide)]
    exact hold.feeTo
  · rw [slots_registered apart _ _ _ _ (by decide)]
    exact hold.feeToSetter
  · rw [slots_registered apart _ _ _ _ (by decide)]
    exact hold.codeHash

end Creation

section Service

variable {κ W : Type} [DecidableEq κ] {live : W → Set Address} {api : Api κ W} {abi : FactoryAbi}
  {s : State κ W} {o : Office} {tx : Tx live} {r : Request}
  (free : FreeKeccak api) (fresh : FreshInstances api live) (untouched : Untouched api)

include free fresh untouched in
theorem served_createPair (h : Represents api live s o) (hf : factoryFn tx.callData = some .createPair)
    {a b : Address} (hd : abi.createPairCall tx.callData = some (a, b)) :
    Served api abi tx s o (.createPair a b) := by
  have hb : Represents api live (tx.before s) o := represents_before h
  have h' : Represents (tx.api api) live (tx.before s) o :=
    ⟨⟨hb.records.refines, hb.records.live⟩, hb.feeTo, hb.feeToSetter, hb.codeHash⟩
  have hiff {p : Address} {t : State κ W} := createPair_iff (p := p) (t := t) h' hd
  by_cases hc : Creatable o a b ∧ granted (tx.api api) (tx.before s) (some (.createPair a b)) ≠ none
  · obtain ⟨hc, hg⟩ := hc
    obtain ⟨p, hp⟩ := Option.ne_none_iff_exists'.mp hg
    obtain ⟨u, v, output, hi, hcall⟩ := granted_eq_some.mp hp
    obtain ⟨he, hnew⟩ := represents_created (freeKeccak_api free tx) (freshInstances_api fresh tx)
      (untouched_api untouched tx) h' hc hi hcall
    have hok : Factory.call (tx.api api) abi tx.callData (tx.before s) = .ok (addressWord p)
        (registered (tx.api api) v (sortTokens a b).1 (sortTokens a b).2 p) := by
      rw [call_eq_run hf]
      exact bind_of_ok (hiff.mpr ⟨hc, u, v, output, hi, hcall, rfl⟩)
    obtain ⟨hv, ht⟩ := outcome_of_ok hok
    refine ⟨{ o with book := o.book.enter he }, ?_, ?_⟩
    · rw [hv]
      exact .created he hc (sortTokens_pair a b) hp
    · rw [ht]
      exact ⟨⟨hnew.records.refines, hnew.records.live⟩, hnew.feeTo, hnew.feeToSetter, hnew.codeHash⟩
  · refine served_of_fail h (fun out t hok => hc ?_) (.uncreated ?_)
    · rw [call_eq_run hf] at hok
      obtain ⟨p, hp, -⟩ := bind_pure_ok.mp hok
      obtain ⟨hcr, u, v, output, hi, hcall, -⟩ := hiff.mp hp
      exact ⟨hcr, by rw [granted_eq_some.mpr ⟨u, v, output, hi, hcall⟩]; exact Option.some_ne_none p⟩
    · by_cases hcr : Creatable o a b
      · exact .inr (not_not.mp fun hg => hc ⟨hcr, hg⟩)
      · exact .inl hcr

theorem served_allPairs (h : Represents api live s o) (hf : factoryFn tx.callData = some .allPairs)
    {index : U256} (hd : abi.allPairsCall tx.callData = some index) :
    Served api abi tx s o (.allPairs index) := by
  have hok : Factory.call (tx.api api) abi tx.callData (tx.before s) =
      .ok (addressWord ((view api s).allPairs index)) (tx.before s) := by
    rw [call_eq_run hf]
    have hi : (orRevert (abi.allPairsCall tx.callData) : Program κ W U256) (tx.before s) =
        .ok index (tx.before s) := orRevert_ok.mpr ⟨hd, rfl⟩
    exact (bind_of_ok hi).trans (bind_of_ok (allPairsGet_ok.mpr ⟨rfl, rfl⟩))
  refine served_of_view h hok ?_
  cases he : o.book.entries[index.toNat]? with
  | none => exact .beyond _ he
  | some e =>
      have hread := h.records.refines.allPairs index.toNat e he
      rw [BitVec.ofNat_toNat, BitVec.setWidth_eq] at hread
      rw [hread]
      exact .allPairs he

include free fresh untouched in
/-- The factory serves every request it can read as the office does. -/
theorem request_served (h : Represents api live s o) (hr : request abi tx.callData = some r) :
    Served api abi tx s o r := by
  unfold request at hr
  cases hf : factoryFn tx.callData with
  | none =>
      rw [hf] at hr
      cases hr
  | some f =>
      rw [hf] at hr
      cases f with
      | feeTo =>
          obtain rfl := Option.some.inj hr
          refine served_of_view h ?_ .feeTo
          rw [addressWord, ← h.feeTo]
          exact call_eq_run hf
      | feeToSetter =>
          obtain rfl := Option.some.inj hr
          refine served_of_view h ?_ .feeToSetter
          rw [addressWord, ← h.feeToSetter]
          exact call_eq_run hf
      | allPairsLength =>
          obtain rfl := Option.some.inj hr
          refine served_of_view h ?_ .allPairsLength
          rw [← h.records.refines.length, BitVec.ofNat_toNat, BitVec.setWidth_eq]
          exact call_eq_run hf
      | getPair =>
          obtain ⟨⟨a, b⟩, hd, rfl⟩ := Option.map_eq_some_iff.mp hr
          refine served_of_view h ?_ (.getPair a b)
          rw [call_eq_run hf, ← h.records.refines.reported]
          exact bind_of_ok (getPair_ok.mpr ⟨(a, b), hd, rfl, rfl⟩)
      | allPairs =>
          obtain ⟨index, hd, rfl⟩ := Option.map_eq_some_iff.mp hr
          exact served_allPairs h hf hd
      | createPair =>
          obtain ⟨⟨a, b⟩, hd, rfl⟩ := Option.map_eq_some_iff.mp hr
          exact served_createPair free fresh untouched h hf hd
      | setFeeTo =>
          obtain ⟨account, hd, rfl⟩ := Option.map_eq_some_iff.mp hr
          refine served_setting h hf rfl (fun t => ?_)
            (.setFeeTo account) (.feeToRefused account) rfl
            (represents_set_feeTo (apart_of_free free) (represents_before h) account)
          rw [setFeeTo_ok]
          simp only [hd, Option.some.injEq, exists_eq_left']
          rfl
      | setFeeToSetter =>
          obtain ⟨account, hd, rfl⟩ := Option.map_eq_some_iff.mp hr
          refine served_setting h hf rfl (fun t => ?_)
            (.setFeeToSetter account) (.setterRefused account) rfl
            (represents_set_feeToSetter (apart_of_free free) (represents_before h) account)
          rw [setFeeToSetter_ok]
          simp only [hd, Option.some.injEq, exists_eq_left']
          rfl

theorem unread_refused (hr : request abi tx.callData = none) :
    ∀ out t, Factory.call (tx.api api) abi tx.callData (tx.before s) ≠ .ok out t := by
  intro out t h
  obtain ⟨-, f, hf, hrun⟩ := call_ok.mp h
  unfold request at hr
  rw [hf] at hr
  cases f with
  | feeTo | feeToSetter | allPairsLength => cases hr
  | getPair =>
      obtain ⟨p, hp, -⟩ := bind_pure_ok.mp hrun
      obtain ⟨decoded, hd, -⟩ := getPair_ok.mp hp
      rw [hd] at hr
      cases hr
  | allPairs =>
      obtain ⟨i, u, hi, -⟩ := bind_ok.mp hrun
      rw [(orRevert_ok.mp hi).1] at hr
      cases hr
  | createPair =>
      obtain ⟨p, hp, -⟩ := bind_pure_ok.mp hrun
      obtain ⟨decoded, hd, -⟩ := createPair_ok.mp hp
      rw [hd] at hr
      cases hr
  | setFeeTo =>
      obtain ⟨_, hp, -⟩ := bind_pure_ok.mp hrun
      obtain ⟨-, account, hd, -⟩ := setFeeTo_ok.mp hp
      rw [hd] at hr
      cases hr
  | setFeeToSetter =>
      obtain ⟨_, hp, -⟩ := bind_pure_ok.mp hrun
      obtain ⟨-, account, hd, -⟩ := setFeeToSetter_ok.mp hp
      rw [hd] at hr
      cases hr

end Service

section Runs

variable {κ W : Type} [DecidableEq κ] {live : W → Set Address} {api : Api κ W} {abi : FactoryAbi}
  {s : State κ W} {o : Office}

def turn (api : Api κ W) (abi : FactoryAbi) (tx : Tx live) (s : State κ W) : Turn where
  caller := tx.caller
  request := request abi tx.callData
  granted := granted (tx.api api) (tx.before s) (request abi tx.callData)
  reply := value (execute api abi tx s)

def minutes (api : Api κ W) (abi : FactoryAbi) : List (Tx live) → State κ W → List Turn
  | [], _ => []
  | tx :: txs, s => turn api abi tx s :: minutes api abi txs (step api abi tx s)

def openedWith (callData : Buffer) : Office :=
  if callData.length < 64 then .opened 0 0
  else .opened (lowAddress (fromBeSlice ((callData.drop 12).take 20)))
    (fromBeSlice ((callData.drop 32).take 32))

theorem padAddress_lowAddress {v : U256} (h : v.toNat < 2 ^ 160) : padAddress (lowAddress v) = v := by
  apply BitVec.eq_of_toNat_eq
  rw [padAddress, lowAddress, BitVec.toNat_setWidth, BitVec.toNat_setWidth, Nat.mod_eq_of_lt h,
    Nat.mod_eq_of_lt v.isLt]

theorem toNat_fromBeSlice_lt {bs : Buffer} (h : bs.length ≤ 20) : (fromBeSlice bs).toNat < 2 ^ 160 := by
  have hlt := (ofBeBytes_lt bs).trans_le (Nat.pow_le_pow_right (by decide) h)
  rw [fromBeSlice, BitVec.toNat_ofNat]
  exact (Nat.mod_le _ _).trans_lt (hlt.trans_eq (by norm_num))

theorem represents_deployed (apart : Apart api) (callData : Buffer) (world : W) :
    Represents api live (deployed api callData world) (openedWith callData) := by
  have hrec : Records api live (deployed api callData world) Book.empty := records_deployed apart ..
  by_cases hlen : callData.length < 64
  · have hd : deployed api callData world = State.fresh world := by
      rw [deployed, Factory.deploy, if_pos hlen]
      rfl
    rw [openedWith, if_pos hlen]
    rw [hd] at hrec ⊢
    exact ⟨hrec, rfl, rfl, rfl⟩
  · have hslots : slots api (deployed api callData world) =
        Function.update (Function.update (fun _ => 0) slotFeeToSetter
          (fromBeSlice ((callData.drop 12).take 20))) slotPairCodeHash
          (fromBeSlice ((callData.drop 32).take 32)) := by
      rw [deployed, Factory.deploy, if_neg hlen]
      exact (slots_set_slot ..).trans (congrArg (Function.update · _ _) (slots_set_slot ..))
    rw [openedWith, if_neg hlen]
    refine ⟨hrec, ?_, ?_, ?_⟩
    · rw [hslots, Function.update_of_ne (by decide), Function.update_of_ne (by decide)]
      rfl
    · rw [hslots, Function.update_of_ne (by decide), Function.update_self]
      exact (padAddress_lowAddress (toNat_fromBeSlice_lt (List.length_take_le _ _))).symm
    · rw [hslots, Function.update_self]
      rfl

variable (free : FreeKeccak api) (fresh : FreshInstances api live) (untouched : Untouched api)

include free fresh untouched

theorem minutes_kept (abi : FactoryAbi) (txs : List (Tx live)) (h : Represents api live s o) :
    ∃ o', Minutes o (minutes api abi txs s) o' ∧
      Represents api live (txs.foldl (fun s tx => step api abi tx s) s) o' := by
  induction txs generalizing s o with
  | nil => exact ⟨o, .nil o, h⟩
  | cons tx txs ih =>
      cases hr : request abi tx.callData with
      | none =>
          have hfail (out : Buffer) (t : State κ W) :
              Factory.call (tx.api api) abi tx.callData (tx.before s) ≠ .ok out t := unread_refused hr out t
          obtain ⟨hv, ht⟩ := outcome_of_fail hfail
          obtain ⟨o', hm, h'⟩ := ih (ht ▸ represents_before h : Represents api live (step api abi tx s) o)
          exact ⟨o', .unread hr hv hm, h'⟩
      | some r =>
          obtain ⟨o₁, hs, h₁⟩ := request_served free fresh untouched h hr
          obtain ⟨o', hm, h'⟩ := ih h₁
          refine ⟨o', .served hr ?_ hm, h'⟩
          rw [turn, hr]
          exact hs

/-- A deployed factory does what an office does: over any run it gives the
answers of an office that opened with its constructor's arguments, and its
storage holds what that office has come to. -/
theorem factory_refines_office (abi : FactoryAbi) (callData : Buffer) (world : W) (txs : List (Tx live)) :
    ∃ o, Minutes (openedWith callData) (minutes api abi txs (deployed api callData world)) o ∧
      Represents api live (txs.foldl (fun s tx => step api abi tx s) (deployed api callData world)) o :=
  minutes_kept free fresh untouched abi txs (represents_deployed (apart_of_free free) callData world)

omit free fresh untouched in
theorem callers_minutes (txs : List (Tx live)) (s : State κ W) {turn : Turn}
    (h : turn ∈ minutes api abi txs s) : ∃ tx ∈ txs, turn.caller = tx.caller := by
  induction txs generalizing s with
  | nil => cases h
  | cons tx txs ih =>
      rcases List.mem_cons.mp h with rfl | h
      · exact ⟨tx, List.mem_cons_self .., rfl⟩
      · obtain ⟨tx', ht, hc⟩ := ih _ h
        exact ⟨tx', List.mem_cons_of_mem _ ht, hc⟩

/-- In any run of a factory the code of its pairs stays, the fee recipient and
the setter stay until the setter itself calls, and a factory deployed with less
than its two words never has a pair. -/
theorem fee_settings_guarded (abi : FactoryAbi) (callData : Buffer) (world : W) (txs later : List (Tx live)) :
    let s := txs.foldl (fun s tx => step api abi tx s) (deployed api callData world)
    let t := later.foldl (fun s tx => step api abi tx s) s
    slots api t slotPairCodeHash = slots api (deployed api callData world) slotPairCodeHash ∧
      ((∀ tx ∈ later, tx.caller ≠ lowAddress (slots api s slotFeeToSetter)) →
        slots api t slotFeeTo = slots api s slotFeeTo ∧
          slots api t slotFeeToSetter = slots api s slotFeeToSetter) ∧
      (callData.length < 64 → (view api t).length = 0 ∧ ∀ a b, (view api t).reported a b = 0) := by
  intro s t
  have hd : Represents api live (deployed api callData world) (openedWith callData) :=
    represents_deployed (apart_of_free free) callData world
  obtain ⟨o, hm, hs⟩ := minutes_kept free fresh untouched abi txs hd
  obtain ⟨o', hm', ht⟩ := minutes_kept free fresh untouched abi later hs
  refine ⟨?_, fun hc => ?_, fun hlen => ?_⟩
  · rw [ht.codeHash, hd.codeHash, hm'.codeHash, hm.codeHash]
  · have hset := hs.feeToSetter
    obtain ⟨h0, h1⟩ := hm'.settings fun turn hturn => by
      obtain ⟨tx, hmem, heq⟩ := callers_minutes later s hturn
      rw [heq, ← lowAddress_padAddress o.feeToSetter, ← hset]
      exact hc tx hmem
    rw [ht.feeTo, hs.feeTo, ht.feeToSetter, hset, h0, h1]
    exact ⟨rfl, rfl⟩
  · have hcode : (openedWith callData).codeHash = 0 := by rw [openedWith, if_pos hlen, Office.opened]
    have hbook : o'.book = Book.empty := by
      rw [hm'.book_of_no_code (hm.codeHash.trans hcode), hm.book_of_no_code hcode, openedWith, if_pos hlen,
        Office.opened]
    refine ⟨BitVec.eq_of_toNat_eq ?_, fun a b => ?_⟩
    · rw [ht.records.refines.length, hbook]
      rfl
    · rw [ht.records.refines.reported, hbook]
      rfl

end Runs

section Samples

def settingTx (caller : Address) (f : FactoryFn) (account : Address) : Tx handedOut where
  caller := caller
  callData := encodeCall f.selector [padAddress account]
  outside := id
  outside_live _ := Set.Subset.rfl

def officeTxs : List (Tx handedOut) :=
  [createPairTx 5 2 1, createPairTx 6 1 2, settingTx 7 .setFeeTo 4, settingTx 6 .setFeeTo 6,
    settingTx 7 .setFeeToSetter 8, createPairTx 5 1 3]

theorem factory_refines_office_sample :
    let data := toBeBytes 7 ++ toBeBytes 1
    let start := deployed supplyApi data [20, 21, 22]
    (minutes supplyApi standardFactoryAbi officeTxs start).map Turn.reply =
      [some (addressWord 20), none, some [], none, some [], some (addressWord 21)] ∧
      ∃ o, Minutes (openedWith data) (minutes supplyApi standardFactoryAbi officeTxs start) o ∧
        Represents supplyApi handedOut
          (officeTxs.foldl (fun s tx => step supplyApi standardFactoryAbi tx s) start) o := by
  intro data start
  have free : FreeKeccak supplyApi := freeKeccak_key rfl rfl
  exact ⟨by decide +kernel, factory_refines_office free freshInstances_supply untouched_supply
    standardFactoryAbi data [20, 21, 22] officeTxs⟩

theorem fee_settings_guarded_sample :
    let start := deployed supplyApi (toBeBytes 7 ++ toBeBytes 1) [20, 21, 22]
    let s := officeTxs.foldl (fun s tx => step supplyApi standardFactoryAbi tx s) start
    let t := [settingTx 7 .setFeeTo 9].foldl (fun s tx => step supplyApi standardFactoryAbi tx s) s
    slots supplyApi t slotFeeTo = slots supplyApi s slotFeeTo ∧
      slots supplyApi t slotFeeToSetter = slots supplyApi s slotFeeToSetter := by
  intro start s t
  have free : FreeKeccak supplyApi := freeKeccak_key rfl rfl
  have h := fee_settings_guarded free freshInstances_supply untouched_supply standardFactoryAbi
    (toBeBytes 7 ++ toBeBytes 1) [20, 21, 22] officeTxs [settingTx 7 .setFeeTo 9]
  refine h.2.1 fun tx htx => ?_
  rw [List.mem_singleton.mp htx]
  decide +kernel

end Samples

end RiscVContracts.FactoryOffice
