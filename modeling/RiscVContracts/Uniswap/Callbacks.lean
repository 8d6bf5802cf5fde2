import RiscVContracts.Uniswap.Debits
import RiscVContracts.Uniswap.Reentrancy

namespace RiscVContracts.Callbacks

open Programs Bytes Host Storage Pair PairView PairSpec PairSlots PairInvariants Calldata Symbolic
  Debits
open Reentrancy (Callback Reaction)

structure Entry where
  caller : Address
  callData : Buffer
  credit : Option Credit
  deriving DecidableEq

/-- The reactions still to come, and the calls committed so far, the latest
first: a call that is rolled back leaves no entry. -/
structure Journal where
  script : List Reaction
  calls : List Entry

variable {κ : Type} [DecidableEq κ]

def scripted (s : State κ Journal) (script : List Reaction) : State κ Journal :=
  { s with world := { s.world with script := script } }

def onBehalf (c : Callback Reaction) (api : Api κ Journal) : Api κ Journal :=
  { api with caller := c.caller, now := c.now }

def entry (api : Api κ Journal) (abi : PairAbi) (s : State κ Journal) (c : Callback Reaction) : Entry where
  caller := c.caller
  callData := c.callData
  credit := credit (onBehalf c api) abi c.callData (scripted s c.script)

/-- The state `t` a call has returned in, with the script of the state `s` it was made from. -/
def committed (s t : State κ Journal) (e : Entry) : State κ Journal :=
  { t with world := { script := s.world.script, calls := e :: t.world.calls } }

def enter (api : Api κ Journal) (abi : PairAbi) (s : State κ Journal) (c : Callback Reaction) :
    State κ Journal :=
  match call (onBehalf c api) abi c.callData (scripted s c.script) with
  | .ok _ t => committed s t (entry api abi s c)
  | .error _ _ => s

def react (api : Api κ Journal) (abi : PairAbi) (s : State κ Journal) :
    Option Buffer × State κ Journal :=
  match s.world.script with
  | [] => (none, s)
  | .mk _ none :: rest => (none, scripted s rest)
  | .mk calls (some output) :: rest => (some output, calls.foldl (enter api abi) (scripted s rest))

def host (base : Api κ Journal) (abi : PairAbi) : Nat → Api κ Journal
  | 0 => { base with callEvm := fun _ _ s => (none, s) }
  | n + 1 => { base with callEvm := fun _ _ s => react (host base abi n) abi s }

section Keys

variable {base : Api κ Journal} {abi : PairAbi}

@[simp] theorem slots_host (n : Nat) : slots (host base abi n) = slots base := by cases n <;> rfl

@[simp] theorem lp_host (n : Nat) : lp (host base abi n) = lp base := by cases n <;> rfl

@[simp] theorem allowance_host (n : Nat) : allowance (host base abi n) = allowance base := by
  cases n <;> rfl

theorem separated_host (sep : Separated base) (n : Nat) : Separated (host base abi n) := by
  cases n <;> exact ⟨sep.balance, sep.balance_slot, sep.allowance_slot, sep.allowance_balance⟩

omit [DecidableEq κ] in
theorem separated_onBehalf {api : Api κ Journal} (sep : Separated api) (c : Callback Reaction) :
    Separated (onBehalf c api) :=
  ⟨sep.balance, sep.balance_slot, sep.allowance_slot, sep.allowance_balance⟩

end Keys

section Rules

variable {api base : Api κ Journal} {abi : PairAbi} {J : State κ Journal → Prop}

theorem enter_cases (api : Api κ Journal) (abi : PairAbi) (s : State κ Journal) (c : Callback Reaction) :
    enter api abi s c = s ∨ ∃ f out t, pairFn c.callData = some f ∧
      run (onBehalf c api) abi c.callData f (scripted s c.script) = .ok out t ∧
      enter api abi s c = committed s t (entry api abi s c) := by
  cases h : call (onBehalf c api) abi c.callData (scripted s c.script) with
  | error e t => exact .inl (by simp only [enter, h])
  | ok out t =>
      obtain ⟨-, f, hf, hr⟩ := call_ok.mp h
      exact .inr ⟨f, out, t, hf, hr, by simp only [enter, h]⟩

theorem keeps_foldl (h : ∀ s c, J s → J (enter api abi s c)) (calls : List (Callback Reaction))
    {s : State κ Journal} (hs : J s) : J (calls.foldl (enter api abi) s) := by
  induction calls generalizing s with
  | nil => exact hs
  | cons c calls ih => exact ih (h s c hs)

/-- What every call keeps, as long as the tokens it calls keep it, is kept by
tokens that call back to any depth. -/
theorem keeps_host (blind : ∀ s script, J s → J (scripted s script))
    (henter : ∀ n, (∀ callee input s, J s → J ((host base abi n).callEvm callee input s).2) →
      ∀ s c, J s → J (enter (host base abi n) abi s c)) (n : Nat) :
    ∀ callee input s, J s → J ((host base abi n).callEvm callee input s).2 := by
  induction n with
  | zero => exact fun _ _ _ hs => hs
  | succ n ih =>
      intro _ _ s hs
      change J (react (host base abi n) abi s).2
      unfold react
      split
      · exact hs
      · exact blind _ _ hs
      · exact keeps_foldl (henter n ih) _ (blind _ _ hs)

end Rules

def journalApi (caller address : Address) : Api Key Journal where
  word := .word
  word_injective _ _ h := Key.word.inj h
  hashKeccak256 := .hash
  caller := caller
  address := address
  now := Vector.replicate 32 0
  callEvm _ _ s := (none, s)

end RiscVContracts.Callbacks
