import RiscVContracts.Uniswap.FactoryRegistry
import RiscVContracts.Uniswap.Tokens

namespace RiscVContracts.Exchange

open Programs Bytes Host Storage Pair PairView Symbolic Factory FactorySpec Calldata Tokens

section Model

inductive Target
  | factory
  | pair (address : Address)

structure Tx (R : Type) where
  target : Target
  caller : Address
  now : Vector UInt8 32
  callData : Buffer
  script : List R

/-- What a token does when a pair calls it: it calls into the system any number
of times, then answers or fails. -/
inductive Reaction
  | mk (calls : List (Tx Reaction)) (reply : Option Buffer)

/-- The pairs instantiated so far, the addresses the host has in store for new
ones, and the reactions still to come. -/
structure World where
  pairs : List Address
  supply : List Address
  script : List Reaction

/-- A factory, the pair contract its code hash stands for, and their decoders. -/
structure Setup (κ W : Type) where
  base : Api κ W
  pairAbi : PairAbi
  factoryAbi : FactoryAbi
  factory : Address
  codeHash : U256

abbrev Store (κ : Type) := State (Address × κ) World

variable {κ W : Type} (sys : Setup κ W)

/-- The host functions as the account `self` sees them: its keys lead into its own storage. -/
def account (self caller : Address) (now : Vector UInt8 32) : Api (Address × κ) World where
  word v := (self, sys.base.word v)
  word_injective _ _ h := sys.base.word_injective (Prod.ext_iff.mp h).2
  hashKeccak256 a b := (a.1, sys.base.hashKeccak256 a.2 b.2)
  caller := caller
  address := self
  now := now
  callEvm _ _ s := (none, s)

def undone (s t : Store κ) : Store κ where
  storage := s.storage
  world := { t.world with pairs := s.world.pairs }

def frame (x : Program (Address × κ) World Buffer) (s : Store κ) : Option Buffer × Store κ :=
  match x s with
  | .ok output t => (some output, t)
  | .error _ t => (none, undone s t)

variable [DecidableEq κ]

def pairApi (external : Store κ → Option Buffer × Store κ) (p caller : Address)
    (now : Vector UInt8 32) : Api (Address × κ) World :=
  { account sys p caller now with callEvm := fun _ _ s => external s }

def callPair (external : Store κ → Option Buffer × Store κ) (p caller : Address)
    (now : Vector UInt8 32) (callData : Buffer) (s : Store κ) : Option Buffer × Store κ :=
  if p ∈ s.world.pairs then
    frame (Pair.call (pairApi sys external p caller now) sys.pairAbi callData) s
  else (none, s)

def opened (s : Store κ) (p : Address) (rest : List Address) : Store κ where
  storage c := if c.1 = p then 0 else s.storage c
  world := { s.world with pairs := p :: s.world.pairs, supply := rest }

/-- The host instantiates the pair contract at the next address in store, if it
is fresh, and runs its constructor for the factory. -/
def instantiatePair (now : Vector UInt8 32) (input : Buffer) (s : Store κ) : Option Address × Store κ :=
  match s.world.supply with
  | [] => (none, s)
  | p :: rest =>
    if input = toBeBytes sys.codeHash ∧ p ≠ 0 ∧ p ≠ sys.factory ∧ p ∉ s.world.pairs then
      (some p, final (Pair.deploy (account sys p sys.factory now) (opened s p rest)))
    else (none, { s with world := { s.world with supply := rest } })

def factoryApi (external : Store κ → Option Buffer × Store κ) (caller : Address)
    (now : Vector UInt8 32) : Api (Address × κ) World :=
  { account sys sys.factory caller now with
    instantiate := instantiatePair sys now
    call := fun p input s => callPair sys external p sys.factory now input s }

def enter (external : Store κ → Option Buffer × Store κ) (s : Store κ) (tx : Tx Reaction) : Store κ :=
  let start : Store κ := { s with world := { s.world with script := tx.script } }
  let t := match tx.target with
    | .factory =>
      (frame (Factory.call (factoryApi sys external tx.caller tx.now) sys.factoryAbi tx.callData) start).2
    | .pair p => (callPair sys external p tx.caller tx.now tx.callData start).2
  { t with world := { t.world with script := s.world.script } }

def react (external : Store κ → Option Buffer × Store κ) (s : Store κ) : Option Buffer × Store κ :=
  match s.world.script with
  | [] => (none, s)
  | .mk calls reply :: rest =>
    let t := calls.foldl (enter sys external) { s with world := { s.world with script := rest } }
    match reply with
    | some output => (some output, t)
    | none => (none, undone s t)

def external : Nat → Store κ → Option Buffer × Store κ
  | 0, s => (none, s)
  | n + 1, s => react sys (external n) s

def step (n : Nat) (tx : Tx Reaction) (s : Store κ) : Store κ := enter sys (external sys n) s tx

def deployed (setter : U256) (supply : List Address) : Store κ :=
  FactoryRegistry.deployed (account sys sys.factory sys.factory (Vector.replicate 32 0))
    (toBeBytes setter ++ toBeBytes sys.codeHash) { pairs := [], supply := supply, script := [] }

end Model

section Views

variable {κ W : Type} (sys : Setup κ W)

def registry (s : Store κ) : View := view (account sys sys.factory 0 (Vector.replicate 32 0)) s

theorem registry_eq_view (caller : Address) (now : Vector UInt8 32) (s : Store κ) :
    registry sys s = view (account sys sys.factory caller now) s := rfl

def cells (p : Address) (s : Store κ) : U32 → U256 := slots (account sys p 0 (Vector.replicate 32 0)) s

def factoryOf (s : Store κ) (p : Address) : Address := lowAddress (cells sys p s Pair.slotFactory)

def token0Of (s : Store κ) (p : Address) : Address := lowAddress (cells sys p s slotToken0)

def token1Of (s : Store κ) (p : Address) : Address := lowAddress (cells sys p s slotToken1)

end Views

section Keys

variable {κ W : Type} {sys : Setup κ W} {self caller : Address} {now : Vector UInt8 32}

theorem apart_account (free : FreeKeccak sys.base) : Apart (account sys self caller now) where
  pair_injective h := (apart_of_free free).pair_injective (Prod.ext_iff.mp h).2
  array_injective _ _ h := (apart_of_free free).array_injective (Prod.ext_iff.mp h).2
  pair_array a b i h := (apart_of_free free).pair_array a b i (Prod.ext_iff.mp h).2
  pair_slot a b n h := (apart_of_free free).pair_slot a b n (Prod.ext_iff.mp h).2
  array_slot i n h := (apart_of_free free).array_slot i n (Prod.ext_iff.mp h).2

variable [DecidableEq κ]

theorem cells_set_of_ne {p q : Address} (h : q ≠ p) (s : Store κ) (k : κ) (v : U256) :
    cells sys q (s.set (p, k) v) = cells sys q s := by
  funext n
  exact State.set_storage_of_ne s (fun he => h (Prod.ext_iff.mp he).1) v

theorem cells_set_key {p : Address} {n : U32} {k : κ} (h : slotKey sys.base n ≠ k) (s : Store κ) (v : U256) :
    cells sys p (s.set (p, k) v) n = cells sys p s n :=
  State.set_storage_of_ne s (fun he => h (Prod.ext_iff.mp he).2) v

theorem registry_set_of_ne {p : Address} (h : sys.factory ≠ p) (s : Store κ) (k : κ) (v : U256) :
    registry sys (s.set (p, k) v) = registry sys s := by
  have hne (k' : κ) : (s.set (p, k) v).storage (sys.factory, k') = s.storage (sys.factory, k') :=
    State.set_storage_of_ne s (fun he => h (Prod.ext_iff.mp he).1) v
  simp only [registry, view, View.mk.injEq]
  exact ⟨hne _, funext fun _ => congrArg lowAddress (hne _),
    funext fun _ => funext fun _ => congrArg lowAddress (hne _)⟩

end Keys

end RiscVContracts.Exchange
