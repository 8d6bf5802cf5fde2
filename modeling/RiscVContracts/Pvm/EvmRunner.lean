import RiscVContracts.Lib.Bytes
import RiscVContracts.Lib.Programs
import Mathlib.Logic.Function.Basic

namespace RiscVContracts.EvmRunner

open Programs Bytes

section Crate

abbrev Address := Vector UInt8 20

abbrev Word := Vector UInt8 32

structure AccountInfo where
  balance : Nat
  nonce : Nat
  codeHash : Word
  code : Option Buffer
  deriving DecidableEq, Repr

inductive TxKind
  | create
  | call (callee : Address)
  deriving DecidableEq, Repr

structure TxEnv where
  caller : Address
  kind : TxKind
  txType : UInt8
  gasLimit : Nat
  gasPrice : Nat
  value : Nat
  data : Buffer
  nonce : Nat
  chainId : Option Nat
  accessList : List (Address × List Word)
  gasPriorityFee : Option Nat
  blobHashes : List Word
  maxFeePerBlobGas : Nat
  deriving DecidableEq, Repr

inductive Output
  | call (data : Buffer)
  | create (data : Buffer) (address : Option Address)
  deriving DecidableEq, Repr

def Output.address : Output → Option Address
  | call _ => none
  | create _ address => address

def Output.intoData : Output → Buffer
  | call data => data
  | create data _ => data

inductive ExecutionResult
  | success (gasUsed : Nat) (output : Output)
  | revert (gasUsed : Nat) (output : Buffer)
  | halt (reason : String) (gasUsed : Nat)
  deriving DecidableEq, Repr

/-- What the runner uses of revm, over databases of type `D`: a transaction
that is not committed is rejected with the error it prints. -/
structure Revm (D : Type) where
  default : D
  insertAccountInfo : D → Address → AccountInfo → D
  clearStorage : D → Address → D
  transactCommit : D → TxEnv → Except String ExecutionResult × D
  hashSlow : Buffer → Word
  nonce : D → Address → Nat

variable {D : Type}

/-- How revm keeps nonces: it rejects a transaction that does not carry its
sender's nonce and raises the nonce with each transaction it commits. -/
structure NonceRule (revm : Revm D) : Prop where
  rejects (db : D) (tx : TxEnv) : tx.nonce ≠ revm.nonce db tx.caller →
    ∃ e, (revm.transactCommit db tx).1 = .error e
  commits (db : D) (tx : TxEnv) (result : ExecutionResult) :
    (revm.transactCommit db tx).1 = .ok result →
    revm.nonce (revm.transactCommit db tx).2 tx.caller = revm.nonce db tx.caller + 1
  rejected (db : D) (tx : TxEnv) (e : String) : (revm.transactCommit db tx).1 = .error e →
    revm.nonce (revm.transactCommit db tx).2 tx.caller = revm.nonce db tx.caller
  insert (db : D) (account : Address) (info : AccountInfo) (other : Address) :
    revm.nonce (revm.insertAccountInfo db account info) other =
      if other = account then info.nonce else revm.nonce db other
  clear (db : D) (account other : Address) :
    revm.nonce (revm.clearStorage db account) other = revm.nonce db other

end Crate

section Executor

def contractAddress : Address := .replicate 20 0x42

def callerAddress : Address := .replicate 20 0x01

def gasLimit : Nat := 300000000

structure RevmExecutor (D : Type) where
  db : D
  contractAddress : Address

inductive Panic
  | unwrap (e : String)
  deriving DecidableEq, Repr

inductive DeployError
  | noAddress
  | reverted (output : Buffer)
  | halted (reason : String)
  deriving DecidableEq, Repr

inductive CallError
  | transaction (e : String)
  | reverted (gasUsed : Nat) (output : Buffer)
  | halted (reason : String) (gasUsed : Nat)
  deriving DecidableEq, Repr

abbrev Execution (D α : Type) := EStateM Panic (RevmExecutor D) α

variable {D : Type} (revm : Revm D)

def fresh : RevmExecutor D where
  db := revm.insertAccountInfo revm.default callerAddress
    { balance := 1000000000000000000, nonce := 0, codeHash := .replicate 32 0, code := none }
  contractAddress := contractAddress

def deploy (bytecode : Buffer) : Execution D Unit :=
  modify fun executor =>
    { db := revm.insertAccountInfo executor.db contractAddress
        { balance := 0, nonce := 1, codeHash := revm.hashSlow bytecode, code := some bytecode }
      contractAddress := contractAddress }

def txEnv (kind : TxKind) (data : Buffer) : TxEnv where
  caller := callerAddress
  kind := kind
  txType := 0
  gasLimit := gasLimit
  gasPrice := 1
  value := 0
  data := data
  nonce := 0
  chainId := some 1
  accessList := []
  gasPriorityFee := none
  blobHashes := []
  maxFeePerBlobGas := 1

def transactCommit (tx : TxEnv) : Execution D (Except String ExecutionResult) := do
  let executor ← get
  let r := revm.transactCommit executor.db tx
  set { executor with db := r.2 }
  return r.1

def deployCreate (initBytecode : Buffer) : Execution D (Except DeployError Address) := do
  match ← transactCommit revm (txEnv .create initBytecode) with
  | .error e => throw (.unwrap e)
  | .ok (.success _ output) =>
    match output.address with
    | none => return .error .noAddress
    | some addr => do
      modify fun executor => { executor with contractAddress := addr }
      return .ok addr
  | .ok (.revert _ output) => return .error (.reverted output)
  | .ok (.halt reason _) => return .error (.halted reason)

def call (calldata : Buffer) : Execution D (Except CallError (Nat × Buffer)) := do
  match ← transactCommit revm (txEnv (.call (← get).contractAddress) calldata) with
  | .error e => return .error (.transaction e)
  | .ok (.success gasUsed output) => return .ok (gasUsed, output.intoData)
  | .ok (.revert gasUsed output) => return .error (.reverted gasUsed output)
  | .ok (.halt reason gasUsed) => return .error (.halted reason gasUsed)

def resetStorage : Execution D Unit :=
  modify fun executor => { executor with db := revm.clearStorage executor.db executor.contractAddress }

end Executor

section Runs

variable {D : Type}

inductive Operation
  | deploy (bytecode : Buffer)
  | deployCreate (initBytecode : Buffer)
  | call (calldata : Buffer)
  | resetStorage
  deriving DecidableEq, Repr

def perform (revm : Revm D) : Operation → Execution D Unit
  | .deploy bytecode => deploy revm bytecode
  | .deployCreate initBytecode => discard (deployCreate revm initBytecode)
  | .call calldata => discard (call revm calldata)
  | .resetStorage => resetStorage revm

def transaction (executor : RevmExecutor D) : Operation → Option TxEnv
  | .deployCreate initBytecode => some (txEnv .create initBytecode)
  | .call calldata => some (txEnv (.call executor.contractAddress) calldata)
  | .deploy _ | .resetStorage => none

def sends : Operation → Bool
  | .deployCreate _ | .call _ => true
  | .deploy _ | .resetStorage => false

def committed (revm : Revm D) (operation : Operation) (executor : RevmExecutor D) : Nat :=
  match transaction executor operation with
  | some tx => if (revm.transactCommit executor.db tx).1.isOk then 1 else 0
  | none => 0

/-- One operation, with a count of the transactions committed so far. An
executor that has panicked may be used again. -/
def step (revm : Revm D) (operation : Operation) (s : RevmExecutor D × Nat) : RevmExecutor D × Nat :=
  (final (perform revm operation s.1), s.2 + committed revm operation s.1)

def RejectedForNonce (revm : Revm D) (operation : Operation) (executor : RevmExecutor D) : Prop :=
  ∃ tx e, transaction executor operation = some tx ∧
    (revm.transactCommit executor.db tx).1 = .error e ∧ tx.nonce ≠ revm.nonce executor.db tx.caller

variable {revm : Revm D} {executor : RevmExecutor D}

theorem transactCommit_eq (tx : TxEnv) : transactCommit revm tx executor =
    .ok (revm.transactCommit executor.db tx).1
      { executor with db := (revm.transactCommit executor.db tx).2 } := rfl

theorem final_deployCreate (initBytecode : Buffer) :
    (final (deployCreate revm initBytecode executor)).db =
      (revm.transactCommit executor.db (txEnv .create initBytecode)).2 := by
  rw [deployCreate, bind_of_ok (transactCommit_eq _)]
  cases (revm.transactCommit executor.db (txEnv .create initBytecode)).1 with
  | error e => rfl
  | ok result =>
    cases result with
    | success gasUsed output =>
        dsimp only
        cases output.address with
        | none => rfl
        | some addr => rfl
    | revert gasUsed output => rfl
    | halt reason gasUsed => rfl

theorem final_call (calldata : Buffer) : (final (call revm calldata executor)).db =
    (revm.transactCommit executor.db (txEnv (.call executor.contractAddress) calldata)).2 := by
  have hget : (get : Execution D (RevmExecutor D)) executor = .ok executor executor := rfl
  rw [call, bind_of_ok hget, bind_of_ok (transactCommit_eq _)]
  cases (revm.transactCommit executor.db (txEnv (.call executor.contractAddress) calldata)).1 with
  | error e => rfl
  | ok result => cases result <;> rfl

theorem final_discard {α : Type} (x : Execution D α) :
    final ((discard x : Execution D Unit) executor) = final (x executor) := by
  rw [discard, Functor.mapConst]
  change final ((x >>= fun _ => pure ()) executor) = _
  cases hx : x executor with
  | ok a t =>
      rw [bind_of_ok hx]
      rfl
  | error e t =>
      rw [bind_of_error hx]
      rfl

theorem nonce_perform (hrule : NonceRule revm) (operation : Operation) :
    revm.nonce (final (perform revm operation executor)).db callerAddress =
      revm.nonce executor.db callerAddress + committed revm operation executor := by
  have hcommit (tx : TxEnv) (hcaller : tx.caller = callerAddress) :
      revm.nonce (revm.transactCommit executor.db tx).2 callerAddress =
        revm.nonce executor.db callerAddress +
          if (revm.transactCommit executor.db tx).1.isOk then 1 else 0 := by
    rw [← hcaller]
    cases hr : (revm.transactCommit executor.db tx).1 with
    | error e => exact hrule.rejected _ _ _ hr
    | ok result => exact hrule.commits _ _ _ hr
  cases operation with
  | deploy bytecode =>
      exact (hrule.insert _ _ _ _).trans (if_neg (by decide))
  | deployCreate initBytecode =>
      rw [perform, final_discard, final_deployCreate]
      exact hcommit _ rfl
  | call calldata =>
      rw [perform, final_discard, final_call]
      exact hcommit _ rfl
  | resetStorage => exact hrule.clear _ _ _

theorem rejectedForNonce_iff (hrule : NonceRule revm) (operation : Operation) :
    RejectedForNonce revm operation executor ↔
      sends operation ∧ revm.nonce executor.db callerAddress ≠ 0 := by
  have htx (tx : TxEnv) (htransaction : transaction executor operation = some tx) (hnonce : tx.nonce = 0)
      (hcaller : tx.caller = callerAddress) :
      RejectedForNonce revm operation executor ↔ revm.nonce executor.db callerAddress ≠ 0 := by
    constructor
    · rintro ⟨tx', e, htx', -, hne⟩
      cases htransaction.symm.trans htx'
      rw [hnonce, hcaller] at hne
      exact hne.symm
    · intro hne
      rw [← hnonce, ← hcaller] at hne
      obtain ⟨e, he⟩ := hrule.rejects executor.db tx hne.symm
      exact ⟨tx, e, htransaction, he, hne.symm⟩
  cases operation with
  | deploy bytecode | resetStorage =>
      refine iff_of_false ?_ fun h => by cases h.1
      rintro ⟨tx, e, h, -⟩
      cases h
  | deployCreate initBytecode | call calldata =>
      rw [htx _ rfl rfl rfl]
      exact (and_iff_right rfl).symm

/-- In a run of a new executor no transaction is rejected for its nonce exactly
when none is sent after one has been committed. -/
theorem nonces_current_iff (hrule : NonceRule revm) (operations : List Operation) :
    Steps (step revm) (fun operation s => ¬ RejectedForNonce revm operation s.1) operations
        (fresh revm, 0) ↔
      Steps (step revm) (fun operation s => sends operation → s.2 = 0) operations (fresh revm, 0) := by
  refine steps_congr (I := fun s : RevmExecutor D × Nat => revm.nonce s.1.db callerAddress = s.2)
    (fun operation s hs => ?_) (fun operation s hs => ?_) operations ?_
  · rw [step, nonce_perform hrule, hs]
  · rw [rejectedForNonce_iff hrule, hs, not_and, not_not]
  · exact (hrule.insert _ _ _ _).trans (if_pos rfl)

end Runs

section Samples

def ledger : Revm (Address → Nat) where
  default := fun _ => 0
  insertAccountInfo db account info := Function.update db account info.nonce
  clearStorage db _ := db
  transactCommit db tx :=
    if tx.nonce = db tx.caller then
      (.ok (.success 21000 (match tx.kind with
        | .create => .create [] (some (.replicate 20 7))
        | .call _ => .call [])), Function.update db tx.caller (db tx.caller + 1))
    else (.error "nonce", db)
  hashSlow _ := .replicate 32 0
  nonce db account := db account

theorem ledger_rule : NonceRule ledger where
  rejects db tx h := ⟨"nonce", by simp only [ledger, if_neg (show tx.nonce ≠ db tx.caller from h)]⟩
  commits db tx result h := by
    by_cases hnonce : tx.nonce = db tx.caller
    · simp only [ledger, if_pos hnonce, Function.update_self]
    · simp only [ledger, if_neg hnonce] at h
      cases h
  rejected db tx e h := by
    by_cases hnonce : tx.nonce = db tx.caller
    · simp only [ledger, if_pos hnonce] at h
      cases h
    · simp only [ledger, if_neg hnonce]
  insert db account info other := Function.update_apply db account info.nonce other
  clear _ _ _ := rfl

/-- The second call on one executor is rejected, also after a reset, and the
second creation panics. -/
theorem second_transaction_rejected :
    let operations : List Operation := [.deploy [0x00], .call [], .resetStorage, .call []]
    NonceRule ledger ∧
      ¬ Steps (step ledger) (fun operation s => ¬ RejectedForNonce ledger operation s.1) operations
        (fresh ledger, 0) ∧
      (∃ executor, (deploy ledger [0x00] >>= fun _ => call ledger [] >>= fun _ =>
        resetStorage ledger >>= fun _ => call ledger []) (fresh ledger) =
          .ok (.error (.transaction "nonce")) executor) ∧
      ∃ executor, (deployCreate ledger [0x00] >>= fun _ => deployCreate ledger [0x00]) (fresh ledger) =
        .error (.unwrap "nonce") executor := by
  intro operations
  refine ⟨ledger_rule, ?_, ⟨_, rfl⟩, ⟨_, rfl⟩⟩
  rintro ⟨-, -, -, hcall, -⟩
  exact hcall ⟨_, "nonce", rfl, rfl, by decide⟩

theorem nonces_current_sample :
    Steps (step ledger) (fun operation s => ¬ RejectedForNonce ledger operation s.1)
      [.deploy [0x00], .resetStorage, .deployCreate [0x00], .resetStorage, .deploy [0x00]]
      (fresh ledger, 0) :=
  (nonces_current_iff ledger_rule _).mpr
    ⟨nofun, nofun, fun _ => rfl, nofun, nofun, trivial⟩

end Samples

end RiscVContracts.EvmRunner
