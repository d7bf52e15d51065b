import AxelarCgp.Platform.Types

/-!
# Governance data

The payloads the governance contract decodes, the events of
`governance/src/events.rs`, and the asynchronous calls it registers together
with the callback each of them comes back to.
-/

namespace AxelarCgp.Governance

open NestedCodec

inductive ServiceGovernanceCommand where
  | scheduleTimeLockProposal
  | cancelTimeLockProposal
  | approveOperatorProposal
  | cancelOperatorApproval
  deriving DecidableEq

/-- Enumerations encode as the index of their variant in one byte. -/
instance : NestedCodec ServiceGovernanceCommand where
  depEncode
    | .scheduleTimeLockProposal => [0]
    | .cancelTimeLockProposal => [1]
    | .approveOperatorProposal => [2]
    | .cancelOperatorApproval => [3]
  depDecode
    | 0 :: rest => some (.scheduleTimeLockProposal, rest)
    | 1 :: rest => some (.cancelTimeLockProposal, rest)
    | 2 :: rest => some (.approveOperatorProposal, rest)
    | 3 :: rest => some (.cancelOperatorApproval, rest)
    | _ => none
  depDecode_depEncode_append value rest := by cases value <;> rfl

structure DecodedCallData where
  endpointName : ManagedBuffer
  arguments : Vec ManagedBuffer
  minGasLimit : UInt64
  deriving DecidableEq

instance : NestedCodec DecodedCallData :=
  via (fun data => (data.endpointName, data.arguments, data.minGasLimit))
    (fun fields => ⟨fields.1, fields.2.1, fields.2.2⟩) (fun _ => rfl)

structure ExecutePayload where
  command : ServiceGovernanceCommand
  target : Address
  callData : ManagedBuffer
  nativeValue : BigUint
  eta : UInt64
  deriving DecidableEq

instance : NestedCodec ExecutePayload :=
  via (fun payload => (payload.command, payload.target, payload.callData, payload.nativeValue,
      payload.eta))
    (fun fields => ⟨fields.1, fields.2.1, fields.2.2.1, fields.2.2.2.1, fields.2.2.2.2⟩)
    (fun _ => rfl)

structure EgldOrEsdtToken where
  tokenIdentifier : EgldOrEsdtTokenIdentifier
  tokenNonce : UInt64
  deriving DecidableEq

namespace EgldOrEsdtToken

/-- The key under which EGLD is refunded. -/
def egld : EgldOrEsdtToken := ⟨.egld, 0⟩

/-- The key under which an ESDT payment is refunded. -/
def ofPayment (payment : EsdtTokenPayment) : EgldOrEsdtToken :=
  ⟨.esdt payment.tokenIdentifier, payment.tokenNonce⟩

def asset (token : EgldOrEsdtToken) : Asset :=
  token.tokenIdentifier.asset token.tokenNonce

end EgldOrEsdtToken

inductive Event where
  | proposalScheduled (proposalHash : Hash) (target : Address) (eta : UInt64)
      (callData : ManagedBuffer) (value : BigUint)
  | proposalCancelled (proposalHash : Hash) (target : Address) (eta : UInt64)
      (callData : ManagedBuffer) (value : BigUint)
  | proposalExecuted (proposalHash : Hash) (target : Address) (callData : ManagedBuffer)
      (value : BigUint)
  | executeProposalSuccess (proposalHash : Hash) (results : List ManagedBuffer)
  | executeProposalError (proposalHash : Hash) (errCode : UInt32) (errMessage : ManagedBuffer)
  | operatorApproved (proposalHash : Hash) (target : Address) (callData : ManagedBuffer)
      (value : BigUint)
  | operatorCancelled (proposalHash : Hash) (target : Address) (callData : ManagedBuffer)
      (value : BigUint)
  | operatorProposalExecuted (proposalHash : Hash) (target : Address)
      (callData : ManagedBuffer) (value : BigUint)
  | operatorExecuteProposalSuccess (proposalHash : Hash) (results : List ManagedBuffer)
  | operatorExecuteProposalError (proposalHash : Hash) (errCode : UInt32)
      (errMessage : ManagedBuffer)
  | operatorshipTransferred (oldMultisig newMultisig : Address)
  deriving DecidableEq

/-! ## Asynchronous calls -/

/-- The two kinds of proposals, each with its own mappers and callback. -/
inductive Kind where
  | timeLock
  | operator
  deriving DecidableEq

/-- The closure an asynchronous call comes back to: `execute_proposal_callback`
or `execute_operator_proposal_callback`, with its captured arguments. -/
structure Callback where
  kind : Kind
  hash : Hash
  caller : Address
  payments : EgldOrMultiEsdtPayment
  deriving DecidableEq

structure Promise where
  target : Address
  endpointName : ManagedBuffer
  egldValue : BigUint
  arguments : Vec ManagedBuffer
  gasLimit : UInt64
  extraGasForCallback : UInt64
  callback : Callback
  deriving DecidableEq

inductive ManagedAsyncCallResult where
  | ok (results : List ManagedBuffer)
  | err (errCode : UInt32) (errMsg : ManagedBuffer)
  deriving DecidableEq

/-- What a call leaves for the platform to do: events, an asynchronous call to
register, and a direct send. -/
structure Effects where
  events : List Event := []
  promise : Option Promise := none
  transfer : Option (Address × Asset × ℕ) := none
  deriving DecidableEq

end AxelarCgp.Governance
