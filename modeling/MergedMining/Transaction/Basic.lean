import MergedMining.Hash.Hash256

/-! Transactions. -/
namespace MergedMining

/-- An output of an earlier transaction. -/
structure OutPoint where
  txid : Hash256
  vout : UInt32
deriving DecidableEq, Repr

/-- What the input of a coinbase spends. -/
def OutPoint.null : OutPoint := ⟨.zero, 0xffffffff⟩

def OutPoint.isNull (o : OutPoint) : Bool := o == null

structure Transaction.Input where
  previousOutput : OutPoint
  scriptSig : List UInt8
  sequence : UInt32
  /-- The stack of items, empty where there is no witness. -/
  witness : List (List UInt8)
deriving DecidableEq, Repr

structure Transaction.Output where
  /-- In the smallest unit of the chain. -/
  value : UInt64
  scriptPubkey : List UInt8
deriving DecidableEq, Repr

structure Transaction where
  version : Int32
  inputs : List Transaction.Input
  outputs : List Transaction.Output
  lockTime : UInt32
deriving DecidableEq, Repr

/-- The two ways to lay out a transaction. The one with witnesses has a marker and a flag where the
count of inputs would be, and after the outputs one stack for each input. -/
inductive Layout where
  | legacy | witness
deriving DecidableEq, Repr

namespace Transaction

def hasWitness (tx : Transaction) : Bool := tx.inputs.any fun input => !input.witness.isEmpty

/-- Witnesses are written exactly where there are some. -/
def layout (tx : Transaction) : Layout := if tx.hasWitness then .witness else .legacy

/-- Whether there is exactly one input and it spends the null outpoint. -/
def isCoinbase (tx : Transaction) : Bool :=
  match tx.inputs with
  | [input] => input.previousOutput.isNull
  | _ => false

end Transaction

end MergedMining
