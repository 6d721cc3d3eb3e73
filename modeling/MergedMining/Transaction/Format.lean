import MergedMining.Decoder.VarInt
import MergedMining.Transaction.Basic

/-! Transactions as bytes, in either layout. -/
namespace MergedMining.Transaction

/-- Bytes behind their length. -/
def encodeScript (script : List UInt8) : List UInt8 := VarInt.encodeLength script ++ script

def encodeStack (stack : List (List UInt8)) : List UInt8 :=
  VarInt.encodeLength stack ++ stack.flatMap encodeScript

/-- The witness is not part of it. -/
def Input.encode (input : Input) : List UInt8 :=
  input.previousOutput.txid.bytes ++ LittleEndian.encodeUInt32 input.previousOutput.vout
    ++ encodeScript input.scriptSig ++ LittleEndian.encodeUInt32 input.sequence

def Output.encode (output : Output) : List UInt8 :=
  LittleEndian.encodeUInt64 output.value ++ encodeScript output.scriptPubkey

def encodeAs (tx : Transaction) (layout : Layout) : List UInt8 :=
  LittleEndian.encodeInt32 tx.version
    ++ (if layout = .witness then [0, 1] else [])
    ++ VarInt.encodeLength tx.inputs ++ tx.inputs.flatMap Input.encode
    ++ VarInt.encodeLength tx.outputs ++ tx.outputs.flatMap Output.encode
    ++ (if layout = .witness then tx.inputs.flatMap fun input => encodeStack input.witness else [])
    ++ LittleEndian.encodeUInt32 tx.lockTime

def encode (tx : Transaction) : List UInt8 := tx.encodeAs tx.layout

def encodeLegacy (tx : Transaction) : List UInt8 := tx.encodeAs .legacy

/-- Does not depend on the witnesses. -/
def txid (tx : Transaction) : Hash256 := .hash tx.encodeLegacy

/-- The least length of an encoded transaction: a version, two empty lists and a lock time. -/
def minSize : Nat := 10

/-- An outpoint, an empty script and a sequence number. -/
def Input.minSize : Nat := 41

/-- A value and an empty script. -/
def Output.minSize : Nat := 9

def decodeScript (count : Decoder.CountReader) (field : String) : Decoder (List UInt8) := do
  .bytes (← count field 1) field

def decodeStack (count : Decoder.CountReader) : Decoder (List (List UInt8)) := do
  let n ← count "tx.witness.item_count" 1
  .times n (decodeScript count "tx.witness.item")

/-- An input with no witness yet. -/
def Input.decode (count : Decoder.CountReader) : Decoder Input := do
  let txid ← .hash "tx.input.prev_txid"
  let vout ← .uint32 "tx.input.prev_vout"
  let scriptSig ← decodeScript count "tx.input.script_sig"
  let sequence ← .uint32 "tx.input.sequence"
  return { previousOutput := ⟨txid, vout⟩, scriptSig, sequence, witness := [] }

def Output.decode (count : Decoder.CountReader) : Decoder Output := do
  let value ← .uint64 "tx.output.value"
  let scriptPubkey ← decodeScript count "tx.output.script_pubkey"
  return { value, scriptPubkey }

/-- A zero where the count of inputs belongs is the marker of the witness layout. -/
def decodeLayout : Decoder Layout := do
  if (← Decoder.here).peek = some 0 then
    let _ ← Decoder.uint8 "tx.marker"
    let flag ← Decoder.uint8 "tx.flag"
    if flag = 1 then return .witness else .fail (.format (.invalidWitnessFlag flag))
  else return .legacy

/-- Gives each input its stack. The witness layout is refused when all stacks are empty. -/
def decodeWitnesses (count : Decoder.CountReader) (layout : Layout) (inputs : List Input) :
    Decoder (List Input) :=
  match layout with
  | .legacy => return inputs
  | .witness => do
    let witnesses ← Decoder.times inputs.length (decodeStack count)
    if witnesses.all List.isEmpty then .fail (.format .superfluousWitness)
    else return inputs.zipWith (fun input stack => { input with witness := stack }) witnesses

def decodeCounting (count : Decoder.CountReader) : Decoder Transaction := do
  let version ← .int32 "tx.version"
  let layout ← decodeLayout
  let bare ← Decoder.times (← count "tx.input_count" Input.minSize) (Input.decode count)
  let outputs ← Decoder.times (← count "tx.output_count" Output.minSize) (Output.decode count)
  let inputs ← decodeWitnesses count layout bare
  let lockTime ← .uint32 "tx.lock_time"
  return { version, inputs, outputs, lockTime }

def decode : Decoder Transaction := decodeCounting .count

end MergedMining.Transaction
