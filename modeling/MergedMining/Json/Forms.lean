import MergedMining.Block.Basic
import MergedMining.Json.Scalars
import MergedMining.Network.Basic

/-! The JSON forms of blocks and their parts: hashes as they are displayed, scripts as hexadecimal
text, items of witnesses as arrays of bytes, and records with their fields in order. -/
namespace MergedMining

open Json (readRecord)

instance : ToJson Hash256 := ⟨fun h => .string h.display⟩

instance : FromJson Hash256 where
  fromJson j := do
    match Hash256.ofDisplay (← Json.readString j) with
    | .ok hash => .ok hash
    | .error e => .error (.hash e)

instance : ToJson Header where
  toJson h := .object
    [("version", toJson h.version), ("prev_block_hash", toJson h.prevBlockHash),
      ("merkle_root", toJson h.merkleRoot), ("timestamp", toJson h.timestamp),
      ("bits", toJson h.bits), ("nonce", toJson h.nonce)]

instance : FromJson Header where
  fromJson := readRecord "BlockHeader"
    ["version", "prev_block_hash", "merkle_root", "timestamp", "bits", "nonce"]
    fun f => Header.mk <$> f.required "version" <*> f.required "prev_block_hash"
      <*> f.required "merkle_root" <*> f.required "timestamp" <*> f.required "bits"
      <*> f.required "nonce"

instance : ToJson OutPoint where
  toJson o := .object [("txid", toJson o.txid), ("vout", toJson o.vout)]

instance : FromJson OutPoint where
  fromJson := readRecord "OutPoint" ["txid", "vout"]
    fun f => OutPoint.mk <$> f.required "txid" <*> f.required "vout"

/-- An empty witness is left out. -/
instance : ToJson Transaction.Input where
  toJson i := .object <|
    [("previous_output", toJson i.previousOutput), ("script_sig", .ofHex i.scriptSig),
      ("sequence", toJson i.sequence)]
    ++ if i.witness.isEmpty then [] else [("witness", toJson i.witness)]

instance : FromJson Transaction.Input where
  fromJson := readRecord "TxIn" ["previous_output", "script_sig", "sequence", "witness"]
    fun f => Transaction.Input.mk <$> f.required "previous_output"
      <*> f.requiredAs "script_sig" Json.readHex <*> f.required "sequence"
      <*> f.optional "witness" []

instance : ToJson Transaction.Output where
  toJson o := .object [("value", toJson o.value), ("script_pubkey", .ofHex o.scriptPubkey)]

instance : FromJson Transaction.Output where
  fromJson := readRecord "TxOut" ["value", "script_pubkey"]
    fun f => Transaction.Output.mk <$> f.required "value"
      <*> f.requiredAs "script_pubkey" Json.readHex

instance : ToJson Transaction where
  toJson tx := .object
    [("version", toJson tx.version), ("inputs", toJson tx.inputs), ("outputs", toJson tx.outputs),
      ("lock_time", toJson tx.lockTime)]

instance : FromJson Transaction where
  fromJson := readRecord "Transaction" ["version", "inputs", "outputs", "lock_time"]
    fun f => Transaction.mk <$> f.required "version" <*> f.required "inputs"
      <*> f.required "outputs" <*> f.required "lock_time"

instance : ToJson Merkle.Branch where
  toJson m := .object [("hashes", toJson m.hashes), ("side_mask", toJson m.sideMask)]

instance : FromJson Merkle.Branch where
  fromJson := readRecord "MerkleBranch" ["hashes", "side_mask"]
    fun f => Merkle.Branch.mk <$> f.required "hashes" <*> f.required "side_mask"

section Codec

variable {T H : Type}

instance [ToJson T] [ToJson H] : ToJson (AuxProof T H) where
  toJson a := .object
    [("coinbase_tx", toJson a.coinbaseTx), ("block_hash", toJson a.blockHash),
      ("coinbase_branch", toJson a.coinbaseBranch),
      ("blockchain_branch", toJson a.blockchainBranch), ("parent_header", toJson a.parentHeader)]

instance [FromJson T] [FromJson H] : FromJson (AuxProof T H) where
  fromJson := readRecord "AuxHeader"
    ["coinbase_tx", "block_hash", "coinbase_branch", "blockchain_branch", "parent_header"]
    fun f => AuxProof.mk <$> f.required "coinbase_tx" <*> f.required "block_hash"
      <*> f.required "coinbase_branch" <*> f.required "blockchain_branch"
      <*> f.required "parent_header"

instance [ToJson T] [ToJson H] : ToJson (Block T H) where
  toJson b := .object
    [("header", toJson b.header), ("aux_pow", (b.auxPow.map toJson).getD .null),
      ("transactions", toJson b.transactions)]

instance [FromJson T] [FromJson H] : FromJson (Block T H) where
  fromJson := readRecord "AuxBlock" ["header", "aux_pow", "transactions"]
    fun f => Block.mk <$> f.required "header" <*> f.nullable "aux_pow"
      <*> f.required "transactions"

end Codec

instance : ToJson Network := ⟨fun n => .string n.name⟩

namespace Network

/-- Unlike a name, this depends on the case of letters. -/
def ofVariant (s : String) : Except Json.Error Network :=
  match [mainnet, testnet].find? fun n => n.name == s with
  | some n => .ok n
  | none => .error (.unknownVariant s ["mainnet", "testnet"])

instance : FromJson Network where
  fromJson
    | .string s => ofVariant s
    | .object [(key, .null)] => ofVariant key
    | .object [(key, value)] => do
      let _ ← ofVariant key
      .error (.invalidType value "unit")
    | .object _ => .error .notSingleKey
    | j => .error (.invalidType j "string or map")

end Network

end MergedMining
