import MergedMining.Block.Header
import MergedMining.Network.Checkpoints
import MergedMining.Text.Conversion

/-! The parameters of the two networks. -/
namespace MergedMining

inductive Network where
  | mainnet | testnet
deriving DecidableEq, Repr

namespace Network

instance : Inhabited Network := ⟨mainnet⟩

/-- Stands in the upper half of the version of a merge-mined block. -/
def chainId : UInt16 := 0x0062

/-- Decimal places of one coin. -/
def decimals : UInt32 := 8

def unitsPerCoin : UInt64 := 100000000

/-- The bytes before every message between peers. -/
def magic : Network → List UInt8
  | mainnet => [0xc0, 0xc0, 0xc0, 0xc0]
  | testnet => [0xfc, 0xc1, 0xb7, 0xdc]

def peerPort : Network → UInt16
  | mainnet => 22556
  | testnet => 44556

def rpcPort : Network → UInt16
  | mainnet => 22555
  | testnet => 44555

def symbol : Network → String
  | mainnet => "DOGE"
  | testnet => "tDOGE"

/-- The first height at which merge-mined blocks are accepted. -/
def auxpowStart : Network → UInt32
  | mainnet => 371337
  | testnet => 158100

def auxpowChainId (_ : Network) : UInt16 := chainId

/-- Of the only transaction in either first block. -/
def genesisMerkleRoot : Hash256 :=
  .ofNat 0x5b2a3f53f605d62c53e62932dac6925e3d74afa5a4b459745c36d42d0ed26a69

def genesisHeader (n : Network) : Header where
  version := 1
  prevBlockHash := .zero
  merkleRoot := genesisMerkleRoot
  timestamp := match n with
    | mainnet => 1386325540
    | testnet => 1391503289
  bits := 0x1e0ffff0
  nonce := match n with
    | mainnet => 99943
    | testnet => 997879

def genesisHash : Network → Hash256
  | mainnet => .ofNat 0x1a91e3dace36e2be3bf030a65679fe821aa1d6ef92e7c9902eb318182c355691
  | testnet => .ofNat 0xbb0a78264637406b6360aad926284d544d7049f45189db5664f3c4d07350559e

def checkpoints : Network → Checkpoints
  | mainnet => .mainnet
  | testnet => .testnet

def checkpoint (n : Network) (height : UInt32) : Option Hash256 := n.checkpoints.find? height

/-- A name is understood in any case of its letters. -/
def ofName? (s : String) : Option Network :=
  let name := Text.lowercase s
  if ["mainnet", "main", "dogecoin"].contains name then some mainnet
  else if ["testnet", "testnet3", "test"].contains name then some testnet
  else none

def name : Network → String
  | mainnet => "mainnet"
  | testnet => "testnet"

instance : ToString Network := ⟨name⟩

def displayName : Network → String
  | mainnet => "Dogecoin Mainnet"
  | testnet => "Dogecoin Testnet"

end Network

end MergedMining
