import MergedMining.Hash.Hash256

/-! Blocks of known hash, and their lookup by height. -/
namespace MergedMining

/-- Heights with the hash of the block there, in ascending order of height. -/
abbrev Checkpoints := Array (UInt32 × Hash256)

namespace Checkpoints

/-- Binary search between the indices `low` and `high`, the latter excluded. -/
def search (table : Checkpoints) (height : UInt32) (low high : Nat) : Option Hash256 :=
  if low < high then
    let middle := low + (high - low) / 2
    match table[middle]? with
    | none => none
    | some (here, hash) =>
      if here = height then some hash
      else if here < height then search table height (middle + 1) high
      else search table height low middle
  else none
termination_by high - low

def find? (table : Checkpoints) (height : UInt32) : Option Hash256 :=
  table.search height 0 table.size

def mainnet : Checkpoints :=
  #[(0, .ofNat 0x1a91e3dace36e2be3bf030a65679fe821aa1d6ef92e7c9902eb318182c355691),
    (104679, .ofNat 0x35eb87ae90d44b98898fec8c39577b76cb1eb08e1261cfc10706c8ce9a1d01cf),
    (145000, .ofNat 0xcc47cae70d7c5c92828d3214a266331dde59087d4a39071fa76ddfff9b7bde72),
    (371337, .ofNat 0x60323982f9c5ff1b5a954eac9dc1269352835f47c2c5222691d80f0d50dcf053),
    (450000, .ofNat 0xd279277f8f846a224d776450aa04da3cf978991a182c6f3075db4c48b173bbd7),
    (771275, .ofNat 0x1b7d789ed82cbdc640952e7e7a54966c6488a32eaad54fc39dff83f310dbaaed),
    (1000000, .ofNat 0x6aae55bea74235f0c80bd066349d4440c31f2d0f27d54265ecd484d8c1d11b47),
    (1250000, .ofNat 0x00c7a442055c1a990e11eea5371ca5c1c02a0677b33cc88ec728c45edc4ec060),
    (1500000, .ofNat 0xf1d32d6920de7b617d51e74bdf4e58adccaa582ffdc8657464454f16a952fca6),
    (1750000, .ofNat 0x5c8e7327984f0d6f59447d89d143e5f6eafc524c82ad95d176c5cec082ae2001),
    (2000000, .ofNat 0x9914f0e82e39bbf21950792e8816620d71b9965bdbbc14e72a95e3ab9618fea8),
    (2031142, .ofNat 0x893297d89afb7599a3c571ca31a3b80e8353f4cf39872400ad0f57d26c4c5d42),
    (2510150, .ofNat 0x77e3f4a4bcb4a2c15e8015525e3d15b466f6c022f6ca82698f329edef7d9777e)]

def testnet : Checkpoints :=
  #[(0, .ofNat 0xbb0a78264637406b6360aad926284d544d7049f45189db5664f3c4d07350559e),
    (483173, .ofNat 0xa804201ca0aceb7e937ef7a3c613a9b7589245b10cc095148c4ce4965b0b73b5),
    (591117, .ofNat 0x5f6b93b2c28cedf32467d900369b8be6700f0649388a7dbfd3ebd4a01b1ffad8),
    (658924, .ofNat 0xed6c8324d9a77195ee080f225a0fca6346495e08ded99bcda47a8eea5a8a620b),
    (703635, .ofNat 0x839fa54617adcd582d53030a37455c14a87a806f6615aa8213f13e196230ff7d),
    (1000000, .ofNat 0x1fe4d44ea4d1edb031f52f0d7c635db8190dc871a190654c41d2450086b8ef0e),
    (1202214, .ofNat 0xa2179767a87ee4e95944703976fee63578ec04fa3ac2fc1c9c2c83587d096977),
    (1250000, .ofNat 0xb46affb421872ca8efa30366b09694e2f9bf077f7258213be14adb05a9f41883),
    (1500000, .ofNat 0x0caa041b47b4d18a4f44bdc05cef1a96d5196ce7b2e32ad3e4eb9ba505144917),
    (1750000, .ofNat 0x8042462366d854ad39b8b95ed2ca12e89a526ceee5a90042d55ebb24d5aab7e9),
    (2000000, .ofNat 0xd6acde73e1b42fc17f29dcc76f63946d378ae1bd4eafab44d801a25be784103c),
    (2250000, .ofNat 0xc4342ae6d9a522a02e5607411df1b00e9329563ef844a758d762d601d42c86dc),
    (2500000, .ofNat 0x3a66ec4933fbb348c9b1889aaf2f732fe429fd9a8f74fee6895eae061ac897e2),
    (2750000, .ofNat 0x473ea9f625d59f534ffcc9738ffc58f7b7b1e0e993078614f5484a9505885563),
    (3062910, .ofNat 0x113c41c00934f940a41f99d18b2ad9aefd183a4b7fe80527e1e6c12779bd0246)]

end Checkpoints

end MergedMining
