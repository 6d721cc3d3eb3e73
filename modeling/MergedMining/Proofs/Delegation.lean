import MergedMining.Proofs.Failures
import MergedMining.Proofs.InjectedFormats

/-! Who raises the error that reading a block ends with: a decoder of the block format itself, or one
of the codec. It decides what becomes of the error when the codec is replaced by one that translates the
values of the first and passes its errors on as those of a collaborator. -/
namespace MergedMining

open Decoder

inductive Origin where
  | own | delegated
deriving DecidableEq, Repr

/-- What becomes of an error when the codec passes its own errors on as those of a collaborator. -/
def Origin.passOn : Origin → DecodeError → DecodeError
  | own, e => e
  | delegated, e => .collaborator e

section Stops

variable {T H : Type} {codec : Codec T H} {c c' : Cursor} {e : DecodeError}

/-- Reading a proof from `c` ends at `c'` with `e`: the parts before one are read, and that one
fails. -/
inductive AuxProof.Stops (codec : Codec T H) (c : Cursor) (e : DecodeError) (c' : Cursor) :
    Origin → Prop
  | coinbaseTx (h : codec.decodeTransaction.Fails c e c') : Stops codec c e c' .delegated
  | blockHash {tx m} (htx : codec.decodeTransaction.Returns c tx m)
      (h : (Decoder.hash "auxpow.block_hash").Fails m e c') : Stops codec c e c' .own
  | coinbaseBranch {tx m blockHash m₁} (htx : codec.decodeTransaction.Returns c tx m)
      (hhash : (Decoder.hash "auxpow.block_hash").Returns m blockHash m₁)
      (h : Merkle.Branch.decode.Fails m₁ e c') : Stops codec c e c' .own
  | blockchainBranch {tx m blockHash m₁ cb m₂} (htx : codec.decodeTransaction.Returns c tx m)
      (hhash : (Decoder.hash "auxpow.block_hash").Returns m blockHash m₁)
      (hcb : Merkle.Branch.decode.Returns m₁ cb m₂)
      (h : Merkle.Branch.decode.Fails m₂ e c') : Stops codec c e c' .own
  | parentHeader {tx m blockHash m₁ cb m₂ bb m₃} (htx : codec.decodeTransaction.Returns c tx m)
      (hhash : (Decoder.hash "auxpow.block_hash").Returns m blockHash m₁)
      (hcb : Merkle.Branch.decode.Returns m₁ cb m₂) (hbb : Merkle.Branch.decode.Returns m₂ bb m₃)
      (h : codec.decodeHeader.Fails m₃ e c') : Stops codec c e c' .delegated

theorem AuxProof.fails_decodeWith :
    (decodeWith codec).Fails c e c' ↔ ∃ origin, Stops codec c e c' origin := by
  simp only [decodeWith, decodeCounting, fails_bind, not_fails_report, not_fails_pure, and_false,
    exists_false, or_false]
  constructor
  · intro h
    rcases h with h | ⟨tx, m, htx, h | ⟨blockHash, m₁, hhash, h | ⟨cb, m₂, hcb, h | ⟨bb, m₃, hbb, h⟩⟩⟩⟩
    · exact ⟨_, .coinbaseTx h⟩
    · exact ⟨_, .blockHash htx h⟩
    · exact ⟨_, .coinbaseBranch htx hhash h⟩
    · exact ⟨_, .blockchainBranch htx hhash hcb h⟩
    · exact ⟨_, .parentHeader htx hhash hcb hbb h⟩
  · intro h
    obtain ⟨_, h⟩ := h
    cases h with
    | coinbaseTx h => exact .inl h
    | blockHash htx h => exact .inr ⟨_, _, htx, .inl h⟩
    | coinbaseBranch htx hhash h => exact .inr ⟨_, _, htx, .inr ⟨_, _, hhash, .inl h⟩⟩
    | blockchainBranch htx hhash hcb h =>
      exact .inr ⟨_, _, htx, .inr ⟨_, _, hhash, .inr ⟨_, _, hcb, .inl h⟩⟩⟩
    | parentHeader htx hhash hcb hbb h =>
      exact .inr ⟨_, _, htx, .inr ⟨_, _, hhash, .inr ⟨_, _, hcb, .inr ⟨_, _, hbb, h⟩⟩⟩⟩

theorem AuxProof.returns_decodeWith {a : AuxProof T H} : (decodeWith codec).Returns c a c' ↔
    ∃ m m₁ m₂ m₃, codec.decodeTransaction.Returns c a.coinbaseTx m ∧
      (Decoder.hash "auxpow.block_hash").Returns m a.blockHash m₁ ∧
      Merkle.Branch.decode.Returns m₁ a.coinbaseBranch m₂ ∧
      Merkle.Branch.decode.Returns m₂ a.blockchainBranch m₃ ∧
      codec.decodeHeader.Returns m₃ a.parentHeader c' := by
  simp only [decodeWith, decodeCounting, returns_bind, returns_report, returns_pure]
  constructor
  · intro h
    obtain ⟨_, m, htx, _, m₁, hhash, _, m₂, hcb, _, m₃, hbb, _, m₄, hhd, _, _, rfl, rfl, rfl⟩ := h
    exact ⟨m, m₁, m₂, m₃, htx, hhash, hcb, hbb, hhd⟩
  · intro h
    obtain ⟨m, m₁, m₂, m₃, htx, hhash, hcb, hbb, hhd⟩ := h
    exact ⟨_, m, htx, _, m₁, hhash, _, m₂, hcb, _, m₃, hbb, _, c', hhd, (), c', rfl, rfl, rfl⟩

variable [Versioned H]

/-- Reads a proof if the version of the header announces one. -/
def Block.decodeAux (codec : Codec T H) (header : H) : Decoder (Option (AuxProof T H)) :=
  if hasAuxpowFlag (Versioned.version header) then some <$> AuxProof.decodeWith codec else pure none

/-- Reading a block from `c` ends at `c'` with `e`: the parts before one are read, and that one
fails. -/
inductive Block.Stops (codec : Codec T H) (c : Cursor) (e : DecodeError) (c' : Cursor) :
    Origin → Prop
  | header (h : codec.decodeHeader.Fails c e c') : Stops codec c e c' .delegated
  | auxPow {header m origin} (hh : codec.decodeHeader.Returns c header m)
      (hflag : hasAuxpowFlag (Versioned.version header) = true)
      (h : AuxProof.Stops codec m e c' origin) : Stops codec c e c' origin
  | txCount {header m auxPow m₁} (hh : codec.decodeHeader.Returns c header m)
      (ha : (decodeAux codec header).Returns m auxPow m₁)
      (h : (count "block.tx_count" codec.minTransactionSize).Fails m₁ e c') : Stops codec c e c' .own
  | transaction {header m auxPow m₁ n m₂ i txs m₃} (hh : codec.decodeHeader.Returns c header m)
      (ha : (decodeAux codec header).Returns m auxPow m₁)
      (hn : (count "block.tx_count" codec.minTransactionSize).Returns m₁ n m₂) (hi : i < n)
      (htxs : (times i codec.decodeTransaction).Returns m₂ txs m₃)
      (h : codec.decodeTransaction.Fails m₃ e c') : Stops codec c e c' .delegated

theorem Block.fails_decodeAux {header : H} : (decodeAux codec header).Fails c e c' ↔
    hasAuxpowFlag (Versioned.version header) = true ∧ ∃ origin, AuxProof.Stops codec c e c' origin := by
  unfold decodeAux
  split_ifs with hflag
  · simp [hflag, AuxProof.fails_decodeWith]
  · simp [hflag]

/-- The count of the transactions and the transactions, when header and proof have been read. -/
def Block.decodeTransactions (codec : Codec T H) (header : H) (auxPow : Option (AuxProof T H)) :
    Decoder (Block T H) := do
  let n ← count "block.tx_count" codec.minTransactionSize
  let transactions ← times n codec.decodeTransaction
  .report (.blockDecoded (Versioned.version header) auxPow.isSome n)
  return { header, auxPow, transactions }

theorem Block.decodeWith_eq : decodeWith codec = (do
    let header ← codec.decodeHeader
    let auxPow ← decodeAux codec header
    decodeTransactions codec header auxPow) := by
  unfold decodeWith decodeCounting decodeAux decodeTransactions
  congr 1
  funext header
  by_cases hflag : hasAuxpowFlag (Versioned.version header) = true
  · simp only [hflag, if_true]
    rfl
  · simp only [hflag]
    rfl

theorem Block.fails_decodeWith :
    (decodeWith codec).Fails c e c' ↔ ∃ origin, Stops codec c e c' origin := by
  simp only [decodeWith_eq, decodeTransactions, fails_bind, fails_decodeAux, fails_times,
    not_fails_report, not_fails_pure, and_false, exists_false, or_false]
  constructor
  · intro h
    rcases h with h | ⟨header, m, hh, ⟨hflag, origin, h⟩ | ⟨auxPow, m₁, ha, h | ⟨n, m₂, hn, i, hi, txs, m₃,
      htxs, h⟩⟩⟩
    · exact ⟨_, .header h⟩
    · exact ⟨_, .auxPow hh hflag h⟩
    · exact ⟨_, .txCount hh ha h⟩
    · exact ⟨_, .transaction hh ha hn hi htxs h⟩
  · intro h
    obtain ⟨_, h⟩ := h
    cases h with
    | header h => exact .inl h
    | auxPow hh hflag h => exact .inr ⟨_, _, hh, .inl ⟨hflag, _, h⟩⟩
    | txCount hh ha h => exact .inr ⟨_, _, hh, .inr ⟨_, _, ha, .inl h⟩⟩
    | transaction hh ha hn hi htxs h =>
      exact .inr ⟨_, _, hh, .inr ⟨_, _, ha, .inr ⟨_, _, hn, _, hi, _, _, htxs, h⟩⟩⟩

theorem Block.returns_decodeWith {b : Block T H} : (decodeWith codec).Returns c b c' ↔
    ∃ m m₁ m₂ n, codec.decodeHeader.Returns c b.header m ∧
      (decodeAux codec b.header).Returns m b.auxPow m₁ ∧
      (count "block.tx_count" codec.minTransactionSize).Returns m₁ n m₂ ∧
      (times n codec.decodeTransaction).Returns m₂ b.transactions c' := by
  simp only [decodeWith_eq, decodeTransactions, returns_bind, returns_report, returns_pure]
  constructor
  · intro h
    obtain ⟨_, m, hh, _, m₁, ha, n, m₂, hn, _, m₃, htxs, _, _, rfl, rfl, rfl⟩ := h
    exact ⟨m, m₁, m₂, n, hh, ha, hn, htxs⟩
  · intro h
    obtain ⟨m, m₁, m₂, n, hh, ha, hn, htxs⟩ := h
    exact ⟨_, m, hh, _, m₁, ha, n, m₂, hn, _, c', htxs, (), c', rfl, rfl, rfl⟩

end Stops

section Wraps

variable {α β : Type} {d : Decoder α} {d' : Decoder β} {f : α → β} {c c' : Cursor}

/-- At every cursor `d'` returns the value of `d` under `f` or fails with the error of `d` as that of a
collaborator, and leaves the cursor where `d` does. -/
def Decoder.Wraps (d' : Decoder β) (d : Decoder α) (f : α → β) : Prop := ∀ c,
  (d' c).result = ((d c).result.map f).mapError .collaborator ∧ (d' c).cursor = (d c).cursor

theorem Decoder.Wraps.returns_iff (h : d'.Wraps d f) {b : β} :
    d'.Returns c b c' ↔ ∃ a, d.Returns c a c' ∧ b = f a := by
  obtain ⟨hr, hc⟩ := h c
  cases hd : (d c).result with
  | ok a => simp [Returns, hr, hc, hd, Except.map, Except.mapError, eq_comm, and_comm]
  | error e => simp [Returns, hr, hd, Except.map, Except.mapError]

theorem Decoder.Wraps.returns (h : d'.Wraps d f) {a : α} (ha : d.Returns c a c') :
    d'.Returns c (f a) c' :=
  h.returns_iff.mpr ⟨a, ha, rfl⟩

theorem Decoder.Wraps.fails (h : d'.Wraps d f) {e : DecodeError} (hf : d.Fails c e c') :
    d'.Fails c (.collaborator e) c' := by
  obtain ⟨hr, hc⟩ := h c
  exact ⟨by rw [hr, hf.1]; rfl, hc.trans hf.2⟩

theorem Decoder.Wraps.returns_times (h : d'.Wraps d f) {n : Nat} {bs : List β} :
    (times n d').Returns c bs c' ↔ ∃ as, (times n d).Returns c as c' ∧ bs = as.map f := by
  induction n generalizing c c' bs with
  | zero => simp [times, and_comm]
  | succ n ih =>
    simp only [times, returns_bind, returns_pure, h.returns_iff, ih]
    constructor
    · intro hb
      obtain ⟨_, m, ⟨a, ha, rfl⟩, _, m', ⟨as, has, rfl⟩, rfl, rfl⟩ := hb
      exact ⟨a :: as, ⟨a, m, ha, as, _, has, rfl, rfl⟩, rfl⟩
    · intro ha
      obtain ⟨_, ⟨a, m, ha, as, m', has, rfl, rfl⟩, rfl⟩ := ha
      exact ⟨f a, m, ⟨a, ha, rfl⟩, as.map f, _, ⟨as, has, rfl⟩, rfl, rfl⟩

end Wraps

section Codec

variable {T H T' H' : Type} {C : Codec T H} {D : Codec T' H'} {f : T → T'} {g : H → H'}
  {c c' : Cursor} {e : DecodeError} {origin : Origin}

/-- `D` reads what `C` reads, with transactions under `f` and headers under `g`, and passes the errors
of `C` on as those of a collaborator. -/
structure Codec.Wraps [Versioned H] [Versioned H'] (D : Codec T' H') (C : Codec T H) (f : T → T')
    (g : H → H') : Prop where
  minTransactionSize : D.minTransactionSize = C.minTransactionSize
  version : ∀ header, Versioned.version (g header) = Versioned.version header
  decodeHeader : D.decodeHeader.Wraps C.decodeHeader g
  decodeTransaction : D.decodeTransaction.Wraps C.decodeTransaction f

def AuxProof.map (f : T → T') (g : H → H') (a : AuxProof T H) : AuxProof T' H' where
  coinbaseTx := f a.coinbaseTx
  blockHash := a.blockHash
  coinbaseBranch := a.coinbaseBranch
  blockchainBranch := a.blockchainBranch
  parentHeader := g a.parentHeader

def Block.map (f : T → T') (g : H → H') (b : Block T H) : Block T' H' where
  header := g b.header
  auxPow := b.auxPow.map (AuxProof.map f g)
  transactions := b.transactions.map f

variable [Versioned H] [Versioned H']

theorem AuxProof.returns_of_wraps (h : D.Wraps C f g) {a' : AuxProof T' H'} :
    (decodeWith D).Returns c a' c' ↔ ∃ a, (decodeWith C).Returns c a c' ∧ a' = a.map f g := by
  simp only [returns_decodeWith, h.decodeTransaction.returns_iff, h.decodeHeader.returns_iff]
  constructor
  · intro ha
    obtain ⟨m, m₁, m₂, m₃, ⟨tx, htx, hf⟩, hhash, hcb, hbb, header, hh, hg⟩ := ha
    refine ⟨⟨tx, a'.blockHash, a'.coinbaseBranch, a'.blockchainBranch, header⟩,
      ⟨m, m₁, m₂, m₃, htx, hhash, hcb, hbb, hh⟩, ?_⟩
    rw [map, ← hf, ← hg]
  · intro ha
    obtain ⟨a, ⟨m, m₁, m₂, m₃, htx, hhash, hcb, hbb, hh⟩, rfl⟩ := ha
    exact ⟨m, m₁, m₂, m₃, ⟨_, htx, rfl⟩, hhash, hcb, hbb, _, hh, rfl⟩

theorem AuxProof.Stops.of_wraps (h : D.Wraps C f g) (hs : Stops C c e c' origin) :
    Stops D c (origin.passOn e) c' origin := by
  cases hs with
  | coinbaseTx he => exact .coinbaseTx (h.decodeTransaction.fails he)
  | blockHash htx he => exact .blockHash (h.decodeTransaction.returns htx) he
  | coinbaseBranch htx hhash he =>
    exact .coinbaseBranch (h.decodeTransaction.returns htx) hhash he
  | blockchainBranch htx hhash hcb he =>
    exact .blockchainBranch (h.decodeTransaction.returns htx) hhash hcb he
  | parentHeader htx hhash hcb hbb he =>
    exact .parentHeader (h.decodeTransaction.returns htx) hhash hcb hbb (h.decodeHeader.fails he)

theorem Block.returns_decodeAux_of_wraps (h : D.Wraps C f g) {header : H}
    {o' : Option (AuxProof T' H')} : (decodeAux D (g header)).Returns c o' c' ↔
      ∃ o, (decodeAux C header).Returns c o c' ∧ o' = o.map (AuxProof.map f g) := by
  unfold decodeAux
  rw [h.version]
  split_ifs
  · simp only [returns_map, AuxProof.returns_of_wraps h]
    constructor
    · intro ho
      obtain ⟨_, ⟨a, ha, rfl⟩, rfl⟩ := ho
      exact ⟨some a, ⟨a, ha, rfl⟩, rfl⟩
    · intro ho
      obtain ⟨_, ⟨a, ha, rfl⟩, rfl⟩ := ho
      exact ⟨_, ⟨a, ha, rfl⟩, rfl⟩
  · simp [and_comm]

theorem Block.returns_of_wraps (h : D.Wraps C f g) {b' : Block T' H'} :
    (decodeWith D).Returns c b' c' ↔ ∃ b, (decodeWith C).Returns c b c' ∧ b' = b.map f g := by
  simp only [returns_decodeWith, h.decodeHeader.returns_iff, h.decodeTransaction.returns_times,
    h.minTransactionSize]
  constructor
  · intro hb
    obtain ⟨m, m₁, m₂, n, ⟨header, hh, hg⟩, ha, hn, txs, htxs, hf⟩ := hb
    rw [hg, returns_decodeAux_of_wraps h] at ha
    obtain ⟨auxPow, ha, ho⟩ := ha
    refine ⟨⟨header, auxPow, txs⟩, ⟨m, m₁, m₂, n, hh, ha, hn, htxs⟩, ?_⟩
    rw [map, ← hg, ← ho, ← hf]
  · intro hb
    obtain ⟨b, ⟨m, m₁, m₂, n, hh, ha, hn, htxs⟩, rfl⟩ := hb
    exact ⟨m, m₁, m₂, n, ⟨_, hh, rfl⟩, (returns_decodeAux_of_wraps h).mpr ⟨_, ha, rfl⟩, hn, _, htxs,
      rfl⟩

theorem Block.Stops.of_wraps (h : D.Wraps C f g) (hs : Stops C c e c' origin) :
    Stops D c (origin.passOn e) c' origin := by
  cases hs with
  | header he => exact .header (h.decodeHeader.fails he)
  | auxPow hh hflag he =>
    exact .auxPow (h.decodeHeader.returns hh) (h.version _ ▸ hflag) (he.of_wraps h)
  | txCount hh ha he =>
    rw [← h.minTransactionSize] at he
    exact .txCount (h.decodeHeader.returns hh) ((returns_decodeAux_of_wraps h).mpr ⟨_, ha, rfl⟩) he
  | transaction hh ha hn hi htxs he =>
    rw [← h.minTransactionSize] at hn
    exact .transaction (h.decodeHeader.returns hh)
      ((returns_decodeAux_of_wraps h).mpr ⟨_, ha, rfl⟩) hn hi
      (h.decodeTransaction.returns_times.mpr ⟨_, htxs, rfl⟩) (h.decodeTransaction.fails he)

end Codec

section Lockstep

variable {α β : Type}

/-- `d'` leaves the cursor where `d` does and succeeds with it, on the value of `d` under `f`. Every
error of `d` has an origin, and `d'` fails with what becomes of the error from there. -/
structure Decoder.Lockstep (d' : Decoder β) (d : Decoder α) (f : α → β)
    (stops : Cursor → DecodeError → Cursor → Origin → Prop) : Prop where
  cursor : ∀ c, (d' c).cursor = (d c).cursor
  ok_iff : ∀ c b, (d' c).result = .ok b ↔ ∃ a, (d c).result = .ok a ∧ b = f a
  stops_iff : ∀ c e, (d c).result = .error e ↔ ∃ origin, stops c e (d c).cursor origin
  error : ∀ c e c' origin, stops c e c' origin →
    c' = (d c).cursor ∧ (d' c).result = .error (origin.passOn e)

theorem Decoder.lockstep_of_returns {d : Decoder α} {d' : Decoder β} {f : α → β}
    {stops : Cursor → DecodeError → Cursor → Origin → Prop}
    (hr : ∀ {c b c'}, d'.Returns c b c' ↔ ∃ a, d.Returns c a c' ∧ b = f a)
    (hf : ∀ {c e c'}, d.Fails c e c' ↔ ∃ origin, stops c e c' origin)
    (hs : ∀ {c e c' origin}, stops c e c' origin → d'.Fails c (origin.passOn e) c') :
    d'.Lockstep d f stops where
  cursor c := by
    rcases returns_or_fails d c with ⟨a, ha⟩ | ⟨e, he⟩
    · exact (hr.mpr ⟨a, ha, rfl⟩).2
    · obtain ⟨origin, h⟩ := hf.mp he
      exact (hs h).2
  ok_iff c b := by
    constructor
    · intro hb
      obtain ⟨a, ha, hab⟩ := hr.mp ⟨hb, rfl⟩
      exact ⟨a, ha.1, hab⟩
    · intro hb
      obtain ⟨a, ha, hab⟩ := hb
      exact (hr.mpr ⟨a, ⟨ha, rfl⟩, hab⟩).1
  stops_iff c e := by
    rw [← hf]
    exact ⟨fun h => ⟨h, rfl⟩, fun h => h.1⟩
  error c e c' origin h := by
    have he := hf.mpr ⟨origin, h⟩
    exact ⟨he.2.symm, (hs h).1⟩

end Lockstep

section Codec

variable {T H T' H' : Type}

/-- A codec and one that wraps it read proofs and blocks in lockstep. An error of the block hash, a branch
or the count of the transactions is the same with both, and an error of the codec arrives as the cause
of a collaborator's. -/
theorem decodeWith_lockstep [Versioned H] [Versioned H'] {C : Codec T H} {D : Codec T' H'} {f : T → T'}
    {g : H → H'} (h : D.Wraps C f g) :
    (AuxProof.decodeWith D).Lockstep (AuxProof.decodeWith C) (AuxProof.map f g) (AuxProof.Stops C) ∧
      (Block.decodeWith D).Lockstep (Block.decodeWith C) (Block.map f g) (Block.Stops C) := by
  constructor
  · apply lockstep_of_returns (AuxProof.returns_of_wraps h) AuxProof.fails_decodeWith
    intro c e c' origin hs
    exact AuxProof.fails_decodeWith.mpr ⟨origin, hs.of_wraps h⟩
  · apply lockstep_of_returns (Block.returns_of_wraps h) Block.fails_decodeWith
    intro c e c' origin hs
    exact Block.fails_decodeWith.mpr ⟨origin, hs.of_wraps h⟩

/-- The codec that wraps another one. -/
def Codec.wrapped (codec : Codec T H) (f : T → T') (g : H → H') : Codec T' H' where
  minTransactionSize := codec.minTransactionSize
  decodeHeader := g <$> codec.decodeHeader.mapError .collaborator
  decodeTransaction := f <$> codec.decodeTransaction.mapError .collaborator

theorem Decoder.wraps_map_mapError {α β : Type} (d : Decoder α) (f : α → β) :
    Wraps (f <$> d.mapError .collaborator) d f := by
  intro c
  cases hd : (d c).result with
  | ok a =>
    have h : (d.mapError .collaborator c).result = .ok a := by simp [mapError, hd, Except.mapError]
    exact ⟨congrArg Run.result (bind_of_ok h), congrArg Run.cursor (bind_of_ok h)⟩
  | error e =>
    have h : (d.mapError .collaborator c).result = .error (.collaborator e) := by
      simp [mapError, hd, Except.mapError]
    exact ⟨congrArg Run.result (bind_of_error h), congrArg Run.cursor (bind_of_error h)⟩

theorem Codec.wraps_wrapped [Versioned H] [Versioned H'] {codec : Codec T H} {f : T → T'} {g : H → H'}
    (hg : ∀ header, Versioned.version (g header) = Versioned.version header) :
    (codec.wrapped f g).Wraps codec f g where
  minTransactionSize := rfl
  version := hg
  decodeHeader := wraps_map_mapError _ g
  decodeTransaction := wraps_map_mapError _ f

end Codec

/-- A refused transaction, a missing count and a whole block, with headers and transactions of other
types than those of the wrapped codec. -/
theorem Block.lockstep_bytewise :
    let D := Codec.bytewise.wrapped UInt8.toNat bareHeader
    D.Wraps Codec.bytewise UInt8.toNat bareHeader ∧
    (decodeWith D (.ofBytes [1, 0, 0, 0, 2, 1, 0xee])).result =
      .error (.collaborator (.refused "poisoned transaction")) ∧
    (decodeWith D (.ofBytes [1, 0, 0, 0])).result =
      .error (.truncatedInput "block.tx_count" 1 0) ∧
    (decodeWith D (.ofBytes [1, 0, 0, 0, 2, 1, 7])).result =
      .ok { header := bareHeader 1, auxPow := none, transactions := [1, 7] } := by
  intro D
  have hD : D.Wraps Codec.bytewise UInt8.toNat bareHeader := Codec.wraps_wrapped fun _ => rfl
  obtain ⟨-, hblock⟩ := decodeWith_lockstep hD
  refine ⟨hD, ?_, ?_, ?_⟩
  · have hheader : Codec.bytewise.decodeHeader.Returns (.ofBytes [1, 0, 0, 0, 2, 1, 0xee]) 1
        ⟨4, [2, 1, 0xee]⟩ := ⟨rfl, rfl⟩
    have haux : (decodeAux Codec.bytewise (1 : Int32)).Returns ⟨4, [2, 1, 0xee]⟩ none
        ⟨4, [2, 1, 0xee]⟩ := ⟨rfl, rfl⟩
    have hcount : (count "block.tx_count" Codec.bytewise.minTransactionSize).Returns
        ⟨4, [2, 1, 0xee]⟩ 2 ⟨5, [1, 0xee]⟩ := ⟨rfl, rfl⟩
    have hfirst : (times 1 Codec.bytewise.decodeTransaction).Returns ⟨5, [1, 0xee]⟩ [1]
        ⟨6, [0xee]⟩ := ⟨rfl, rfl⟩
    have hsecond : Codec.bytewise.decodeTransaction.Fails ⟨6, [0xee]⟩
        (.refused "poisoned transaction") ⟨7, []⟩ := ⟨rfl, rfl⟩
    have hs := Stops.transaction hheader haux hcount (by decide : 1 < 2) hfirst hsecond
    exact (hblock.error _ _ _ _ hs).2
  · have hheader : Codec.bytewise.decodeHeader.Returns (.ofBytes [1, 0, 0, 0]) 1 ⟨4, []⟩ :=
      ⟨rfl, rfl⟩
    have haux : (decodeAux Codec.bytewise (1 : Int32)).Returns ⟨4, []⟩ none ⟨4, []⟩ := ⟨rfl, rfl⟩
    have hcount : (count "block.tx_count" Codec.bytewise.minTransactionSize).Fails ⟨4, []⟩
        (.truncatedInput "block.tx_count" 1 0) ⟨4, []⟩ := ⟨rfl, rfl⟩
    exact (hblock.error _ _ _ _ (.txCount hheader haux hcount)).2
  · exact (hblock.ok_iff _ _).mpr ⟨{ header := 1, auxPow := none, transactions := [1, 7] }, rfl, rfl⟩

end MergedMining
