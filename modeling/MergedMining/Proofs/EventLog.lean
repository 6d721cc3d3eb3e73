import MergedMining.Proofs.WireErrors
import MergedMining.Proofs.Delegation

/-! What is logged while a block is read. Branches and proofs are logged as they are completed, the block
when all of it is read, and a failure last, so that the log tells how far the read came and how it
ended. -/
namespace MergedMining

open Decoder

/-- An event as it is written. -/
structure LogEntry where
  level : Level
  message : String
  fields : List (String × String)
deriving DecidableEq

def Event.entry (event : Event) : LogEntry := ⟨event.level, event.message, event.fields⟩

namespace LogEntry

variable {T H : Type}

def branch (m : Merkle.Branch) : LogEntry where
  level := .trace
  message := "decoded merkle branch"
  fields := [("count", toString m.hashes.length), ("side_mask", toString m.sideMask)]

def proof (a : AuxProof T H) : LogEntry where
  level := .trace
  message := "decoded auxpow header"
  fields := [("coinbase_branch", toString a.coinbaseBranch.hashes.length),
    ("blockchain_branch", toString a.blockchainBranch.hashes.length)]

def block (b : Block Transaction Header) : LogEntry where
  level := .debug
  message := "decoded block"
  fields := [("version", toString b.header.version),
    ("auxpow", toString (hasAuxpowFlag b.header.version)),
    ("tx_count", toString b.transactions.length)]

def failure (c : Cursor) (e : DecodeError) : LogEntry where
  level := .debug
  message := "block decode failed"
  fields := [("position", toString c.position), ("error", e.message)]

def trailing (count : Nat) : LogEntry where
  level := .debug
  message := "block followed by trailing bytes"
  fields := [("trailing", toString count)]

end LogEntry

namespace Decoder

variable {α β : Type} {d : Decoder α} {f : α → Decoder β} {c c' : Cursor} {a : α} {e : DecodeError}

theorem events_bind_of_returns (h : d.Returns c a c') :
    ((d >>= f) c).events = (d c).events ++ (f a c').events := by
  obtain ⟨hr, rfl⟩ := h
  rw [bind_of_ok hr]

theorem events_bind_of_fails (h : d.Fails c e c') : ((d >>= f) c).events = (d c).events := by
  rw [bind_of_error h.1]

@[simp] theorem events_map (g : α → β) : ((g <$> d) c).events = (d c).events := by
  rcases returns_or_fails d c with ⟨a, h⟩ | ⟨e, h⟩
  · exact (events_bind_of_returns h).trans (List.append_nil _)
  · exact events_bind_of_fails h

theorem length_of_times {n : Nat} {as : List α} (h : (times n d).Returns c as c') :
    as.length = n := by
  induction n generalizing c c' as with
  | zero =>
    obtain ⟨rfl, -⟩ := returns_pure.mp h
    rfl
  | succ n ih =>
    obtain ⟨a, m, -, h⟩ := returns_bind.mp h
    obtain ⟨as, m', has, h⟩ := returns_bind.mp h
    obtain ⟨rfl, -⟩ := returns_pure.mp h
    rw [List.length_cons, ih has]

/-- Nothing is reported, and no error is raised that is not one of the wire format. -/
abbrev Silent (d : Decoder α) : Prop := d.Confined fun _ => False

/-- A silent part does not show in the log, however far the rest comes. -/
theorem events_bind_of_silent (hd : d.Silent) (h : d.Returns c a c') :
    ((d >>= f) c).events = (f a c').events := by
  rw [events_bind_of_returns h, hd.silent c, List.nil_append]

/-- A value that is read is logged by `log`, and a read that fails logs nothing. -/
structure Logs (d : Decoder α) (log : α → List Event) : Prop where
  returns {c c' : Cursor} {a : α} (h : d.Returns c a c') : (d c).events = log a
  fails {c c' : Cursor} {e : DecodeError} (h : d.Fails c e c') : (d c).events = []

namespace Logs

variable {log : β → List Event}

theorem report_bind {event : Event} {b : β} (h : log b = [event]) :
    (report event >>= fun _ => pure b).Logs log where
  returns hb := by
    obtain ⟨_, _, hreport, hb⟩ := returns_bind.mp hb
    obtain ⟨rfl, -⟩ := returns_pure.mp hb
    rw [events_bind_of_returns hreport, h]
    rfl
  fails hf := by
    rcases fails_bind.mp hf with hf | ⟨_, _, -, hf⟩
    · exact absurd hf not_fails_report
    · exact absurd hf not_fails_pure

theorem bind (hd : d.Silent) (hf : ∀ {c a c'}, d.Returns c a c' → (f a).Logs log) :
    (d >>= f).Logs log where
  returns h := by
    obtain ⟨a, m, ha, hb⟩ := returns_bind.mp h
    rw [events_bind_of_silent hd ha]
    exact (hf ha).returns hb
  fails h := by
    rcases fails_bind.mp h with h | ⟨a, m, ha, h⟩
    · rw [events_bind_of_fails h, hd.silent]
    · rw [events_bind_of_silent hd ha]
      exact (hf ha).fails h

end Logs

end Decoder

namespace Merkle.Branch

def event (m : Merkle.Branch) : Event := .branchDecoded m.hashes.length m.sideMask

/-- A branch is logged when all of it is read. -/
theorem logs_decode : decode.Logs fun m => [m.event] := by
  unfold decode decodeCounting
  refine .bind (.count _ _) fun {_ n _} _ => ?_
  refine .bind (Confined.inherited.times (Confined.inherited.hash _) n) fun hhashes => ?_
  refine .bind (Confined.inherited.int32 _) fun _ => .report_bind ?_
  rw [event, length_of_times hhashes]

end Merkle.Branch

namespace AuxProof

def event (a : AuxProof Transaction Header) : Event :=
  .auxProofDecoded a.coinbaseBranch.hashes.length a.blockchainBranch.hashes.length

/-- How far a proof is read that begins at `c`: the branches that are read in full, and the proof if
all of it is. -/
inductive Progress (c : Cursor) :
    List Merkle.Branch → Option (AuxProof Transaction Header) → Prop
  | coinbaseTx {e c'} (h : Transaction.decode.Fails c e c') : Progress c [] none
  | blockHash {tx m e c'} (htx : Transaction.decode.Returns c tx m)
      (h : (Decoder.hash "auxpow.block_hash").Fails m e c') : Progress c [] none
  | coinbaseBranch {tx m blockHash m₁ e c'} (htx : Transaction.decode.Returns c tx m)
      (hhash : (Decoder.hash "auxpow.block_hash").Returns m blockHash m₁)
      (h : Merkle.Branch.decode.Fails m₁ e c') : Progress c [] none
  | blockchainBranch {tx m blockHash m₁ cb m₂ e c'} (htx : Transaction.decode.Returns c tx m)
      (hhash : (Decoder.hash "auxpow.block_hash").Returns m blockHash m₁)
      (hcb : Merkle.Branch.decode.Returns m₁ cb m₂) (h : Merkle.Branch.decode.Fails m₂ e c') :
      Progress c [cb] none
  | parentHeader {tx m blockHash m₁ cb m₂ bb m₃ e c'} (htx : Transaction.decode.Returns c tx m)
      (hhash : (Decoder.hash "auxpow.block_hash").Returns m blockHash m₁)
      (hcb : Merkle.Branch.decode.Returns m₁ cb m₂) (hbb : Merkle.Branch.decode.Returns m₂ bb m₃)
      (h : Header.decode.Fails m₃ e c') : Progress c [cb, bb] none
  | whole {a c'} (h : decode.Returns c a c') :
      Progress c [a.coinbaseBranch, a.blockchainBranch] (some a)

variable {c c' : Cursor} {branches : List Merkle.Branch}
  {proof : Option (AuxProof Transaction Header)}

theorem exists_progress (c : Cursor) : ∃ branches proof, Progress c branches proof := by
  rcases returns_or_fails decode c with ⟨a, h⟩ | ⟨e, h⟩
  · exact ⟨_, _, .whole h⟩
  · obtain ⟨_, h⟩ := fails_decodeWith.mp h
    cases h with
    | coinbaseTx h => exact ⟨_, _, .coinbaseTx h⟩
    | blockHash htx h => exact ⟨_, _, .blockHash htx h⟩
    | coinbaseBranch htx hhash h => exact ⟨_, _, .coinbaseBranch htx hhash h⟩
    | blockchainBranch htx hhash hcb h => exact ⟨_, _, .blockchainBranch htx hhash hcb h⟩
    | parentHeader htx hhash hcb hbb h => exact ⟨_, _, .parentHeader htx hhash hcb hbb h⟩

/-- What follows the hash of the parent block. -/
def decodeBranches (coinbaseTx : Transaction) (blockHash : Hash256) :
    Decoder (AuxProof Transaction Header) := do
  let coinbaseBranch ← Merkle.Branch.decode
  let blockchainBranch ← Merkle.Branch.decode
  let parentHeader ← Header.decode
  let a : AuxProof Transaction Header :=
    { coinbaseTx, blockHash, coinbaseBranch, blockchainBranch, parentHeader }
  .report a.event
  return a

theorem decode_eq : decode = (do
    let coinbaseTx ← Transaction.decode
    let blockHash ← Decoder.hash "auxpow.block_hash"
    decodeBranches coinbaseTx blockHash) := rfl

theorem silent_blockHash : (Decoder.hash "auxpow.block_hash").Silent := Confined.inherited.hash _

theorem events_decode_of_front {tx : Transaction} {blockHash : Hash256} {m m₁ : Cursor}
    (htx : Transaction.decode.Returns c tx m)
    (hhash : (Decoder.hash "auxpow.block_hash").Returns m blockHash m₁) :
    (decode c).events = (decodeBranches tx blockHash m₁).events := by
  rw [decode_eq, events_bind_of_silent .transaction htx, events_bind_of_silent silent_blockHash hhash]

/-- A failure hides none of the branches that were read before it. -/
theorem Progress.events_eq (h : Progress c branches proof) :
    (decode c).events = branches.map Merkle.Branch.event ++ proof.toList.map event := by
  cases h with
  | coinbaseTx h =>
    rw [decode_eq, events_bind_of_fails h, Confined.transaction.silent]
    rfl
  | blockHash htx h =>
    rw [decode_eq, events_bind_of_silent .transaction htx, events_bind_of_fails h,
      silent_blockHash.silent]
    rfl
  | coinbaseBranch htx hhash h =>
    rw [events_decode_of_front htx hhash, decodeBranches, events_bind_of_fails h,
      Merkle.Branch.logs_decode.fails h]
    rfl
  | blockchainBranch htx hhash hcb h =>
    rw [events_decode_of_front htx hhash, decodeBranches, events_bind_of_returns hcb,
      Merkle.Branch.logs_decode.returns hcb, events_bind_of_fails h,
      Merkle.Branch.logs_decode.fails h]
    rfl
  | parentHeader htx hhash hcb hbb h =>
    rw [events_decode_of_front htx hhash, decodeBranches, events_bind_of_returns hcb,
      Merkle.Branch.logs_decode.returns hcb, events_bind_of_returns hbb,
      Merkle.Branch.logs_decode.returns hbb, events_bind_of_fails h, Confined.header.silent]
    rfl
  | whole h =>
    obtain ⟨m, m₁, m₂, m₃, htx, hhash, hcb, hbb, hhd⟩ := returns_decodeWith.mp h
    have hhd' : Header.decode.Returns _ _ _ := hhd
    rw [events_decode_of_front htx hhash, decodeBranches, events_bind_of_returns hcb,
      Merkle.Branch.logs_decode.returns hcb, events_bind_of_returns hbb,
      Merkle.Branch.logs_decode.returns hbb, events_bind_of_silent .header hhd']
    rfl

theorem Progress.fails (h : Progress c branches none) : ∃ e c', decode.Fails c e c' := by
  cases h with
  | coinbaseTx h => exact ⟨_, _, fails_decodeWith.mpr ⟨_, .coinbaseTx h⟩⟩
  | blockHash htx h => exact ⟨_, _, fails_decodeWith.mpr ⟨_, .blockHash htx h⟩⟩
  | coinbaseBranch htx hhash h => exact ⟨_, _, fails_decodeWith.mpr ⟨_, .coinbaseBranch htx hhash h⟩⟩
  | blockchainBranch htx hhash hcb h =>
    exact ⟨_, _, fails_decodeWith.mpr ⟨_, .blockchainBranch htx hhash hcb h⟩⟩
  | parentHeader htx hhash hcb hbb h =>
    exact ⟨_, _, fails_decodeWith.mpr ⟨_, .parentHeader htx hhash hcb hbb h⟩⟩

theorem Progress.eq_of_returns (h : Progress c branches proof) {a : AuxProof Transaction Header}
    (ha : decode.Returns c a c') : proof = some a := by
  cases proof with
  | none =>
    obtain ⟨_, _, hfails⟩ := h.fails
    exact absurd hfails ha.not_fails
  | some a' =>
    cases h with
    | whole ha' => rw [(ha.unique ha').1]

theorem Progress.length_le (h : Progress c branches proof) : branches.length ≤ 2 := by
  cases h <;> simp

end AuxProof

namespace Block

def event (b : Block Transaction Header) : Event :=
  .blockDecoded b.header.version (hasAuxpowFlag b.header.version) b.transactions.length

/-- How far the proof of a block is read that begins at `c`. Nothing of it is read where the header
fails, or announces none. -/
inductive Progress (c : Cursor) : List Merkle.Branch → Option (AuxProof Transaction Header) → Prop
  | header {e c'} (h : Header.decode.Fails c e c') : Progress c [] none
  | unannounced {header m} (hh : Header.decode.Returns c header m)
      (hflag : hasAuxpowFlag header.version = false) : Progress c [] none
  | announced {header m branches proof} (hh : Header.decode.Returns c header m)
      (hflag : hasAuxpowFlag header.version = true) (h : AuxProof.Progress m branches proof) :
      Progress c branches proof

/-- How the log of a read of `data` ends whose result is given: with the block that was read and the
number of bytes behind it, or with the failure and the place where the read stopped. -/
inductive Closing (data : List UInt8) (proof : Option (AuxProof Transaction Header)) :
    Except DecodeError (Block Transaction Header) → List LogEntry → Prop
  | accepted {b c} (hb : decode.Returns (.ofBytes data) b c) (hproof : b.auxPow = proof)
      (hrest : c.rest = []) : Closing data proof (.ok b) [.block b]
  | trailing {b c} (hb : decode.Returns (.ofBytes data) b c) (hproof : b.auxPow = proof)
      (hrest : c.rest ≠ []) : Closing data proof (.error (.format (.trailingBytes c.rest.length)))
        [.block b, .trailing c.rest.length]
  | failed {e c} (he : decode.Fails (.ofBytes data) e c) (hwire : e.IsWire) :
      Closing data proof (.error e) [.failure c e]

variable {c c' : Cursor} {branches : List Merkle.Branch} {e : DecodeError}
  {b : Block Transaction Header} {proof : Option (AuxProof Transaction Header)}

theorem exists_progress (c : Cursor) : ∃ branches proof, Progress c branches proof := by
  rcases returns_or_fails Header.decode c with ⟨header, hh⟩ | ⟨e, h⟩
  · cases hflag : hasAuxpowFlag header.version with
    | false => exact ⟨_, _, .unannounced hh hflag⟩
    | true =>
      obtain ⟨_, _, h⟩ := AuxProof.exists_progress (Header.decode c).cursor
      exact ⟨_, _, .announced hh hflag h⟩
  · exact ⟨_, _, .header h⟩

/-- The part of the log that is written before the count of the transactions. -/
theorem Progress.events_decodeAux (h : Progress c branches proof) {header : Header} {m : Cursor}
    (hh : Header.decode.Returns c header m) : (decodeAux .wire header m).events =
      branches.map Merkle.Branch.event ++ proof.toList.map AuxProof.event := by
  cases h with
  | header h => exact absurd h hh.not_fails
  | unannounced hh' hflag =>
    obtain ⟨rfl, rfl⟩ := hh.unique hh'
    have haux : decodeAux .wire header = pure none := if_neg (Bool.eq_false_iff.mp hflag)
    rw [haux]
    rfl
  | announced hh' hflag h =>
    obtain ⟨rfl, rfl⟩ := hh.unique hh'
    have haux : decodeAux .wire header = some <$> AuxProof.decode := if_pos hflag
    rw [haux, events_map, h.events_eq]

/-- The proof that is logged is the one that the block gets. -/
theorem Progress.eq_of_returns (h : Progress c branches proof) {header : Header} {m m₁ : Cursor}
    {auxPow : Option (AuxProof Transaction Header)} (hh : Header.decode.Returns c header m)
    (ha : (decodeAux .wire header).Returns m auxPow m₁) : auxPow = proof := by
  cases h with
  | header h => exact absurd h hh.not_fails
  | unannounced hh' hflag =>
    obtain ⟨rfl, rfl⟩ := hh.unique hh'
    have haux : decodeAux .wire header = pure none := if_neg (Bool.eq_false_iff.mp hflag)
    rw [haux] at ha
    exact (returns_pure.mp ha).1
  | announced hh' hflag h =>
    obtain ⟨rfl, rfl⟩ := hh.unique hh'
    have haux : decodeAux .wire header = some <$> AuxProof.decode := if_pos hflag
    rw [haux] at ha
    obtain ⟨a, ha', rfl⟩ := returns_map.mp ha
    exact (h.eq_of_returns ha').symm

theorem Progress.length_le (h : Progress c branches proof) : branches.length ≤ 2 := by
  cases h with
  | header | unannounced => exact Nat.zero_le 2
  | announced _ _ h => exact h.length_le

theorem isSome_of_decodeAux {header : Header} {auxPow : Option (AuxProof Transaction Header)}
    (ha : (decodeAux .wire header).Returns c auxPow c') :
    auxPow.isSome = hasAuxpowFlag header.version := by
  unfold decodeAux at ha
  split_ifs at ha with hflag
  · obtain ⟨a, -, rfl⟩ := returns_map.mp ha
    exact hflag.symm
  · obtain ⟨rfl, -⟩ := returns_pure.mp ha
    exact (Bool.eq_false_iff.mpr hflag).symm

theorem logs_decodeTransactions (header : Header) (auxPow : Option (AuxProof Transaction Header))
    (haux : auxPow.isSome = hasAuxpowFlag header.version) :
    (decodeTransactions .wire header auxPow).Logs fun b => [b.event] := by
  unfold decodeTransactions
  refine .bind (.count _ _) fun {_ n _} _ => ?_
  refine .bind (Confined.inherited.times .transaction n) fun htxs => .report_bind ?_
  rw [event, length_of_times htxs, haux]
  rfl

theorem decode_eq : decode = (do
    let header ← Header.decode
    let auxPow ← decodeAux .wire header
    decodeTransactions .wire header auxPow) := decodeWith_eq

theorem Progress.events_of_returns (h : Progress c branches proof) (hb : decode.Returns c b c') :
    b.auxPow = proof ∧ (decode c).events =
      branches.map Merkle.Branch.event ++ proof.toList.map AuxProof.event ++ [b.event] := by
  rw [decode_eq] at hb ⊢
  obtain ⟨header, m, hh, hb⟩ := returns_bind.mp hb
  obtain ⟨auxPow, m₁, ha, hb⟩ := returns_bind.mp hb
  have hlogs := (logs_decodeTransactions header auxPow (isSome_of_decodeAux ha)).returns hb
  have hproof : b.auxPow = auxPow := by
    obtain ⟨_, _, -, hb⟩ := returns_bind.mp hb
    obtain ⟨_, _, -, hb⟩ := returns_bind.mp hb
    obtain ⟨_, _, -, hb⟩ := returns_bind.mp hb
    obtain ⟨rfl, -⟩ := returns_pure.mp hb
    rfl
  refine ⟨hproof.trans (h.eq_of_returns hh ha), ?_⟩
  rw [events_bind_of_silent .header hh, events_bind_of_returns ha, h.events_decodeAux hh, hlogs]

theorem Progress.events_of_fails (h : Progress c branches proof) (hf : decode.Fails c e c') :
    (decode c).events = branches.map Merkle.Branch.event ++ proof.toList.map AuxProof.event := by
  rw [decode_eq] at hf ⊢
  rcases fails_bind.mp hf with hf | ⟨header, m, hh, hf⟩
  · rw [events_bind_of_fails hf]
    cases h with
    | header => exact Confined.header.silent c
    | unannounced hh | announced hh => exact absurd hf hh.not_fails
  rw [events_bind_of_silent .header hh]
  rcases fails_bind.mp hf with hf | ⟨auxPow, m₁, ha, hf⟩
  · rw [events_bind_of_fails hf, h.events_decodeAux hh]
  · have hlogs := (logs_decodeTransactions header auxPow (isSome_of_decodeAux ha)).fails hf
    rw [events_bind_of_returns ha, h.events_decodeAux hh, hlogs, List.append_nil]

theorem map_entry_append (branches : List Merkle.Branch)
    (proof : Option (AuxProof Transaction Header)) (events : List Event) :
    (branches.map Merkle.Branch.event ++ proof.toList.map AuxProof.event ++ events).map Event.entry =
      branches.map LogEntry.branch ++ proof.toList.map LogEntry.proof ++ events.map Event.entry := by
  rw [List.map_append, List.map_append, List.map_map, List.map_map]
  rfl

/-- The log of a read tells which branches and which proof were read in full, in their order, and ends
with the outcome. -/
theorem log_ofBytes (data : List UInt8) : ∃ branches proof closing,
    Progress (.ofBytes data) branches proof ∧ branches.length ≤ 2 ∧
    Closing data proof (ofBytes data).result closing ∧
    (ofBytes data).events.map Event.entry =
      branches.map LogEntry.branch ++ proof.toList.map LogEntry.proof ++ closing := by
  obtain ⟨branches, proof, h⟩ := exists_progress (.ofBytes data)
  refine ⟨branches, proof, ?_⟩
  rcases returns_or_fails decode (.ofBytes data) with ⟨b, hb⟩ | ⟨e, he⟩
  · obtain ⟨hproof, hevents⟩ := h.events_of_returns hb
    rw [ofBytes_of_returns hb, hevents]
    split_ifs with hend
    · have hrest := List.isEmpty_iff.mp hend
      exact ⟨_, h, h.length_le, .accepted hb hproof hrest, map_entry_append ..⟩
    · have hrest := mt List.isEmpty_iff.mpr hend
      rw [List.append_assoc]
      exact ⟨_, h, h.length_le, .trailing hb hproof hrest, map_entry_append ..⟩
  · have hwire : e.IsWire := confined_decode.errors _ _ he.1
    rw [ofBytes_of_fails he, h.events_of_fails he]
    exact ⟨_, h, h.length_le, .failed he hwire, map_entry_append ..⟩

-- A block that is cut one byte before the end of its proof, inside the header of the parent block.
example : (ofBytes (sample.encode.take 300)).events.map Event.entry =
    [⟨.trace, "decoded merkle branch", [("count", "1"), ("side_mask", "1")]⟩,
     ⟨.trace, "decoded merkle branch", [("count", "0"), ("side_mask", "0")]⟩,
     ⟨.debug, "block decode failed", [("position", "297"),
       ("error", "truncated input reading header.nonce: needed 4 bytes, 3 remaining")]⟩] := by
  decide +kernel

end Block

end MergedMining
