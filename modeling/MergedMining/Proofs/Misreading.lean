import MergedMining.Proofs.BlockFormat

/-! What becomes of a block that is written and read again. Writing checks nothing, so the bytes of an
ill-formed block may be those of another block. -/
namespace MergedMining

open Decoder Grammar

theorem Transaction.encode_of_inputs_eq_nil {tx : Transaction} (h : tx.inputs = []) (rest : List UInt8) :
    ∃ t, (tx.encode ++ rest).drop 4 = 0 :: (VarInt.encodeLength tx.outputs ++ t) := by
  have hl : tx.layout = .legacy := layout_eq_legacy.mpr (by simp [h])
  have hz : VarInt.encodeLength ([] : List Input) = [0] := rfl
  rw [drop_encode, hl, encodeBody, h, hz]
  simp

/-- A transaction without inputs can be taken for another only if it has one output, whose count then
passes for the witness flag. -/
theorem Transaction.consistent_written :
    Consistent (written encode fun tx => tx.inputs ≠ [] ∧ tx.Fits)
      (written encode fun tx => (tx.inputs = [] → tx.outputs.length ≠ 1) ∧ tx.Fits) := by
  intro tx tx' s t u v hs ht h
  obtain ⟨⟨hi, hf⟩, rfl⟩ := hs
  obtain ⟨⟨ho, hf'⟩, rfl⟩ := ht
  by_cases hi' : tx'.inputs = []
  · exfalso
    obtain ⟨w, hw⟩ := encode_of_inputs_eq_nil hi' v
    have h4 := congrArg (List.drop 4) h
    rw [drop_encode, hw] at h4
    cases hl : tx.layout with
    | legacy =>
      have hh : (tx.encodeBody .legacy ++ u).head? = some 0 := by
        simp only [hl, reduceCtorEq, if_false, List.nil_append] at h4
        rw [h4, List.head?_cons]
      rw [List.head?_append_of_ne_nil _ (tx.encodeBody_ne_nil .legacy)] at hh
      exact hi ((head?_encodeBody hf .legacy).mp hh)
    | witness =>
      have hh : (VarInt.encodeLength tx'.outputs ++ w).head? = some 1 := by
        simp only [hl, if_true, List.cons_append, List.nil_append, List.cons.injEq, true_and] at h4
        rw [← h4, List.head?_cons]
      rw [List.head?_append_of_ne_nil _ (VarInt.encodeLength_ne_nil _)] at hh
      exact ho hi' ((VarInt.head?_encodeLength (by decide) hf'.outputs).mp hh)
  · exact recognises_decode.consistent ⟨⟨hi, hf⟩, rfl⟩ ⟨⟨hi', hf'⟩, rfl⟩ h

section Grammars

variable {T H : Type} {TX TX' : Grammar T} {HD HD' : Grammar H}

theorem AuxProof.consistent_grammar (ht : Consistent TX TX') (hh : Consistent HD HD') :
    Consistent (grammar TX HD) (grammar TX' HD') := by
  have hhash := (recognises_hash "").consistent
  have hbranch := Merkle.Branch.recognises_decode.consistent
  intro a a' s t u v hs hs' h
  obtain ⟨hcb, hbb, tx, header, htx, hhd, rfl⟩ := hs
  obtain ⟨hcb', hbb', tx', header', htx', hhd', rfl⟩ := hs'
  simp only [List.append_assoc] at h
  obtain ⟨htx₁, rfl, h₁⟩ := ht htx htx' h
  obtain ⟨hhash₁, -, h₂⟩ := hhash ⟨trivial, rfl⟩ ⟨trivial, rfl⟩ h₁
  obtain ⟨hcb₁, -, h₃⟩ := hbranch ⟨hcb, rfl⟩ ⟨hcb', rfl⟩ h₂
  obtain ⟨hbb₁, -, h₄⟩ := hbranch ⟨hbb, rfl⟩ ⟨hbb', rfl⟩ h₃
  obtain ⟨hhd₁, rfl, huv⟩ := hh hhd hhd' h₄
  obtain ⟨coinbaseTx, blockHash, coinbaseBranch, blockchainBranch, parentHeader⟩ := a
  subst htx₁ hhash₁ hcb₁ hbb₁ hhd₁
  exact ⟨rfl, rfl, huv⟩

theorem Block.consistent_auxGrammar (ht : Consistent TX TX') (hh : Consistent HD HD')
    (flag : Bool) : Consistent (auxGrammar flag TX HD) (auxGrammar flag TX' HD') := by
  intro o o' s t u v hs hs' h
  cases o with
  | none =>
    obtain ⟨hflag, rfl⟩ := hs
    cases o' with
    | none =>
      obtain ⟨-, rfl⟩ := hs'
      exact ⟨rfl, rfl, h⟩
    | some a' => cases hflag.symm.trans hs'.1
  | some a =>
    obtain ⟨hflag, ha⟩ := hs
    cases o' with
    | none => cases hflag.symm.trans hs'.1
    | some a' =>
      obtain ⟨rfl, rfl, huv⟩ := AuxProof.consistent_grammar ht hh ha hs'.2 h
      exact ⟨rfl, rfl, huv⟩

theorem Block.consistent_grammar [Versioned H] (ht : Consistent TX TX') (hh : Consistent HD HD') :
    Consistent (grammar TX HD) (grammar TX' HD') := by
  intro b b' s t u v hs hs' h
  obtain ⟨hn, header, aux, txs, hhd, haux, htxs, rfl⟩ := hs
  obtain ⟨hn', header', aux', txs', hhd', haux', htxs', rfl⟩ := hs'
  simp only [List.append_assoc] at h
  obtain ⟨hheader, rfl, h₁⟩ := hh hhd hhd' h
  rw [← hheader] at haux'
  obtain ⟨hauxPow, rfl, h₂⟩ := consistent_auxGrammar ht hh _ haux haux' h₁
  obtain ⟨hcount, -, h₃⟩ := (recognises_varInt "").consistent ⟨trivial, rfl⟩ ⟨trivial, rfl⟩ h₂
  have hlen : b.transactions.length = b'.transactions.length := by
    have := congrArg UInt64.toNat hcount
    rwa [UInt64.toNat_ofNat_of_lt' hn, UInt64.toNat_ofNat_of_lt' hn'] at this
  obtain ⟨htransactions, rfl, huv⟩ := ht.list hlen htxs htxs' h₃
  obtain ⟨bHeader, bAuxPow, bTransactions⟩ := b
  subst hheader hauxPow htransactions
  exact ⟨rfl, rfl, huv⟩

end Grammars

namespace Block

/-- Nothing in the bytes of the block can be taken for something else. -/
structure Unmistakable (b : Block Transaction Header) : Prop where
  auxPow : b.auxPow.isSome = hasAuxpowFlag b.header.version
  outputs : ∀ tx ∈ b.allTransactions, tx.inputs = [] → tx.outputs.length ≠ 1

/-- The bytes of an unmistakable block are those of no other well-formed block. -/
theorem Unmistakable.eq_of_encode_eq {b b' : Block Transaction Header} (h : b.Unmistakable)
    (hf : b.Fits) (hw' : b'.WellFormed) (hf' : b'.Fits) (he : b'.encode = b.encode) : b' = b := by
  have hc := consistent_grammar Transaction.consistent_written Header.recognises_decode.consistent
  have ht := fun tx htx => And.intro (h.outputs tx htx) (hf.eachTransaction tx htx)
  have ht' := fun tx htx => And.intro (hw'.inputs tx htx) (hf'.eachTransaction tx htx)
  have hb := grammar_wire.mpr ⟨⟨h.auxPow, ht, hf.toCountsFit⟩, rfl⟩
  have hb' := grammar_wire.mpr ⟨⟨hw'.auxPow, ht', hf'.toCountsFit⟩, rfl⟩
  have happ : b'.encode ++ [] = b.encode ++ [] := by rw [he]
  exact (hc hb' hb happ).1

/-- A block is read back as itself if and only if it is well-formed, and an unmistakable one is never
read back as another block. Whatever is read is a well-formed block with the same bytes. -/
theorem ofBytes_encode {b : Block Transaction Header} (hf : b.Fits) :
    ((ofBytes b.encode).result = .ok b ↔ b.WellFormed) ∧
    (b.Unmistakable → (ofBytes b.encode).result = .ok b ∨ ∃ e, (ofBytes b.encode).result = .error e) ∧
    ∀ b', (ofBytes b.encode).result = .ok b' → b'.WellFormed ∧ b'.encode = b.encode := by
  refine ⟨?_, ?_, ?_⟩
  · rw [ofBytes_eq_ok_iff_written]
    exact ⟨fun h => h.1.1, fun h => ⟨⟨h, hf⟩, rfl⟩⟩
  · intro hu
    cases hr : (ofBytes b.encode).result with
    | error e => exact .inr ⟨e, rfl⟩
    | ok b' =>
      obtain ⟨⟨hw', hf'⟩, he⟩ := ofBytes_eq_ok_iff_written.mp hr
      obtain rfl := hu.eq_of_encode_eq hf hw' hf' he.symm
      exact .inl rfl
  · intro b' hr
    obtain ⟨⟨hw', -⟩, he⟩ := ofBytes_eq_ok_iff_written.mp hr
    exact ⟨hw', he.symm⟩

/-- A header with nothing in it but a version. -/
def bareHeader (version : Int32) : Header where
  version := version
  prevBlockHash := .zero
  merkleRoot := .zero
  timestamp := 0
  bits := 0
  nonce := 0

/-- One transaction with neither input nor output. -/
def withNothing : Block Transaction Header where
  header := bareHeader 1
  auxPow := none
  transactions := [⟨1, [], [], 0⟩]

theorem ofBytes_encode_withNothing : withNothing.Fits ∧ withNothing.Unmistakable ∧
    ∃ e, (ofBytes withNothing.encode).result = .error e := by
  have hf : withNothing.Fits := fits_of_length_encode (by decide)
  have hu : withNothing.Unmistakable := ⟨by decide, by decide⟩
  obtain ⟨hself, hread, -⟩ := ofBytes_encode hf
  have hw : ¬ withNothing.WellFormed := by decide
  exact ⟨hf, hu, (hread hu).resolve_left (mt hself.mp hw)⟩

/-- Behind the header stands a proof. The first byte of its coinbase is one, and its script announces
as many bytes as follow up to the difficulty of the parent. -/
def withProof (version : Int32) : Block Transaction Header where
  header := bareHeader version
  auxPow := some
    { coinbaseTx := ⟨1, [⟨⟨.ofNat 1, 0⟩, [123], 0, []⟩], [], 0⟩
      blockHash := .zero
      coinbaseBranch := ⟨[], 0⟩
      blockchainBranch := ⟨[], 0⟩
      parentHeader := bareHeader 0 }
  transactions := []

/-- The same bytes, with one transaction in place of the proof. -/
def withoutProof (version : Int32) : Block Transaction Header where
  header := bareHeader version
  auxPow := none
  transactions := [⟨0x01000000, [⟨⟨.zero, 0x01000000⟩, List.replicate 123 0, 0, []⟩], [], 0⟩]

/-- One transaction with an output but no input. -/
def withoutInput : Block Transaction Header where
  header := bareHeader 1
  auxPow := none
  transactions := [⟨1, [], [⟨1, List.replicate 34 0 ++ [1, 0]⟩], 0⟩]

/-- The same bytes, with an input and its witness in place of the output. -/
def withWitness : Block Transaction Header where
  header := bareHeader 1
  auxPow := none
  transactions := [⟨1, [⟨⟨.ofNat (36 * 256 ^ 7), 0⟩, [], 0, [[]]⟩], [], 0⟩]

/-- Each way to be ill-formed can make another block out of a block: a proof that the version does not
announce, an announced proof that is missing, and a transaction without inputs. -/
theorem ofBytes_encode_misread :
    ((ofBytes (withProof 1).encode).result = .ok (withoutProof 1) ∧
      withoutProof 1 ≠ withProof 1) ∧
    ((ofBytes (withoutProof 0x0100).encode).result = .ok (withProof 0x0100) ∧
      withProof 0x0100 ≠ withoutProof 0x0100) ∧
    ((ofBytes withoutInput.encode).result = .ok withWitness ∧ withWitness ≠ withoutInput) := by
  have hread {b b' : Block Transaction Header} (he : b.encode = b'.encode) (hw : b'.WellFormed)
      (hlen : b'.encode.length < UInt64.size) : (ofBytes b.encode).result = .ok b' :=
    ofBytes_eq_ok_iff_written.mpr ⟨⟨hw, fits_of_length_encode hlen⟩, he⟩
  refine ⟨⟨?_, by decide⟩, ⟨?_, by decide⟩, ?_, by decide⟩
  · exact hread (by decide +kernel) (by decide) (by decide +kernel)
  · exact hread (by decide +kernel) (by decide) (by decide +kernel)
  · exact hread (by decide +kernel) (by decide) (by decide +kernel)

end Block

end MergedMining
