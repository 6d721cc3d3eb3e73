import MergedMining.Proofs.Composition
import MergedMining.Proofs.Failures

/-! What the decoders of the wire format can fail with, and what they report. Of the errors that there
are, a decoder raises but a few; the others come from reading a text, from a collaborator, or from what
stands behind a block. -/
namespace MergedMining

open Decoder

/-- The errors that the decoders of the wire format raise. -/
inductive DecodeError.IsWire : DecodeError → Prop
  | truncatedInput (field : String) (needed remaining : Nat) :
      IsWire (.truncatedInput field needed remaining)
  | nonCanonicalVarInt (marker : UInt8) (value : UInt64) :
      IsWire (.format (.nonCanonicalVarInt marker value))
  | invalidWitnessFlag (flag : UInt8) : IsWire (.format (.invalidWitnessFlag flag))
  | superfluousWitness : IsWire (.format .superfluousWitness)

theorem DecodeError.not_isWire_invalidHex (reason : String) :
    ¬ IsWire (.format (.invalidHex reason)) := by
  intro h
  cases h

namespace Decoder

variable {E : Event → Prop} {α β : Type}

/-- From every cursor the decoder reports events of `E` only, and fails only with an error of the wire
format. -/
structure Confined (E : Event → Prop) (d : Decoder α) : Prop where
  events (c : Cursor) : ∀ event ∈ (d c).events, E event
  errors (c : Cursor) (e : DecodeError) (he : (d c).result = .error e) : e.IsWire

namespace Confined

/-- A decoder with no event to report reports none. -/
theorem silent {d : Decoder α} (h : d.Confined fun _ => False) (c : Cursor) : (d c).events = [] :=
  List.eq_nil_iff_forall_not_mem.mpr (h.events c)

theorem pure (a : α) : (pure a : Decoder α).Confined E where
  events c := fun _ h => absurd h List.not_mem_nil
  errors c e he := by cases he

theorem here : here.Confined E where
  events c := fun _ h => absurd h List.not_mem_nil
  errors c e he := by cases he

theorem fail {e : DecodeError} (h : e.IsWire) : (fail e : Decoder α).Confined E where
  events c := fun _ h => absurd h List.not_mem_nil
  errors c e' he := by
    obtain rfl := Except.error.inj he
    exact h

theorem failAt {e : DecodeError} (h : e.IsWire) (start : Cursor) :
    (failAt start e : Decoder α).Confined E where
  events c := fun _ h => absurd h List.not_mem_nil
  errors c e' he := by
    obtain rfl := Except.error.inj he
    exact h

theorem report {event : Event} (h : E event) : (report event).Confined E where
  events c := by
    intro _ hmem
    obtain rfl := List.mem_singleton.mp hmem
    exact h
  errors c e he := by cases he

theorem bind {d : Decoder α} {f : α → Decoder β} (hd : d.Confined E) (hf : ∀ a, (f a).Confined E) :
    (d >>= f).Confined E where
  events c := by
    cases hr : (d c).result with
    | error e =>
      rw [bind_of_error hr]
      exact hd.events c
    | ok a =>
      rw [bind_of_ok hr]
      intro event hmem
      rcases List.mem_append.mp hmem with hmem | hmem
      · exact hd.events c event hmem
      · exact (hf a).events _ event hmem
  errors c e he := by
    rcases fails_bind.mp ⟨he, rfl⟩ with h | ⟨a, m, -, h⟩
    · exact hd.errors c e h.1
    · exact (hf a).errors m e h.1

theorem exactly (n : Nat) (field : String) : (exactly n field).Confined E where
  events c := by
    rcases Nat.lt_or_ge c.rest.length n with hn | hn
    · rw [exactly_of_lt hn]
      exact fun _ h => absurd h List.not_mem_nil
    · rw [exactly_of_le hn]
      exact fun _ h => absurd h List.not_mem_nil
  errors c e he := by
    obtain ⟨-, rfl, -⟩ := (failsShort_exactly n field c e _).mp ⟨he, rfl⟩
    exact .truncatedInput field n c.remaining

theorem inherited : Inherited (Confined E) := ⟨pure, bind, exactly⟩

theorem varInt (field : String) : (varInt field).Confined E := by
  apply here.bind
  intro start
  apply (inherited.uint8 field).bind
  intro marker
  cases VarInt.form? marker with
  | none => exact pure _
  | some form =>
    apply (inherited.number form.width field).bind
    intro n
    by_cases hl : UInt64.ofNat n < form.least
    · simp only [hl, if_true]
      exact failAt (.nonCanonicalVarInt marker _) start
    · simp only [hl, if_false]
      exact pure _

theorem count (field : String) (least : Nat) : (count field least).Confined E := by
  apply here.bind
  intro start
  apply (varInt field).bind
  intro v
  apply here.bind
  intro after
  split_ifs
  · exact pure _
  · exact failAt (.truncatedInput field _ _) start

theorem wireInherited : WireInherited (Confined E) where
  toInherited := inherited
  count := count
  superfluous := fail .superfluousWitness

theorem decodeLayout : Transaction.decodeLayout.Confined E := by
  apply here.bind
  intro start
  split_ifs
  · apply (inherited.uint8 _).bind
    intro marker
    apply (inherited.uint8 _).bind
    intro flag
    split_ifs
    · exact pure _
    · exact fail (.invalidWitnessFlag flag)
  · exact pure _

theorem header : Header.decode.Confined E := inherited.header

theorem transaction : Transaction.decode.Confined E :=
  wireInherited.transaction fun version => decodeLayout.bind (wireInherited.body version)

end Confined

end Decoder

namespace Block

theorem confined_decode : decode.Confined fun _ => True :=
  Confined.wireInherited.block (fun _ => .report trivial) .transaction .header

variable {data : List UInt8} {b : Block Transaction Header} {c : Cursor} {e : DecodeError}

theorem ofBytes_of_fails (h : decode.Fails (.ofBytes data) e c) :
    ofBytes data = ⟨.error e, (decode (.ofBytes data)).events ++ [.blockFailed c.position e]⟩ := by
  obtain ⟨he, rfl⟩ := h
  unfold ofBytes
  split
  · next hd =>
    simp only [hd] at he ⊢
    cases he
    rfl
  · next hd => simp [hd] at he

theorem ofBytes_of_returns (h : decode.Returns (.ofBytes data) b c) :
    ofBytes data = if c.isEmpty then ⟨.ok b, (decode (.ofBytes data)).events⟩
      else ⟨.error (.format (.trailingBytes c.remaining)),
        (decode (.ofBytes data)).events ++ [.trailingBytes c.remaining]⟩ := by
  obtain ⟨hb, rfl⟩ := h
  unfold ofBytes
  split
  · next hd => simp [hd] at hb
  · next hd =>
    simp only [hd] at hb ⊢
    cases hb
    rfl

/-- Reading a whole input fails where the block does, or because of the bytes behind it. -/
theorem isWire_or_trailingBytes (h : (ofBytes data).result = .error e) :
    e.IsWire ∨ ∃ n, e = .format (.trailingBytes n) := by
  rcases returns_or_fails decode (.ofBytes data) with ⟨b, hret⟩ | ⟨e', hfail⟩
  · rw [ofBytes_of_returns hret] at h
    split_ifs at h
    obtain rfl := Except.error.inj h
    exact .inr ⟨_, rfl⟩
  · rw [ofBytes_of_fails hfail] at h
    obtain rfl := Except.error.inj h
    exact .inl (confined_decode.errors _ _ hfail.1)

end Block

end MergedMining
