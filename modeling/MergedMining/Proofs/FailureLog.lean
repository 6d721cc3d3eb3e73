import MergedMining.Proofs.EventLog
import MergedMining.Proofs.HexBlocks

/-! Failures in the log. Whatever goes wrong with the bytes of a block is logged once, by the entry point
and not by the decoders below it. A text is refused before any bytes are read from it, and of that refusal
there is no trace in the log. -/
namespace MergedMining

open Decoder

namespace LogEntry

/-- The entries that tell of a failure. -/
def IsFailure (entry : LogEntry) : Prop :=
  entry.level = .debug ∧
    (entry.message = "block decode failed" ∨ entry.message = "block followed by trailing bytes")

instance : DecidablePred IsFailure := fun _ => inferInstanceAs (Decidable (_ ∧ _))

end LogEntry

namespace Outcome

variable {α : Type} {result : Except DecodeError α} {events last : List Event}

/-- The failures in the log, in their order. -/
def failures (o : Outcome α) : List LogEntry :=
  (o.events.map Event.entry).filter fun entry => entry.IsFailure

/-- The log tells of one failure where there is an error, and of none where there is a value. -/
structure Accounted (o : Outcome α) : Prop where
  error {e : DecodeError} (h : o.result = .error e) : o.failures.length = 1
  ok {a : α} (h : o.result = .ok a) : o.failures = []

theorem failures_append (h : ∀ event ∈ events, ¬ event.entry.IsFailure) :
    failures ⟨result, events ++ last⟩ =
      (last.map Event.entry).filter fun entry => entry.IsFailure := by
  have hquiet : ((events.map Event.entry).filter fun entry => entry.IsFailure) = [] := by
    simpa [List.filter_eq_nil_iff] using h
  rw [failures, List.map_append, List.filter_append, hquiet, List.nil_append]

theorem accounted_ok {a : α} (h : ∀ event ∈ events, ¬ event.entry.IsFailure) :
    (⟨.ok a, events⟩ : Outcome α).Accounted where
  error he := nomatch he
  ok _ := by
    rw [← List.append_nil events, failures_append h]
    rfl

theorem accounted_error {e : DecodeError} {event : Event}
    (h : ∀ event ∈ events, ¬ event.entry.IsFailure) (hevent : event.entry.IsFailure) :
    (⟨.error e, events ++ [event]⟩ : Outcome α).Accounted where
  error _ := by
    rw [failures_append h, List.map_singleton, List.filter_singleton, decide_eq_true hevent]
    rfl
  ok ha := nomatch ha

theorem not_accounted {o : Outcome α} {e : DecodeError} (herror : o.result = .error e)
    (hsilent : o.events = []) : ¬ o.Accounted := by
  intro h
  have hone := h.error herror
  rw [failures, hsilent] at hone
  cases hone

end Outcome

theorem Event.not_isFailure_of_trace {event : Event} (h : event.level = .trace) :
    ¬ event.entry.IsFailure := by
  rintro ⟨hdebug, -⟩
  cases h.symm.trans hdebug

namespace Block

theorem not_isFailure_event (b : Block Transaction Header) : ¬ b.event.entry.IsFailure := by
  rintro ⟨-, hmessage⟩
  change "decoded block" = "block decode failed" ∨
    "decoded block" = "block followed by trailing bytes" at hmessage
  exact absurd hmessage (by decide)

/-- The decoders leave it to the entry points to log a failure. -/
theorem not_isFailure_of_mem_events (c : Cursor) :
    ∀ event ∈ (decode c).events, ¬ event.entry.IsFailure := by
  obtain ⟨branches, proof, h⟩ := exists_progress c
  have hparts : ∀ event ∈ branches.map Merkle.Branch.event ++ proof.toList.map AuxProof.event,
      ¬ event.entry.IsFailure := by
    intro event hevent
    apply Event.not_isFailure_of_trace
    rcases List.mem_append.mp hevent with hevent | hevent
    · obtain ⟨m, -, rfl⟩ := List.mem_map.mp hevent
      rfl
    · obtain ⟨a, -, rfl⟩ := List.mem_map.mp hevent
      rfl
  rcases returns_or_fails decode c with ⟨b, hb⟩ | ⟨e, he⟩
  · obtain ⟨-, hevents⟩ := h.events_of_returns hb
    rw [hevents, List.forall_mem_append, List.forall_mem_singleton]
    exact ⟨hparts, b.not_isFailure_event⟩
  · rw [h.events_of_fails he]
    exact hparts

theorem accounted_ofBytes (data : List UInt8) : (ofBytes data).Accounted := by
  have hquiet := not_isFailure_of_mem_events (.ofBytes data)
  rcases returns_or_fails decode (.ofBytes data) with ⟨b, hb⟩ | ⟨e, he⟩
  · rw [ofBytes_of_returns hb]
    split_ifs with hend
    · exact Outcome.accounted_ok hquiet
    · exact Outcome.accounted_error hquiet ⟨rfl, .inr rfl⟩
  · rw [ofBytes_of_fails he]
    exact Outcome.accounted_error hquiet ⟨rfl, .inl rfl⟩

theorem accounted_ofHex {s : String} {text : List Char} (ht : Text.TrimsTo s.toList text)
    (h : Even text.length ∧ ∀ c ∈ text, Hex.IsDigit c) : (ofHex s).Accounted := by
  cases hdecode : Hex.decode (.ofList text) with
  | error e => exact absurd h (Hex.exists_decode_eq_error_iff.mp ⟨e, hdecode⟩)
  | ok data =>
    rw [ofHex_of_trimsTo ht hdecode]
    exact accounted_ofBytes data

/-- No bytes are read from a text that spells none, and the entry point for bytes is the only one that
logs. -/
theorem ofHex_of_not_isDigit {s : String} {text : List Char} (ht : Text.TrimsTo s.toList text)
    (h : ¬ (Even text.length ∧ ∀ c ∈ text, Hex.IsDigit c)) :
    (∃ reason, (ofHex s).result = .error (.format (.invalidHex reason))) ∧ (ofHex s).events = [] := by
  obtain ⟨e, he⟩ := Hex.exists_decode_eq_error_iff.mpr h
  rw [ofHex, ht.trim_eq, he]
  exact ⟨⟨e.message, rfl⟩, rfl⟩

/-- A failure is logged once, and a value without one, for all bytes and for the texts that spell bytes,
but for no other text: one that spells none is refused, and nothing is logged at all. -/
theorem accounted_or_refused_silently (data : List UInt8) (s : String) :
    (ofBytes data).Accounted ∧ ∃ text, Text.TrimsTo s.toList text ∧
      ((ofHex s).Accounted ↔ Even text.length ∧ ∀ c ∈ text, Hex.IsDigit c) ∧
      ((∃ reason, (ofHex s).result = .error (.format (.invalidHex reason))) ∧ (ofHex s).events = [] ↔
        ¬ (Even text.length ∧ ∀ c ∈ text, Hex.IsDigit c)) := by
  have ht := Text.trimsTo_trim s.toList
  refine ⟨accounted_ofBytes data, _, ht, ⟨?_, accounted_ofHex ht⟩, ?_, ofHex_of_not_isDigit ht⟩
  · intro haccounted
    by_contra h
    obtain ⟨⟨_, hrefused⟩, hsilent⟩ := ofHex_of_not_isDigit ht h
    exact Outcome.not_accounted hrefused hsilent haccounted
  · intro hsilent h
    obtain ⟨⟨_, hrefused⟩, hsilent⟩ := hsilent
    exact Outcome.not_accounted hrefused hsilent (accounted_ofHex ht h)

/-- The second of two characters is no digit. -/
theorem ofHex_refuses_silently :
    (ofHex "0g").result = .error (.format (.invalidHex "Invalid character 'g' at position 1")) ∧
      (ofHex "0g").failures.length ≠ 1 := by
  decide +kernel

end Block

end MergedMining
