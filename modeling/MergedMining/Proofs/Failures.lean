import MergedMining.Proofs.Locality
import MergedMining.Proofs.Misreading

/-! Where a failed read leaves the cursor, and how many bytes it says are missing. A number of variable
length that is cut short behind its marker is the one read that does not go back to where it began. -/
namespace MergedMining

namespace Decoder

variable {α β : Type}

/-- Started at `c`, the decoder fails with `e` and leaves the cursor at `c'`. -/
def Fails (d : Decoder α) (c : Cursor) (e : DecodeError) (c' : Cursor) : Prop :=
  (d c).result = .error e ∧ (d c).cursor = c'

section Fails

variable {c c' : Cursor} {e : DecodeError}

theorem returns_or_fails (d : Decoder α) (c : Cursor) :
    (∃ a, d.Returns c a (d c).cursor) ∨ ∃ e, d.Fails c e (d c).cursor := by
  cases h : (d c).result with
  | ok a => exact .inl ⟨a, h, rfl⟩
  | error e => exact .inr ⟨e, h, rfl⟩

theorem Returns.not_fails {d : Decoder α} {a : α} {m : Cursor} (h : d.Returns c a m) :
    ¬ d.Fails c e c' := by
  intro hf
  cases h.1.symm.trans hf.1

theorem fails_bind {d : Decoder α} {f : α → Decoder β} :
    (d >>= f).Fails c e c' ↔ d.Fails c e c' ∨ ∃ a m, d.Returns c a m ∧ (f a).Fails m e c' := by
  cases hd : (d c).result with
  | error e₁ => simp [Fails, Returns, bind_of_error hd, hd]
  | ok a => simp [Fails, Returns, bind_of_ok hd, hd]

@[simp] theorem not_fails_pure {a : α} : ¬ (pure a : Decoder α).Fails c e c' :=
  Returns.not_fails (returns_pure.mpr ⟨rfl, rfl⟩)

@[simp] theorem not_fails_here : ¬ here.Fails c e c' :=
  Returns.not_fails (returns_here.mpr ⟨rfl, rfl⟩)

@[simp] theorem not_fails_report {event : Event} : ¬ (report event).Fails c e c' :=
  Returns.not_fails (a := ()) (returns_report.mpr rfl)

@[simp] theorem fails_fail {e₁ : DecodeError} :
    (fail e₁ : Decoder α).Fails c e c' ↔ e = e₁ ∧ c' = c := by
  simp [Fails, fail, eq_comm]

@[simp] theorem fails_failAt {start : Cursor} {e₁ : DecodeError} :
    (failAt start e₁ : Decoder α).Fails c e c' ↔ e = e₁ ∧ c' = start := by
  simp [Fails, failAt, eq_comm]

/-- What is done with a value after reading it cannot fail. -/
@[simp] theorem fails_bind_pure {d : Decoder α} {f : α → β} :
    (d >>= fun a => pure (f a)).Fails c e c' ↔ d.Fails c e c' := by
  simp [fails_bind]

@[simp] theorem fails_map {d : Decoder α} {f : α → β} :
    (f <$> d).Fails c e c' ↔ d.Fails c e c' :=
  fails_bind_pure

/-- A repeated read fails at the first element that fails. -/
theorem fails_times {d : Decoder α} {n : Nat} :
    (times n d).Fails c e c' ↔
      ∃ i < n, ∃ as m, (times i d).Returns c as m ∧ d.Fails m e c' := by
  induction n generalizing c with
  | zero => simp [times]
  | succ n ih =>
    simp only [times, fails_bind, not_fails_pure, and_false, exists_false, or_false, ih]
    constructor
    · intro h
      -- The first element fails, or it is read and one of those behind it fails.
      rcases h with h | ⟨a, m, ha, i, hi, as, m', has, h⟩
      · exact ⟨0, n.succ_pos, [], c, returns_pure.mpr ⟨rfl, rfl⟩, h⟩
      · refine ⟨i + 1, Nat.succ_lt_succ hi, a :: as, m', ?_, h⟩
        exact returns_bind.mpr ⟨a, m, ha, returns_bind.mpr ⟨as, m', has, returns_pure.mpr ⟨rfl, rfl⟩⟩⟩
    · intro h
      obtain ⟨i, hi, as, m', has, h⟩ := h
      cases i with
      | zero =>
        obtain ⟨-, rfl⟩ := returns_pure.mp has
        exact .inl h
      | succ i =>
        obtain ⟨a, m, ha, hrest⟩ := returns_bind.mp has
        obtain ⟨as', m'', has', hp⟩ := returns_bind.mp hrest
        obtain ⟨-, rfl⟩ := returns_pure.mp hp
        exact .inr ⟨a, m, ha, i, Nat.lt_of_succ_lt_succ hi, as', m', has', h⟩

end Fails

section FixedWidth

/-- The decoder needs `width` bytes. It fails only when they are not all there, and then stays where
it is. -/
def FailsShort (width : Nat) (field : String) (d : Decoder α) : Prop :=
  ∀ c e c', d.Fails c e c' ↔
    c.remaining < width ∧ e = .truncatedInput field width c.remaining ∧ c' = c

theorem FailsShort.bind_pure {width : Nat} {field : String} {d : Decoder α}
    (h : d.FailsShort width field) (f : α → β) :
    (d >>= fun a => pure (f a)).FailsShort width field := by
  intro c e c'
  rw [fails_bind_pure, h]

theorem failsShort_exactly (n : Nat) (field : String) : (exactly n field).FailsShort n field := by
  intro c e c'
  rcases Nat.lt_or_ge c.rest.length n with hn | hn
  · simp [Fails, exactly_of_lt hn, Cursor.remaining, hn, eq_comm]
  · simp [Fails, exactly_of_le hn, Cursor.remaining, Nat.not_lt_of_ge hn]

theorem failsShort_bytes (n : Nat) (field : String) : (bytes n field).FailsShort n field :=
  (failsShort_exactly n field).bind_pure Subtype.val

theorem failsShort_number (width : Nat) (field : String) :
    (number width field).FailsShort width field :=
  (failsShort_bytes width field).bind_pure LittleEndian.decode

theorem failsShort_uint8 (field : String) : (uint8 field).FailsShort 1 field :=
  (failsShort_number 1 field).bind_pure UInt8.ofNat

theorem failsShort_uint16 (field : String) : (uint16 field).FailsShort 2 field :=
  (failsShort_number 2 field).bind_pure UInt16.ofNat

theorem failsShort_uint32 (field : String) : (uint32 field).FailsShort 4 field :=
  (failsShort_number 4 field).bind_pure UInt32.ofNat

theorem failsShort_uint64 (field : String) : (uint64 field).FailsShort 8 field :=
  (failsShort_number 8 field).bind_pure UInt64.ofNat

theorem failsShort_int32 (field : String) : (int32 field).FailsShort 4 field :=
  (failsShort_uint32 field).bind_pure UInt32.toInt32

theorem failsShort_hash (field : String) : (hash field).FailsShort 32 field :=
  (failsShort_exactly 32 field).bind_pure fun bs => Hash256.mk bs.val bs.property

end FixedWidth

section VarInt

variable {field : String} {c c' : Cursor} {e : DecodeError}

theorem returns_uint8 {b : UInt8} {m : Cursor} :
    (uint8 field).Returns c b m ↔ ∃ rest, c.rest = b :: rest ∧ m = c.advance 1 := by
  simp only [recognises_uint8 field c b m, Grammar.written, true_and, exists_eq_right,
    Cursor.spans_iff_advance, List.length_singleton]
  cases c.rest <;> simp

/-- A number fails at its marker, at the payload behind it, or because a shorter form would do. -/
theorem fails_varInt : (varInt field).Fails c e c' ↔
    (uint8 field).Fails c e c' ∨ ∃ marker m form, (uint8 field).Returns c marker m ∧
      VarInt.form? marker = some form ∧ ((number form.width field).Fails m e c' ∨
        ∃ n m', (number form.width field).Returns m n m' ∧ UInt64.ofNat n < form.least ∧
          e = .format (.nonCanonicalVarInt marker (.ofNat n)) ∧ c' = c) := by
  unfold varInt
  simp only [fails_bind, not_fails_here, returns_here, false_or]
  constructor
  · intro h
    obtain ⟨_, _, ⟨rfl, rfl⟩, h | ⟨marker, m, hm, h⟩⟩ := h
    · exact .inl h
    · cases hf : VarInt.form? marker with
      -- Without a payload the marker is the value, and nothing is left to fail.
      | none => simp [hf] at h
      | some form =>
        simp only [hf, fails_bind] at h
        refine .inr ⟨marker, m, form, hm, hf, h.imp_right ?_⟩
        intro h
        obtain ⟨n, m', hn, h⟩ := h
        split_ifs at h with hl
        · exact ⟨n, m', hn, hl, fails_failAt.mp h⟩
        · exact absurd h not_fails_pure
  · intro h
    refine ⟨c, c, ⟨rfl, rfl⟩, h.imp_right ?_⟩
    intro h
    obtain ⟨marker, m, form, hm, hf, h⟩ := h
    refine ⟨marker, m, hm, ?_⟩
    simp only [hf, fails_bind]
    refine h.imp_right ?_
    intro h
    obtain ⟨n, m', hn, hl, h⟩ := h
    exact ⟨n, m', hn, by rw [if_pos hl]; exact fails_failAt.mpr h⟩

end VarInt

end Decoder

/-- The next byte is a marker, and the number that it announces is not all there. -/
def VarInt.CutShort (c : Cursor) : Prop := ∃ marker payload form,
  c.rest = marker :: payload ∧ VarInt.form? marker = some form ∧ payload.length < form.width

namespace Decoder

variable {α : Type} {field : String} {c c' : Cursor} {e : DecodeError}

theorem fails_count {least : Nat} : (count field least).Fails c e c' ↔
    (varInt field).Fails c e c' ∨ ∃ v m, (varInt field).Returns c v m ∧
      m.remaining < saturatingMul v.toNat (max least 1) ∧
      e = .truncatedInput field (saturatingMul v.toNat (max least 1)) m.remaining ∧ c' = c := by
  unfold count
  simp only [fails_bind, not_fails_here, returns_here, false_or]
  constructor
  · intro h
    obtain ⟨_, _, ⟨rfl, rfl⟩, h⟩ := h
    refine h.imp_right ?_
    intro h
    obtain ⟨v, m, hv, _, _, ⟨rfl, rfl⟩, h⟩ := h
    split_ifs at h with hn
    · exact absurd h not_fails_pure
    · refine ⟨v, _, hv, ?_, fails_failAt.mp h⟩
      rwa [hasAtLeast_iff, Nat.not_le] at hn
  · intro h
    refine ⟨c, c, ⟨rfl, rfl⟩, h.imp_right ?_⟩
    intro h
    obtain ⟨v, m, hv, hlt, h⟩ := h
    have hn : ¬ hasAtLeast (saturatingMul v.toNat (max least 1)) m.rest = true :=
      mt hasAtLeast_iff.mp (Nat.not_le_of_lt hlt)
    refine ⟨v, m, hv, m, m, ⟨rfl, rfl⟩, ?_⟩
    rw [if_neg hn]
    exact fails_failAt.mpr h

/-- A failure leaves the cursor where it was. -/
def Restores (d : Decoder α) : Prop := ∀ c e c', d.Fails c e c' → c' = c

/-- A failure leaves the cursor where it was, except at the cursors of `P`, where the decoder fails
one byte further on. -/
structure RestoresUnless (P : Cursor → Prop) (d : Decoder α) : Prop where
  restores : ∀ c e c', d.Fails c e c' → ¬ P c → c' = c
  moves : ∀ c, P c → ∃ e, d.Fails c e (c.advance 1)

theorem FailsShort.restores {width : Nat} {d : Decoder α} (h : d.FailsShort width field) :
    d.Restores := by
  intro c e c' hf
  exact ((h c e c').mp hf).2.2

theorem restoresUnless_varInt (field : String) :
    (varInt field).RestoresUnless VarInt.CutShort where
  restores c e c' h hc := by
    rcases fails_varInt.mp h with h | ⟨marker, m, form, hm, hf, h | ⟨n, m', -, -, -, h⟩⟩
    · exact (failsShort_uint8 field).restores c e c' h
    · obtain ⟨payload, hrest, rfl⟩ := returns_uint8.mp hm
      obtain ⟨hlt, -, -⟩ := (failsShort_number _ _ _ _ _).mp h
      rw [Cursor.remaining, Cursor.advance, hrest] at hlt
      exact absurd ⟨marker, payload, form, hrest, hf, hlt⟩ hc
    · exact h
  moves c hc := by
    obtain ⟨marker, payload, form, hrest, hf, hlt⟩ := hc
    have hm : (uint8 field).Returns c marker (c.advance 1) := returns_uint8.mpr ⟨payload, hrest, rfl⟩
    have hlt' : (c.advance 1).remaining < form.width := by
      rwa [Cursor.remaining, Cursor.advance, hrest]
    have hn := (failsShort_number form.width field (c.advance 1) _ _).mpr ⟨hlt', rfl, rfl⟩
    exact ⟨_, fails_varInt.mpr (.inr ⟨marker, _, form, hm, hf, .inl hn⟩)⟩

theorem restoresUnless_count (field : String) (least : Nat) :
    (count field least).RestoresUnless VarInt.CutShort where
  restores c e c' h hc := by
    rcases fails_count.mp h with h | ⟨v, m, -, -, -, h⟩
    · exact (restoresUnless_varInt field).restores c e c' h hc
    · exact h
  moves c hc := by
    obtain ⟨e, h⟩ := (restoresUnless_varInt field).moves c hc
    exact ⟨e, fails_count.mpr (.inl h)⟩

/-- A failed read leaves the cursor where it was, with one exception: where the number behind a marker
is cut short, the cursor is left behind the marker. -/
theorem cursor_of_failed_read (n least : Nat) (field : String) :
    ((exactly n field).Restores ∧ (bytes n field).Restores) ∧
    ((uint8 field).Restores ∧ (uint16 field).Restores ∧ (uint32 field).Restores ∧
      (int32 field).Restores ∧ (uint64 field).Restores ∧ (hash field).Restores) ∧
    (varInt field).RestoresUnless VarInt.CutShort ∧
    (count field least).RestoresUnless VarInt.CutShort := by
  refine ⟨?_, ?_, restoresUnless_varInt field, restoresUnless_count field least⟩
  · exact ⟨(failsShort_exactly n field).restores, (failsShort_bytes n field).restores⟩
  · exact ⟨(failsShort_uint8 field).restores, (failsShort_uint16 field).restores,
      (failsShort_uint32 field).restores, (failsShort_int32 field).restores,
      (failsShort_uint64 field).restores, (failsShort_hash field).restores⟩

/-- A marker with one byte of two behind it. -/
theorem varInt_leaves_marker :
    (varInt "n" (.ofBytes [0xfd, 0])).result = .error (.truncatedInput "n" 2 1) ∧
      (varInt "n" (.ofBytes [0xfd, 0])).cursor.position ≠ (Cursor.ofBytes [0xfd, 0]).position := by
  decide

/-- An input that is found too short is short by as much as the error says: no fewer bytes behind it
change the field that is blamed, what it needs or where the cursor is left. -/
def ReportsShortfall (d : Decoder α) : Prop :=
  ∀ {data : List UInt8} {pos : Nat} {field : String} {needed remaining : Nat}, pos ≤ data.length →
    (d (.ofOffset data pos)).result = .error (.truncatedInput field needed remaining) →
    remaining < needed ∧ ∀ s : List UInt8, s.length < needed - remaining →
      (d (.ofOffset (data ++ s) pos)).result =
        .error (.truncatedInput field needed (remaining + s.length)) ∧
      (d (.ofOffset (data ++ s) pos)).cursor.position = (d (.ofOffset data pos)).cursor.position

theorem Steady.reportsShortfall {d : Decoder α} (hs : d.Steady) : d.ReportsShortfall := by
  intro data pos field needed remaining hpos he
  have hlt : remaining < needed := (hs (.ofOffset data pos) []).shortfall _ he
  refine ⟨hlt, fun s hlen => ?_⟩
  have hstands : (DecodeError.truncatedInput field needed remaining).Stands s.length := by
    change remaining + s.length < needed
    omega
  rw [hs.run_append hpos he hstands]
  simp [Run.append, he, Cursor.append, Except.mapError, DecodeError.extend]

end Decoder

/-- Every decoder of the wire format says how many bytes it is short of, and fails in the same way until
that many have come. -/
theorem reportsShortfall_decode :
    Header.decode.ReportsShortfall ∧ Transaction.decode.ReportsShortfall ∧
      Merkle.Branch.decode.ReportsShortfall ∧ AuxProof.decode.ReportsShortfall ∧
      Block.decode.ReportsShortfall :=
  ⟨Header.steady_decode.reportsShortfall, Transaction.steady_decode.reportsShortfall,
    Merkle.Branch.steady_decode.reportsShortfall, AuxProof.steady_decode.reportsShortfall,
    Block.steady_decode.reportsShortfall⟩

/-- A block of `0x00ffffff` transactions, none of which is there. -/
theorem shortfall_missing_transactions :
    let data := (Block.bareHeader 1).encode ++ [0xfe, 0xff, 0xff, 0xff, 0x00]
    (Block.decode (.ofOffset data 0)).result =
      .error (.truncatedInput "block.tx_count" 167772150 0) ∧
    (Block.decode (.ofOffset (data ++ [1, 2, 3]) 0)).result =
      .error (.truncatedInput "block.tx_count" 167772150 3) := by
  intro data
  have he : (Block.decode (.ofOffset data 0)).result =
      .error (.truncatedInput "block.tx_count" 167772150 0) := by decide +kernel
  obtain ⟨-, -, -, -, hblock⟩ := reportsShortfall_decode
  obtain ⟨-, hs⟩ := hblock (Nat.zero_le _) he
  exact ⟨he, (hs [1, 2, 3] (by decide)).1⟩

end MergedMining
