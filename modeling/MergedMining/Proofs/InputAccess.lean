import MergedMining.Proofs.Steadiness

/-! No decoder leaves its input. What remains is looked at only inside the input, and bytes are taken
only where that many remain, so that no difference, no sum and no slice is out of range, however large
a length or a count may be. -/
namespace MergedMining

variable {α β : Type} {data : List UInt8} {low : Nat} {c : Cursor}

namespace Access

/-- The position can be taken away from the length of `data`. A slice ends inside of `data`, and its
bytes are those that stand there. -/
def InRange (data : List UInt8) : Access → Prop
  | look position => position ≤ data.length
  | take position bytes =>
    position + bytes.length ≤ data.length ∧ (data.drop position).take bytes.length = bytes

/-- The bytes that a cursor is moved past. -/
def bytes : Access → List UInt8
  | look _ => []
  | take _ bytes => bytes

end Access

namespace Cursor

/-- The cursor stands in `data`, at the end of it at the furthest. -/
structure Within (data : List UInt8) (c : Cursor) : Prop where
  eq_ofOffset : c = .ofOffset data c.position
  position_le : c.position ≤ data.length

namespace Within

theorem remaining (h : Within data c) : c.remaining = data.length - c.position := by
  rw [h.eq_ofOffset]
  exact remaining_ofOffset data c.position

theorem rest (h : Within data c) : c.rest = data.drop c.position := congrArg Cursor.rest h.eq_ofOffset

theorem advance {n : Nat} (h : Within data c) (hn : n ≤ c.remaining) : Within data (c.advance n) := by
  have hle := h.position_le
  rw [h.remaining] at hn
  constructor
  · simp [Cursor.advance, ofOffset, h.rest]
  · change c.position + n ≤ data.length
    omega

end Within

end Cursor

/-- Begun at `c`, the run makes no access that is out of range. It ends inside of `data`, and not in
front of `low`. -/
structure Run.Within (run : Run α) (data : List UInt8) (low : Nat) (c : Cursor) : Prop where
  cursor : run.cursor.Within data
  low_le : low ≤ run.cursor.position
  inRange : ∀ access ∈ run.accesses, access.InRange data
  /-- If the run succeeds, the slices that it has taken lie end to end. -/
  spans : ∀ a, run.result = .ok a → c.Spans (run.accesses.flatMap Access.bytes) run.cursor

/-- A run that makes no access at all may succeed only where it began. -/
theorem Run.within_of_accesses_eq_nil {run : Run α} (hrun : run.accesses = [])
    (hcursor : run.cursor.Within data) (hlow : low ≤ run.cursor.position)
    (hstays : ∀ a, run.result = .ok a → run.cursor = c) : run.Within data low c where
  cursor := hcursor
  low_le := hlow
  inRange access h := by
    rw [hrun] at h
    exact absurd h List.not_mem_nil
  spans a ha := by
    rw [hrun]
    exact Cursor.spans_nil.mpr (hstays a ha)

namespace Decoder

/-- From anywhere in `data` that is not in front of `low`, the decoder runs inside of `data`. -/
def Secure (d : Decoder α) (data : List UInt8) (low : Nat) : Prop :=
  ∀ c, c.Within data → low ≤ c.position → (d c).Within data low c

namespace Secure

variable {d : Decoder α} {f : α → Decoder β}

theorem pure (a : α) : (pure a : Decoder α).Secure data low := by
  intro c hc hlow
  exact Run.within_of_accesses_eq_nil rfl hc hlow fun _ _ => rfl

theorem report (event : Event) : (report event).Secure data low := by
  intro c hc hlow
  exact Run.within_of_accesses_eq_nil rfl hc hlow fun _ _ => rfl

/-- The cursor may be put back, but not behind `low`. -/
theorem failAt {start : Cursor} (hstart : start.Within data) (hlow : low ≤ start.position)
    (e : DecodeError) : (failAt start e : Decoder α).Secure data low := by
  intro c _ _
  apply Run.within_of_accesses_eq_nil rfl hstart hlow
  intro a ha
  cases ha

theorem fail (e : DecodeError) : (fail e : Decoder α).Secure data low := by
  intro c hc hlow
  exact failAt hc hlow e c hc hlow

theorem bind (hd : d.Secure data low) (hf : ∀ a, (f a).Secure data low) :
    (d >>= f).Secure data low := by
  intro c hc hlow
  have hfirst := hd c hc hlow
  cases hr : (d c).result with
  | error e =>
    rw [bind_of_error hr]
    refine ⟨hfirst.cursor, hfirst.low_le, hfirst.inRange, ?_⟩
    intro b hb
    cases hb
  | ok a =>
    have hrest := hf a _ hfirst.cursor hfirst.low_le
    rw [bind_of_ok hr]
    refine ⟨hrest.cursor, hrest.low_le, ?_, ?_⟩
    · intro access h
      rcases List.mem_append.mp h with h | h
      · exact hfirst.inRange access h
      · exact hrest.inRange access h
    · intro b hb
      rw [List.flatMap_append]
      exact Cursor.spans_append.mpr ⟨_, hfirst.spans a hr, hrest.spans b hb⟩

/-- The cursor that is kept stands inside the input, where it may be put back later. -/
theorem here_bind {k : Cursor → Decoder β}
    (hk : ∀ start : Cursor, start.Within data → low ≤ start.position → (k start).Secure data low) :
    (here >>= k).Secure data low := by
  intro c hc hlow
  have hrest := hk c hc hlow c hc hlow
  refine ⟨hrest.cursor, hrest.low_le, ?_, hrest.spans⟩
  intro access h
  rcases List.mem_cons.mp h with rfl | h
  · exact hc.position_le
  · exact hrest.inRange access h

end Secure

/-- A slice is taken only where that many bytes remain. Otherwise nothing is added to the position. -/
theorem secure_exactly (n : Nat) (field : String) : (exactly n field).Secure data low := by
  intro c hc hlow
  by_cases hn : n ≤ c.rest.length
  · have hlength : (c.rest.take n).length = n := List.length_take_of_le hn
    have hend := (hc.advance hn).position_le
    have hspans : c.Spans (c.rest.take n) (c.advance n) := by
      rw [Cursor.spans_iff_advance, hlength]
      exact ⟨rfl, rfl⟩
    rw [exactly_of_le hn]
    refine ⟨hc.advance hn, Nat.le_trans hlow (Nat.le_add_right _ _), ?_, ?_⟩
    · intro access h
      rcases List.mem_pair.mp h with rfl | rfl
      · exact hc.position_le
      · constructor
        · rw [hlength]
          exact hend
        · rw [hlength, hc.rest]
    · intro a _
      rw [List.flatMap_cons, List.flatMap_cons, List.flatMap_nil, List.append_nil]
      exact hspans
  · rw [exactly_of_lt (Nat.lt_of_not_le hn)]
    refine ⟨hc, hlow, ?_, ?_⟩
    · intro access h
      obtain rfl := List.mem_singleton.mp h
      exact hc.position_le
    · intro a ha
      cases ha

theorem inherited_secure : Inherited fun d => d.Secure data low := ⟨.pure, .bind, secure_exactly⟩

theorem secure_varInt (field : String) : (varInt field).Secure data low := by
  apply Secure.here_bind
  intro start hstart hlow
  apply (inherited_secure.uint8 field).bind
  intro marker
  cases hf : VarInt.form? marker with
  | none => exact .pure _
  | some form =>
    apply (inherited_secure.number form.width field).bind
    intro n
    by_cases hl : UInt64.ofNat n < form.least
    · simp only [hl, if_true]
      exact .failAt hstart hlow _
    · simp only [hl, if_false]
      exact .pure _

/-- The product that is compared with what remains stops short of an overflow, and no byte is taken. -/
theorem secure_count (field : String) (least : Nat) : (count field least).Secure data low := by
  apply Secure.here_bind
  intro start hstart hlow
  apply (secure_varInt field).bind
  intro v
  apply Secure.here_bind
  intro after _ _
  split_ifs
  · exact .pure _
  · exact .failAt hstart hlow _

theorem wireInherited_secure : WireInherited fun d => d.Secure data low where
  toInherited := inherited_secure
  count := secure_count
  superfluous := .fail _

end Decoder

open Decoder

namespace Transaction

/-- The marker is looked at before it is taken, and only if there is a byte to look at. -/
theorem secure_decodeLayout : decodeLayout.Secure data low := by
  apply Secure.here_bind
  intro start _ _
  split_ifs
  · apply (inherited_secure.uint8 _).bind
    intro marker
    apply (inherited_secure.uint8 _).bind
    intro flag
    split_ifs
    · exact .pure _
    · exact .fail _
  · exact .pure _

theorem secure_decode : decode.Secure data low :=
  wireInherited_secure.transaction fun version =>
    secure_decodeLayout.bind (wireInherited_secure.body version)

end Transaction

end MergedMining
