import MergedMining.Proofs.Composition

/-! Decoders that bytes behind the input do not disturb. What they return stays, and so does what they
refuse, until more bytes have come than were found missing. -/
namespace MergedMining

namespace DecodeError

/-- The error is not one that `k` more bytes could cure. -/
def Stands (k : Nat) : DecodeError → Prop
  | .truncatedInput _ needed remaining => remaining + k < needed
  | .format _ => True
  | .collaborator _ | .refused _ => False

/-- The same error on an input that is `k` bytes longer. -/
def extend (k : Nat) : DecodeError → DecodeError
  | .truncatedInput field needed remaining => .truncatedInput field needed (remaining + k)
  | e => e

@[simp] theorem extend_zero (e : DecodeError) : e.extend 0 = e := by
  cases e <;> rfl

end DecodeError

/-- The same cursor on an input that goes on with `t`. -/
def Cursor.append (c : Cursor) (t : List UInt8) : Cursor := ⟨c.position, c.rest ++ t⟩

@[simp] theorem Cursor.append_nil (c : Cursor) : c.append [] = c := by
  simp [append]

variable {α β : Type}

namespace Run

/-- The same run on an input that goes on with `t`. -/
def append (run : Run α) (t : List UInt8) : Run α :=
  ⟨run.result.mapError (.extend t.length), run.cursor.append t, run.events, run.accesses⟩

@[simp] theorem append_nil (run : Run α) : run.append [] = run := by
  rcases run with ⟨e | a, c, events, accesses⟩ <;> simp [append, Except.mapError]

/-- The run does not fail, or `k` more bytes would not help. -/
def Stands (k : Nat) (run : Run α) : Prop := ∀ e, run.result = .error e → e.Stands k

/-- The second run is the first with `t` behind its input, unless `t` makes up for missing bytes. -/
structure Carries (t : List UInt8) (run run' : Run α) : Prop where
  shortfall : run.Stands 0
  append : run.Stands t.length → run' = run.append t

end Run

namespace Decoder

/-- More input changes nothing but the number of bytes that an error finds remaining. -/
def Steady (d : Decoder α) : Prop := ∀ c t, (d c).Carries t (d (c.append t))

variable {c : Cursor} {t : List UInt8}

/-- The continuations may differ, since each may hold a cursor of its own input. -/
theorem carries_bind {d d' : Decoder α} {f f' : α → Decoder β}
    (hd : (d c).Carries t (d' (c.append t)))
    (hf : ∀ a m, d.Returns c a m → (f a m).Carries t (f' a (m.append t))) :
    ((d >>= f) c).Carries t ((d' >>= f') (c.append t)) := by
  cases hr : (d c).result with
  | error e =>
    rw [bind_of_error hr]
    constructor
    · intro e' he'
      obtain rfl := Except.error.inj he'
      exact hd.shortfall e hr
    · intro hs
      have hstands : (d c).Stands t.length := by
        intro e' he'
        obtain rfl := Except.error.inj (hr.symm.trans he')
        exact hs e rfl
      have hd' := hd.append hstands
      have hr' : (d' (c.append t)).result = .error (e.extend t.length) := by
        rw [hd', Run.append, hr]
        rfl
      rw [bind_of_error hr', hd']
      rfl
  | ok a =>
    have hfa := hf a (d c).cursor ⟨hr, rfl⟩
    rw [bind_of_ok hr]
    constructor
    · exact hfa.shortfall
    · intro hs
      have hd' := hd.append fun e' he' => by simp [hr] at he'
      have hr' : (d' (c.append t)).result = .ok a := by
        rw [hd', Run.append, hr]
        rfl
      have hf' : f' a ((d c).cursor.append t) = (f a (d c).cursor).append t := hfa.append hs
      rw [bind_of_ok hr', hd']
      simp only [Run.append, hf']

theorem carries_here_bind {k k' : Cursor → Decoder β}
    (hk : (k c c).Carries t (k' (c.append t) (c.append t))) :
    ((here >>= k) c).Carries t ((here >>= k') (c.append t)) where
  shortfall := hk.shortfall
  append h := by
    have hrun : k' (c.append t) (c.append t) = (k c c).append t := hk.append h
    change Run.mk _ _ _ _ = _
    rw [hrun]
    rfl

theorem carries_pure (a : α) :
    ((pure a : Decoder α) c).Carries t ((pure a : Decoder α) (c.append t)) where
  shortfall := by
    intro e he
    cases he
  append _ := rfl

theorem carries_failAt {start : Cursor} {e e' : DecodeError} (hs : e.Stands 0)
    (he : e.Stands t.length → e' = e.extend t.length) :
    ((failAt start e : Decoder α) c).Carries t
      ((failAt (start.append t) e' : Decoder α) (c.append t)) where
  shortfall := by
    intro e₁ h₁
    obtain rfl := Except.error.inj h₁
    exact hs
  append h := by
    have he' := he (h e rfl)
    rw [he']
    rfl

namespace Steady

variable {d : Decoder α} {f : α → Decoder β}

theorem pure (a : α) : (pure a : Decoder α).Steady := by
  intro c t
  exact carries_pure a

theorem bind (hd : d.Steady) (hf : ∀ a, (f a).Steady) : (d >>= f).Steady := by
  intro c t
  exact carries_bind (hd c t) fun a m _ => hf a m t

theorem report (event : Event) : (report event).Steady := by
  intro c t
  constructor
  · intro e he
    cases he
  · intro _
    rfl

theorem fail (error : FormatError) : (fail (.format error) : Decoder α).Steady := by
  intro c t
  constructor
  · intro e he
    obtain rfl := Except.error.inj he
    trivial
  · intro _
    rfl

end Steady

theorem exactly_of_le {n : Nat} {field : String} (hn : n ≤ c.rest.length) :
    exactly n field c = ⟨.ok ⟨c.rest.take n, List.length_take_of_le hn⟩, c.advance n, [],
      [.look c.position, .take c.position (c.rest.take n)]⟩ := by
  have h : hasAtLeast n c.rest = true := hasAtLeast_iff.mpr hn
  simp only [exactly, dif_pos h]

theorem exactly_of_lt {n : Nat} {field : String} (hn : c.rest.length < n) :
    exactly n field c =
      ⟨.error (.truncatedInput field n c.remaining), c, [], [.look c.position]⟩ := by
  have h : ¬ hasAtLeast n c.rest = true := mt hasAtLeast_iff.mp (Nat.not_le_of_lt hn)
  simp only [exactly, dif_neg h]

theorem steady_exactly (n : Nat) (field : String) : (exactly n field).Steady := by
  intro c t
  have hlen : (c.append t).rest.length = c.rest.length + t.length := List.length_append
  by_cases hn : n ≤ c.rest.length
  · have hn' : n ≤ (c.append t).rest.length := by omega
    rw [exactly_of_le hn, exactly_of_le hn']
    constructor
    · intro e he
      cases he
    · intro _
      simp [Run.append, Except.mapError, Cursor.append, Cursor.advance,
        List.take_append_of_le_length hn, List.drop_append_of_le_length hn]
  · have hlt : c.rest.length < n := Nat.lt_of_not_le hn
    rw [exactly_of_lt hlt]
    constructor
    · intro e he
      obtain rfl := Except.error.inj he
      exact hlt
    · intro hs
      have hlt' : c.rest.length + t.length < n := hs _ rfl
      rw [exactly_of_lt (hlen ▸ hlt'), Cursor.remaining, hlen]
      rfl

theorem inherited_steady : Inherited Steady := ⟨.pure, .bind, steady_exactly⟩

theorem steady_varInt (field : String) : (varInt field).Steady := by
  intro c t
  apply carries_here_bind
  apply carries_bind (inherited_steady.uint8 field c t)
  intro marker m _
  cases hf : VarInt.form? marker with
  | none => exact carries_pure _
  | some form =>
    apply carries_bind (inherited_steady.number form.width field m t)
    intro n m' _
    by_cases hl : UInt64.ofNat n < form.least
    · simp only [hl, if_true]
      exact carries_failAt trivial fun _ => rfl
    · simp only [hl, if_false]
      exact carries_pure _

/-- A count may look at all that follows, but only to refuse it for a shortfall. -/
theorem steady_count (field : String) (least : Nat) : (count field least).Steady := by
  intro c t
  apply carries_here_bind
  apply carries_bind (steady_varInt field c t)
  intro v m _
  apply carries_here_bind
  generalize saturatingMul v.toNat (max least 1) = needed
  have hlen : (m.append t).rest.length = m.rest.length + t.length := List.length_append
  by_cases hn : needed ≤ m.rest.length
  · have h : hasAtLeast needed m.rest = true := hasAtLeast_iff.mpr hn
    have h' : hasAtLeast needed (m.append t).rest = true := hasAtLeast_iff.mpr (by omega)
    rw [if_pos h, if_pos h']
    exact carries_pure _
  · have h : ¬ hasAtLeast needed m.rest = true := mt hasAtLeast_iff.mp hn
    rw [if_neg h]
    constructor
    · intro e he
      obtain rfl := Except.error.inj he
      exact Nat.lt_of_not_le hn
    · intro hs
      have hlt : m.rest.length + t.length < needed := hs _ rfl
      have h' : ¬ hasAtLeast needed (m.append t).rest = true := by
        rw [hasAtLeast_iff]
        omega
      rw [if_neg h', Cursor.remaining, hlen]
      rfl

theorem wireInherited_steady : WireInherited Steady where
  toInherited := inherited_steady
  count := steady_count
  superfluous := .fail _

end Decoder

end MergedMining
