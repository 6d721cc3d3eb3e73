import MergedMining.Proofs.Grammar

/-! Decoders that accept exactly the spellings of a grammar: they return a value and move from one
cursor to another if and only if the bytes between the two spell that value. -/
namespace MergedMining

namespace LittleEndian

theorem decode_encode (width n : Nat) : decode (encode width n) = n % 256 ^ width := by
  induction width generalizing n with
  | zero => simp [encode, decode, Nat.mod_one]
  | succ width ih =>
    rw [encode, decode, ih, Nat.pow_succ', Nat.mod_mul]
    simp

theorem decode_lt (bs : List UInt8) : decode bs < 256 ^ bs.length := by
  induction bs with
  | nil => simp [decode]
  | cons b bs ih =>
    have hb : b.toNat < 256 := b.toNat_lt
    simp only [decode, List.length_cons, Nat.pow_succ']
    omega

/-- Bytes of one width are in bijection with the numbers that width can hold. -/
theorem encode_decode (bs : List UInt8) : encode bs.length (decode bs) = bs := by
  induction bs with
  | nil => rfl
  | cons b bs ih =>
    have hb : b.toNat < 256 := b.toNat_lt
    have hdiv : (b.toNat + 256 * decode bs) / 256 = decode bs := by omega
    have hmod : UInt8.ofNat (b.toNat + 256 * decode bs) = b := by
      apply UInt8.toNat_inj.mp
      rw [UInt8.toNat_ofNat']
      omega
    rw [List.length_cons, decode, encode, hdiv, hmod, ih]

end LittleEndian

namespace Decoder

variable {α β γ : Type}

/-- Started at `c`, the decoder gives `a` and stops at `c'`. -/
def Returns (d : Decoder α) (c : Cursor) (a : α) (c' : Cursor) : Prop :=
  (d c).result = .ok a ∧ (d c).cursor = c'

def Recognises (d : Decoder α) (E : Grammar α) : Prop :=
  ∀ c a c', d.Returns c a c' ↔ ∃ bs, c.Spans bs c' ∧ E a bs

/-- Started at the front of `data`, the decoder gives `a` and uses `data` up. -/
def Accepts (d : Decoder α) (data : List UInt8) (a : α) : Prop :=
  ∃ c, d.Returns (.ofBytes data) a c ∧ c.rest = []

theorem bind_of_ok {d : Decoder α} {f : α → Decoder β} {c : Cursor} {a : α}
    (h : (d c).result = .ok a) :
    (d >>= f) c = ⟨(f a (d c).cursor).result, (f a (d c).cursor).cursor,
      (d c).events ++ (f a (d c).cursor).events, (d c).accesses ++ (f a (d c).cursor).accesses⟩ := by
  change Decoder.bind d f c = _
  unfold Decoder.bind
  split
  · next hd => simp [hd] at h
  · next hd =>
    simp only [hd] at h ⊢
    cases h
    rfl

theorem bind_of_error {d : Decoder α} {f : α → Decoder β} {c : Cursor} {e : DecodeError}
    (h : (d c).result = .error e) :
    (d >>= f) c = ⟨.error e, (d c).cursor, (d c).events, (d c).accesses⟩ := by
  change Decoder.bind d f c = _
  unfold Decoder.bind
  split
  · next hd =>
    simp only [hd] at h ⊢
    cases h
    rfl
  · next hd => simp [hd] at h

section Returns

variable {c c' : Cursor} {a : α} {b : β}

theorem returns_bind {d : Decoder α} {f : α → Decoder β} :
    (d >>= f).Returns c b c' ↔ ∃ a m, d.Returns c a m ∧ (f a).Returns m b c' := by
  constructor
  · intro h
    cases hd : (d c).result with
    | error e => simp [Returns, bind_of_error hd] at h
    | ok a =>
      rw [Returns, bind_of_ok hd] at h
      exact ⟨a, _, ⟨hd, rfl⟩, h⟩
  · intro h
    rcases h with ⟨a, m, ⟨hd, rfl⟩, h⟩
    rwa [Returns, bind_of_ok hd]

@[simp] theorem returns_pure {x : α} : (pure x : Decoder α).Returns c a c' ↔ a = x ∧ c' = c := by
  change (Except.ok x = .ok a ∧ c = c') ↔ _
  rw [Except.ok.injEq, eq_comm, @eq_comm _ c]

@[simp] theorem returns_map {d : Decoder α} {f : α → β} :
    (f <$> d).Returns c b c' ↔ ∃ a, d.Returns c a c' ∧ b = f a := by
  change (d >>= pure ∘ f).Returns c b c' ↔ _
  simp only [returns_bind, Function.comp_apply, returns_pure]
  constructor
  · intro h
    rcases h with ⟨a, m, h, rfl, rfl⟩
    exact ⟨a, h, rfl⟩
  · intro h
    rcases h with ⟨a, h, rfl⟩
    exact ⟨a, c', h, rfl, rfl⟩

@[simp] theorem returns_here {x : Cursor} : here.Returns c x c' ↔ x = c ∧ c' = c := by
  change (Except.ok c = .ok x ∧ c = c') ↔ _
  rw [Except.ok.injEq, eq_comm, @eq_comm _ c c']

@[simp] theorem returns_report {event : Event} {u : Unit} :
    (report event).Returns c u c' ↔ c' = c := by
  change (Except.ok () = .ok u ∧ c = c') ↔ _
  simp [eq_comm]

@[simp] theorem not_returns_fail {e : DecodeError} : ¬ (fail e : Decoder α).Returns c a c' := by
  simp [Returns, fail]

@[simp] theorem not_returns_failAt {start : Cursor} {e : DecodeError} :
    ¬ (failAt start e : Decoder α).Returns c a c' := by
  simp [Returns, failAt]

theorem Returns.unique {d : Decoder α} {x y : α} {m m' : Cursor} (h : d.Returns c x m)
    (h' : d.Returns c y m') : x = y ∧ m = m' :=
  ⟨Except.ok.inj (h.1.symm.trans h'.1), h.2.symm.trans h'.2⟩

end Returns

namespace Recognises

variable {d : Decoder α} {E : Grammar α} {f : α → Decoder β} {F : α → Grammar β}

theorem congr {E' : Grammar α} (h : d.Recognises E) (hE : ∀ a bs, E a bs ↔ E' a bs) :
    d.Recognises E' := by
  intro c a c'
  simp only [h c a c', hE]

theorem only (a : α) : (pure a : Decoder α).Recognises (.only a) := by
  intro c b c'
  rw [returns_pure]
  constructor
  · intro h
    rcases h with ⟨rfl, rfl⟩
    exact ⟨[], Cursor.spans_nil.mpr rfl, rfl, rfl⟩
  · intro h
    rcases h with ⟨_, hs, rfl, rfl⟩
    exact ⟨rfl, Cursor.spans_nil.mp hs⟩

/-- A value that is returned only if nothing is wrong. -/
theorem guarded {p : Prop} [Decidable p] {e : Decoder α} (he : ∀ c a c', ¬ e.Returns c a c') (a : α) :
    (if p then e else pure a).Recognises fun b bs => ¬ p ∧ b = a ∧ bs = [] := by
  by_cases hp : p
  · rw [if_pos hp]
    intro c b c'
    constructor
    · intro h
      exact absurd h (he c b c')
    · intro h
      obtain ⟨_, -, hn, -⟩ := h
      exact absurd hp hn
  · rw [if_neg hp]
    apply (only a).congr
    intro b bs
    exact ⟨fun h => ⟨hp, h⟩, fun h => h.2⟩

theorem bind (hd : d.Recognises E) (hf : ∀ a, (f a).Recognises (F a)) :
    (d >>= f).Recognises (E.seq F) := by
  intro c b c'
  rw [returns_bind]
  constructor
  · intro h
    rcases h with ⟨a, m, hm, hc⟩
    obtain ⟨s, hs, ha⟩ := (hd c a m).mp hm
    obtain ⟨t, ht, hb⟩ := (hf a m b c').mp hc
    exact ⟨s ++ t, Cursor.spans_append.mpr ⟨m, hs, ht⟩, a, s, t, rfl, ha, hb⟩
  · intro h
    rcases h with ⟨_, hc, a, s, t, rfl, ha, hb⟩
    obtain ⟨m, hs, ht⟩ := Cursor.spans_append.mp hc
    exact ⟨a, m, (hd c a m).mpr ⟨s, hs, ha⟩, (hf a m b c').mpr ⟨t, ht, hb⟩⟩

theorem map_some (hd : d.Recognises E) :
    (some <$> d).Recognises fun o bs => ∃ a, o = some a ∧ E a bs := by
  intro c o c'
  rw [returns_map]
  constructor
  · intro h
    rcases h with ⟨a, h, rfl⟩
    obtain ⟨bs, hs, ha⟩ := (hd c a c').mp h
    exact ⟨bs, hs, a, rfl, ha⟩
  · intro h
    rcases h with ⟨bs, hs, a, rfl, ha⟩
    exact ⟨a, (hd c a c').mpr ⟨bs, hs, ha⟩, rfl⟩

/-- The grammar is the same wherever the decoder starts. -/
theorem here_bind {k : Cursor → Decoder β} {G : Grammar β} (hk : ∀ c, (k c).Recognises G) :
    (here >>= k).Recognises G := by
  intro c b c'
  rw [returns_bind, ← hk c c b c']
  constructor
  · intro h
    rcases h with ⟨x, m, hx, h⟩
    obtain ⟨rfl, rfl⟩ := returns_here.mp hx
    exact h
  · intro h
    exact ⟨c, c, returns_here.mpr ⟨rfl, rfl⟩, h⟩

theorem report_bind {event : Event} {k : Unit → Decoder β} {G : Grammar β}
    (hk : (k ()).Recognises G) : (report event >>= k).Recognises G := by
  intro c b c'
  rw [returns_bind, ← hk c b c']
  constructor
  · intro h
    rcases h with ⟨⟨⟩, m, hm, h⟩
    rwa [returns_report.mp hm] at h
  · intro h
    exact ⟨(), c, returns_report.mpr rfl, h⟩

theorem times (hd : d.Recognises E) (n : Nat) :
    (Decoder.times n d).Recognises fun as bs => as.length = n ∧ E.list as bs := by
  induction n with
  | zero =>
    refine (only []).congr fun as bs => ?_
    constructor
    · intro h
      rcases h with ⟨rfl, rfl⟩
      exact ⟨rfl, rfl⟩
    · intro h
      rcases h with ⟨hn, h⟩
      obtain rfl := List.length_eq_zero_iff.mp hn
      exact ⟨rfl, h⟩
  | succ n ih =>
    refine (hd.bind fun a => ih.bind fun as => only (a :: as)).congr fun as bs => ?_
    constructor
    · intro h
      rcases h with ⟨a, s, _, rfl, ha, as, t, _, rfl, ⟨rfl, hl⟩, rfl, rfl⟩
      exact ⟨rfl, s, t, by simp, ha, hl⟩
    · intro h
      rcases h with ⟨hn, h⟩
      cases as with
      | nil => simp at hn
      | cons a as =>
        obtain ⟨s, t, rfl, ha, hl⟩ := h
        exact ⟨a, s, t, rfl, ha, as, t, [], by simp, ⟨Nat.succ.inj hn, hl⟩, rfl, rfl⟩

/-- Reading depends on nothing but the bytes that are read. -/
theorem consistent (hd : d.Recognises E) : E.Consistent E := by
  intro a b s t u v hs ht h
  have ha := (hd ⟨0, s ++ u⟩ a ⟨s.length, u⟩).mpr ⟨s, ⟨rfl, by simp⟩, hs⟩
  have hb := (hd ⟨0, s ++ u⟩ b ⟨t.length, v⟩).mpr ⟨t, ⟨h, by simp⟩, ht⟩
  obtain ⟨hab, hc⟩ := ha.unique hb
  obtain ⟨hlen, rfl⟩ := Cursor.mk.inj hc
  exact ⟨hab, (List.append_inj h hlen).1, rfl⟩

theorem accepts (hd : d.Recognises E) {data : List UInt8} {a : α} : d.Accepts data a ↔ E a data := by
  constructor
  · intro h
    rcases h with ⟨c, hc, hrest⟩
    obtain ⟨bs, hs, ha⟩ := (hd _ a c).mp hc
    have hdata : data = bs ++ c.rest := hs.1
    rw [hrest, List.append_nil] at hdata
    exact hdata ▸ ha
  · intro ha
    have hs : (Cursor.ofBytes data).Spans data ⟨data.length, []⟩ := by
      simp [Cursor.Spans, Cursor.ofBytes, Cursor.ofOffset]
    exact ⟨⟨data.length, []⟩, (hd _ a _).mpr ⟨data, hs, ha⟩, rfl⟩

/-- Values whose encodings can be read have an encoding each. -/
theorem encode_injOn {encode : α → List UInt8} {valid : α → Prop}
    (hd : d.Recognises (.written encode valid)) : Set.InjOn encode {a | valid a} := by
  intro a ha b hb h
  have happ : encode a ++ [] = encode b ++ [] := by rw [h]
  exact (hd.consistent ⟨ha, rfl⟩ ⟨hb, rfl⟩ happ).1

/-- No spelling of a value starts with a shorter one. -/
theorem prefix_free (hd : d.Recognises E) {a b : α} {s t : List UInt8} (hs : E a s)
    (ht : E b (s ++ t)) : t = [] :=
  (hd.consistent hs ht (List.append_nil (s ++ t)).symm).2.2

end Recognises

/-- A one-to-one change of the values after reading them. -/
theorem Recognises.convert {d : Decoder α} {encode : α → List UInt8} {valid : α → Prop}
    {valid' : β → Prop} {f : α → β} {g : β → α} (hd : d.Recognises (.written encode valid))
    (hf : ∀ a, valid a → valid' (f a) ∧ g (f a) = a)
    (hg : ∀ b, valid' b → valid (g b) ∧ f (g b) = b) :
    (d >>= fun a => pure (f a)).Recognises (.written (fun b => encode (g b)) valid') := by
  refine (hd.bind fun a => .only (f a)).congr fun b bs => ?_
  rw [Grammar.written_seq]
  constructor
  · intro h
    rcases h with ⟨a, ha, _, rfl, rfl, rfl⟩
    obtain ⟨hv, he⟩ := hf a ha
    refine ⟨hv, ?_⟩
    change encode a ++ [] = encode (g (f a))
    rw [he, List.append_nil]
  · intro h
    rcases h with ⟨hb, rfl⟩
    obtain ⟨hv, he⟩ := hg b hb
    exact ⟨g b, hv, [], (List.append_nil _).symm, he.symm, rfl⟩

section Primitives

/-- Any `n` bytes, which spell themselves. -/
theorem recognises_exactly (n : Nat) (field : String) :
    (exactly n field).Recognises (.written Subtype.val fun _ => True) := by
  rintro c ⟨a, ha⟩ c'
  simp only [Returns, exactly, Grammar.written, true_and]
  constructor
  · intro h
    split at h
    · next hn =>
      obtain ⟨hr, rfl⟩ := h
      obtain rfl := congrArg Subtype.val (Except.ok.inj hr)
      exact ⟨c.rest.take n, by simp [Cursor.spans_iff_advance, ha], rfl⟩
    · simp at h
  · intro h
    rcases h with ⟨bs, hc, rfl⟩
    obtain ⟨ht, rfl⟩ := Cursor.spans_iff_advance.mp hc
    have hn : hasAtLeast n c.rest = true := by
      have hle := congrArg List.length ht
      rw [List.length_take] at hle
      exact hasAtLeast_iff.mpr (by omega)
    subst ha
    simp only [dif_pos hn, ht, and_self]

theorem recognises_bytes (n : Nat) (field : String) :
    (bytes n field).Recognises (.written id fun bs => bs.length = n) := by
  refine ((recognises_exactly n field).bind fun bs => .only bs.val).congr fun a bs => ?_
  rw [Grammar.written_seq]
  constructor
  · intro h
    rcases h with ⟨bs, -, _, rfl, rfl, rfl⟩
    exact ⟨bs.property, List.append_nil bs.val⟩
  · intro h
    rcases h with ⟨ha, rfl⟩
    exact ⟨⟨bs, ha⟩, trivial, [], (List.append_nil bs).symm, rfl, rfl⟩

theorem recognises_number (width : Nat) (field : String) :
    (number width field).Recognises
      (.written (LittleEndian.encode width) fun n => n < 256 ^ width) := by
  refine (recognises_bytes width field).convert ?_ ?_
  · rintro bs rfl
    exact ⟨LittleEndian.decode_lt bs, LittleEndian.encode_decode bs⟩
  · intro n hn
    exact ⟨LittleEndian.length_encode width n,
      (LittleEndian.decode_encode width n).trans (Nat.mod_eq_of_lt hn)⟩

theorem recognises_uint8 (field : String) :
    (uint8 field).Recognises (.written (fun b => [b]) fun _ => True) := by
  have h : (uint8 field).Recognises (.written (fun b => LittleEndian.encode 1 b.toNat)
      fun _ => True) :=
    (recognises_number 1 field).convert (fun _ hn => ⟨trivial, UInt8.toNat_ofNat_of_lt' hn⟩)
      fun b _ => ⟨b.toNat_lt, UInt8.ofNat_toNat⟩
  exact h.congr fun b bs => by simp [Grammar.written, LittleEndian.encode]

theorem recognises_uint16 (field : String) :
    (uint16 field).Recognises (.written (fun n => LittleEndian.encode 2 n.toNat) fun _ => True) :=
  (recognises_number 2 field).convert (fun _ hn => ⟨trivial, UInt16.toNat_ofNat_of_lt' hn⟩)
    fun n _ => ⟨n.toNat_lt, UInt16.ofNat_toNat⟩

theorem recognises_uint32 (field : String) :
    (uint32 field).Recognises (.written LittleEndian.encodeUInt32 fun _ => True) :=
  (recognises_number 4 field).convert (fun _ hn => ⟨trivial, UInt32.toNat_ofNat_of_lt' hn⟩)
    fun n _ => ⟨n.toNat_lt, UInt32.ofNat_toNat⟩

theorem recognises_uint64 (field : String) :
    (uint64 field).Recognises (.written LittleEndian.encodeUInt64 fun _ => True) :=
  (recognises_number 8 field).convert (fun _ hn => ⟨trivial, UInt64.toNat_ofNat_of_lt' hn⟩)
    fun n _ => ⟨n.toNat_lt, UInt64.ofNat_toNat⟩

theorem recognises_int32 (field : String) :
    (int32 field).Recognises (.written LittleEndian.encodeInt32 fun _ => True) :=
  (recognises_uint32 field).convert (fun n _ => ⟨trivial, UInt32.toUInt32_toInt32 n⟩)
    fun n _ => ⟨trivial, Int32.toInt32_toUInt32 n⟩

theorem recognises_hash (field : String) :
    (hash field).Recognises (.written Hash256.bytes fun _ => True) := by
  refine (recognises_exactly 32 field).convert (g := fun h : Hash256 => ⟨h.bytes, h.length_bytes⟩)
    ?_ ?_
  · exact fun _ _ => ⟨trivial, rfl⟩
  · exact fun _ _ => ⟨trivial, rfl⟩

end Primitives

end Decoder

end MergedMining
