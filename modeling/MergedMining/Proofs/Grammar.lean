import Mathlib
import MergedMining.Decoder.VarInt

/-! Grammars relate values to the byte strings that spell them. They are put together the way decoders
are, with one combinator for each way to combine two decoders. -/
namespace MergedMining

/-- The bytes between two cursors on one input. -/
def Cursor.Spans (c : Cursor) (bs : List UInt8) (c' : Cursor) : Prop :=
  c.rest = bs ++ c'.rest ∧ c'.position = c.position + bs.length

namespace Cursor

variable {c c' : Cursor} {s t bs : List UInt8}

theorem spans_nil : c.Spans [] c' ↔ c' = c := by
  simp only [Spans, List.nil_append, List.length_nil, Nat.add_zero, Cursor.ext_iff]
  exact ⟨fun ⟨hr, hp⟩ => ⟨hp, hr.symm⟩, fun ⟨hp, hr⟩ => ⟨hr.symm, hp⟩⟩

theorem spans_append : c.Spans (s ++ t) c' ↔ ∃ m, c.Spans s m ∧ m.Spans t c' := by
  constructor
  · intro h
    rcases h with ⟨hr, hp⟩
    refine ⟨⟨c.position + s.length, t ++ c'.rest⟩, ⟨?_, rfl⟩, rfl, ?_⟩
    · rw [hr, List.append_assoc]
    · rw [hp, List.length_append, Nat.add_assoc]
  · intro h
    rcases h with ⟨m, ⟨hr, hp⟩, hr', hp'⟩
    refine ⟨?_, ?_⟩
    · rw [hr, hr', List.append_assoc]
    · rw [hp', hp, List.length_append, Nat.add_assoc]

/-- What lies between is what the first cursor sees and the second does not. -/
theorem spans_iff_advance : c.Spans bs c' ↔ c.rest.take bs.length = bs ∧ c' = c.advance bs.length := by
  constructor
  · intro h
    rcases h with ⟨hr, hp⟩
    refine ⟨by simp [hr], Cursor.ext hp ?_⟩
    simp [advance, hr]
  · intro h
    rcases h with ⟨ht, rfl⟩
    refine ⟨?_, rfl⟩
    calc c.rest = c.rest.take bs.length ++ c.rest.drop bs.length :=
          (List.take_append_drop _ _).symm
      _ = bs ++ (c.advance bs.length).rest := by rw [ht]; rfl

theorem Spans.remaining (h : c.Spans bs c') : c.remaining = bs.length + c'.remaining := by
  simp [Cursor.remaining, h.1]

theorem spans_ofOffset {data : List UInt8} {pos n : Nat} (h : pos + n ≤ data.length) :
    (ofOffset data pos).Spans bs (ofOffset data (pos + n)) ↔ (data.drop pos).take n = bs := by
  have hlen : ((data.drop pos).take n).length = n := by
    rw [List.length_take, List.length_drop]
    omega
  constructor
  · intro h
    rcases h with ⟨hr, hp⟩
    have hn : bs.length = n := by simpa [ofOffset] using hp.symm
    have hr' : data.drop pos = bs ++ data.drop (pos + n) := hr
    rw [hr', ← hn, List.take_left]
  · rintro rfl
    refine ⟨?_, by simp only [ofOffset, hlen]⟩
    simp only [ofOffset, ← List.drop_drop, List.take_append_drop]

/-- Reading on in an input ends in the same input. -/
theorem Spans.eq_ofOffset {data : List UInt8} {pos : Nat} (hpos : pos ≤ data.length)
    (h : (ofOffset data pos).Spans bs c') :
    pos + bs.length ≤ data.length ∧ c' = ofOffset data (pos + bs.length) := by
  rcases h with ⟨hr, hp⟩
  have hdata : data.drop pos = bs ++ c'.rest := hr
  constructor
  · have hlen := congrArg List.length hdata
    rw [List.length_drop, List.length_append] at hlen
    omega
  · apply Cursor.ext hp
    simp [ofOffset, ← List.drop_drop, hdata]

end Cursor

/-- Which byte strings spell which values. -/
abbrev Grammar (α : Type) := α → List UInt8 → Prop

namespace Grammar

variable {α β : Type}

/-- The valid values, each as `encode` writes it. -/
def written (encode : α → List UInt8) (valid : α → Prop) : Grammar α :=
  fun a bs => valid a ∧ bs = encode a

/-- Only `a`, spelt by no bytes. -/
def only (a : α) : Grammar α := fun b bs => b = a ∧ bs = []

/-- One spelling behind the other, where the second may depend on the first value. -/
def seq (E : Grammar α) (F : α → Grammar β) : Grammar β :=
  fun b bs => ∃ a s t, bs = s ++ t ∧ E a s ∧ F a b t

def list (E : Grammar α) : Grammar (List α)
  | [], bs => bs = []
  | a :: as, bs => ∃ s t, bs = s ++ t ∧ E a s ∧ list E as t

/-- A list behind its length. -/
def counted (E : Grammar α) : Grammar (List α) := fun as bs =>
  as.length < UInt64.size ∧ ∃ s, bs = VarInt.encodeLength as ++ s ∧ list E as s

/-- Spellings at the front of the same bytes, one by either grammar, are one spelling of one value. -/
def Consistent (E F : Grammar α) : Prop :=
  ∀ ⦃a b : α⦄ ⦃s t u v : List UInt8⦄, E a s → F b t → s ++ u = t ++ v → a = b ∧ s = t ∧ u = v

variable {E : Grammar α} {F : α → Grammar β} {encode : α → List UInt8} {valid : α → Prop}

@[simp] theorem only_seq {a : α} {b : β} {bs : List UInt8} :
    (only a).seq F b bs ↔ F a b bs := by
  constructor
  · intro h
    rcases h with ⟨a', s, t, rfl, ⟨rfl, rfl⟩, h⟩
    exact h
  · intro h
    exact ⟨a, [], bs, rfl, ⟨rfl, rfl⟩, h⟩

@[simp] theorem seq_only {a : α} {bs : List UInt8} : E.seq only a bs ↔ E a bs := by
  constructor
  · intro h
    rcases h with ⟨_, s, _, rfl, h, rfl, rfl⟩
    rwa [List.append_nil]
  · intro h
    exact ⟨a, bs, [], (List.append_nil bs).symm, h, rfl, rfl⟩

theorem written_seq {b : β} {bs : List UInt8} :
    (written encode valid).seq F b bs ↔ ∃ a, valid a ∧ ∃ t, bs = encode a ++ t ∧ F a b t := by
  constructor
  · intro h
    rcases h with ⟨a, s, t, rfl, ⟨ha, rfl⟩, h⟩
    exact ⟨a, ha, t, rfl, h⟩
  · intro h
    rcases h with ⟨a, ha, t, rfl, h⟩
    exact ⟨a, encode a, t, rfl, ⟨ha, rfl⟩, h⟩

/-- A list of written values is written one value after the other. -/
theorem list_written {as : List α} {bs : List UInt8} :
    list (written encode valid) as bs ↔ (∀ a ∈ as, valid a) ∧ bs = as.flatMap encode := by
  induction as generalizing bs with
  | nil => simp [list]
  | cons a as ih =>
    simp only [list, List.forall_mem_cons, List.flatMap_cons]
    constructor
    · intro h
      rcases h with ⟨s, t, rfl, ⟨ha, rfl⟩, ht⟩
      obtain ⟨has, rfl⟩ := ih.mp ht
      exact ⟨⟨ha, has⟩, rfl⟩
    · intro h
      rcases h with ⟨⟨ha, has⟩, rfl⟩
      exact ⟨encode a, as.flatMap encode, rfl, ⟨ha, rfl⟩, ih.mpr ⟨has, rfl⟩⟩

/-- A counted list of written values is itself written. -/
theorem counted_written : counted (written encode valid) =
    written (fun as => VarInt.encodeLength as ++ as.flatMap encode)
      (fun as => as.length < UInt64.size ∧ ∀ a ∈ as, valid a) := by
  funext as bs
  simp only [counted, list_written, written, eq_iff_iff]
  constructor
  · intro h
    rcases h with ⟨hn, s, rfl, ha, rfl⟩
    exact ⟨⟨hn, ha⟩, rfl⟩
  · intro h
    rcases h with ⟨⟨hn, ha⟩, rfl⟩
    exact ⟨hn, as.flatMap encode, rfl, ha, rfl⟩

/-- If no element takes fewer than `m` bytes, a list of `n` takes at least `n * m`. -/
theorem length_list_le {m : Nat} (hE : ∀ a bs, E a bs → m ≤ bs.length) {as : List α}
    {bs : List UInt8} (h : list E as bs) : as.length * m ≤ bs.length := by
  induction as generalizing bs with
  | nil => simp
  | cons a as ih =>
    obtain ⟨s, t, rfl, ha, has⟩ := h
    have hs := hE a s ha
    have ht := ih has
    rw [List.length_cons, Nat.succ_mul, List.length_append]
    omega

/-- Lists of equal length inherit consistency from their elements. -/
theorem Consistent.list {D : Grammar α} (h : Consistent D E) {as bs : List α}
    {s t u v : List UInt8} (hn : as.length = bs.length) (hs : Grammar.list D as s)
    (ht : Grammar.list E bs t) (heq : s ++ u = t ++ v) : as = bs ∧ s = t ∧ u = v := by
  induction as generalizing bs s t with
  | nil =>
    obtain rfl := List.length_eq_zero_iff.mp hn.symm
    obtain rfl : s = [] := hs
    obtain rfl : t = [] := ht
    exact ⟨rfl, rfl, heq⟩
  | cons a as ih =>
    cases bs with
    | nil => cases hn
    | cons b bs =>
      obtain ⟨s₁, s₂, rfl, ha, has⟩ := hs
      obtain ⟨t₁, t₂, rfl, hb, hbs⟩ := ht
      rw [List.append_assoc, List.append_assoc] at heq
      obtain ⟨rfl, rfl, hrest⟩ := h ha hb heq
      obtain ⟨rfl, rfl, huv⟩ := ih (Nat.succ.inj hn) has hbs hrest
      exact ⟨rfl, rfl, huv⟩

/-- Written elements that take at least one byte each are no more than their bytes. -/
theorem length_le_length_flatMap (h : ∀ a, 1 ≤ (encode a).length) (as : List α) :
    as.length ≤ (as.flatMap encode).length := by
  have hE : ∀ a bs, written encode (fun _ => True) a bs → 1 ≤ bs.length := by
    intro a bs h
    rcases h with ⟨-, rfl⟩
    exact h a
  have hl := length_list_le hE (list_written.mpr ⟨fun a (_ : a ∈ as) => trivial, rfl⟩)
  rwa [Nat.mul_one] at hl

theorem length_le_length_flatMap_of_mem {a : α} {as : List α} (h : a ∈ as) :
    (encode a).length ≤ (as.flatMap encode).length := by
  rw [List.flatMap_def]
  exact (List.sublist_flatten_of_mem (List.mem_map_of_mem h)).length_le

end Grammar

end MergedMining
