import MergedMining.Proofs.HexSpelling
import MergedMining.Proofs.WireErrors

/-! Blocks read from hexadecimal text. Blanks around the digits are no part of the text, and the digits
are read as the bytes that they spell, whatever those are. -/
namespace MergedMining

namespace Text

/-- In `cs` there are blanks before and behind `text`, and none at either end of `text`. -/
structure TrimsTo (cs text : List Char) : Prop where
  around : ∃ lead trail, cs = lead ++ (text ++ trail) ∧ (∀ c ∈ lead, isBlank c = true) ∧
    ∀ c ∈ trail, isBlank c = true
  first : ∀ c ∈ text.head?, ¬ isBlank c = true
  last : ∀ c ∈ text.getLast?, ¬ isBlank c = true

theorem dropWhile_blanks {lead text : List Char} (hlead : ∀ c ∈ lead, isBlank c = true)
    (hfirst : ∀ c ∈ text.head?, ¬ isBlank c = true) : (lead ++ text).dropWhile isBlank = text := by
  rw [List.dropWhile_append_of_pos hlead]
  cases text with
  | nil => rfl
  | cons c text => exact List.dropWhile_cons_of_neg (hfirst c rfl)

theorem TrimsTo.trim_eq {cs text : List Char} (h : TrimsTo cs text) : trim cs = text := by
  obtain ⟨⟨lead, trail, rfl, hlead, htrail⟩, hfirst, hlast⟩ := h
  unfold trim
  by_cases hnil : text = []
  · -- The blanks on both sides meet, and the first pass takes them all.
    have hall : ∀ c ∈ lead ++ trail, isBlank c = true := by
      intro c hc
      exact (List.mem_append.mp hc).elim (hlead c) (htrail c)
    rw [hnil, List.nil_append, List.dropWhile_eq_nil_iff.mpr hall]
    rfl
  · have hfront : (lead ++ (text ++ trail)).dropWhile isBlank = text ++ trail := by
      apply dropWhile_blanks hlead
      rwa [List.head?_append_of_ne_nil _ hnil]
    have hback : (trail.reverse ++ text.reverse).dropWhile isBlank = text.reverse := by
      apply dropWhile_blanks
      · simpa using htrail
      · rwa [List.head?_reverse]
    rw [hfront, List.reverse_append, hback, List.reverse_reverse]

/-- Every text can be trimmed, and trimming finds what is between the blanks. -/
theorem trimsTo_trim (cs : List Char) : TrimsTo cs (trim cs) := by
  have hback : trim cs ++ (cs.dropWhile isBlank).rtakeWhile isBlank = cs.dropWhile isBlank :=
    List.rdropWhile_append_rtakeWhile
  constructor
  · refine ⟨cs.takeWhile isBlank, (cs.dropWhile isBlank).rtakeWhile isBlank, ?_, ?_, ?_⟩
    · rw [hback, List.takeWhile_append_dropWhile]
    · exact fun c => List.mem_takeWhile_imp
    · exact fun c => List.mem_rtakeWhile_imp
  · intro c hc
    have hne : trim cs ≠ [] := List.ne_nil_of_mem (List.mem_of_mem_head? hc)
    have hhead := List.head?_dropWhile_not isBlank cs
    rw [← hback, List.head?_append_of_ne_nil _ hne, Option.mem_def.mp hc] at hhead
    exact Bool.eq_false_iff.mp hhead
  · intro c hc
    obtain ⟨hne, rfl⟩ := List.mem_getLast?_eq_getLast hc
    exact List.rdropWhile_last_not isBlank _ hne

end Text

namespace Hex

theorem IsDigit.not_isBlank {c : Char} (hc : IsDigit c) : ¬ Text.isBlank c = true :=
  of_ascii (P := fun c => IsDigit c → ¬ Text.isBlank c = true) (by decide +kernel) hc.lt hc

/-- Apart from pairs of digits, no text is read as bytes. -/
theorem exists_decode_eq_error_iff {text : List Char} :
    (∃ e, decode (.ofList text) = .error e) ↔ ¬ (Even text.length ∧ ∀ c ∈ text, IsDigit c) := by
  have hlist : (String.ofList text).toList = text := String.toList_ofList
  have hlength : (String.ofList text).length = text.length := String.length_ofList
  constructor
  · rintro ⟨e, he⟩ ⟨heven, hdigits⟩
    obtain ⟨bytes, hbytes, -⟩ := exists_decode (hlist.symm ▸ hdigits) (hlength.symm ▸ heven)
    cases he.symm.trans hbytes
  · intro h
    cases hdecode : decode (.ofList text) with
    | error e => exact ⟨e, rfl⟩
    | ok bytes =>
      obtain ⟨hdigits, hlen⟩ := digits_of_toLower_eq (decode_eq_ok_iff.mp hdecode)
      rw [hlist] at hdigits
      rw [hlength] at hlen
      exact absurd ⟨hlen ▸ even_two_mul _, hdigits⟩ h

end Hex

namespace Block

theorem ofHex_of_trimsTo {s : String} {text : List Char} {data : List UInt8}
    (ht : Text.TrimsTo s.toList text) (hdata : Hex.decode (.ofList text) = .ok data) :
    ofHex s = ofBytes data := by
  rw [ofHex, ht.trim_eq, hdata]

/-- The texts that are refused as such are those that cannot be read as bytes: what a block is refused
for is never passed off as a fault of the text. -/
theorem ofHex_invalidHex_iff {s : String} {text : List Char} (ht : Text.TrimsTo s.toList text) :
    (∃ reason, (ofHex s).result = .error (.format (.invalidHex reason))) ↔
      ∃ e, Hex.decode (.ofList text) = .error e := by
  unfold ofHex
  rw [ht.trim_eq]
  cases hdecode : Hex.decode (.ofList text) with
  | error e => simp
  | ok data =>
    constructor
    · intro h
      obtain ⟨reason, h⟩ := h
      rcases isWire_or_trailingBytes h with hwire | ⟨n, hn⟩
      · exact absurd hwire (DecodeError.not_isWire_invalidHex reason)
      · cases hn
    · intro h
      obtain ⟨_, h⟩ := h
      cases h

/-- A text is read as the bytes whose digits, in either case, it has between blanks: with the same value
or error and the same events. A text without such digits, and no other, is refused as no hexadecimal. -/
theorem ofHex_reads_digits :
    (∀ (data : List UInt8) (digits lead trail : String), digits.toLower = Hex.encode data →
      (∀ c ∈ lead.toList, Text.isBlank c = true) → (∀ c ∈ trail.toList, Text.isBlank c = true) →
      ofHex (lead ++ digits ++ trail) = ofBytes data) ∧
    ∀ s : String, ∃ text, Text.TrimsTo s.toList text ∧
      ((∃ reason, (ofHex s).result = .error (.format (.invalidHex reason))) ↔
        ¬ (Even text.length ∧ ∀ c ∈ text, Hex.IsDigit c)) := by
  constructor
  · intro data digits lead trail hdigits hlead htrail
    obtain ⟨hall, -⟩ := Hex.digits_of_toLower_eq hdigits
    have ht : Text.TrimsTo (lead ++ digits ++ trail).toList digits.toList := by
      constructor
      · exact ⟨_, _, by simp, hlead, htrail⟩
      · intro c hc
        exact (hall c (List.mem_of_mem_head? hc)).not_isBlank
      · intro c hc
        exact (hall c (List.mem_of_mem_getLast? hc)).not_isBlank
    apply ofHex_of_trimsTo ht
    rw [String.ofList_toList]
    exact Hex.decode_eq_ok_iff.mpr hdigits
  · intro s
    have ht := Text.trimsTo_trim s.toList
    exact ⟨_, ht, (ofHex_invalidHex_iff ht).trans Hex.exists_decode_eq_error_iff⟩

/-- A block of eighty bytes `0xca` and no transactions, in mixed case, between blanks of several bytes
each; and a text with a prefix. -/
theorem ofHex_reads_mixed_case :
    let data := List.replicate 80 0xca ++ [0]
    let digits := String.ofList ((List.replicate 80 ['C', 'a']).flatten ++ ['0', '0'])
    let text := "\u2003\u3000" ++ digits ++ "\u0085"
    digits.toLower = Hex.encode data ∧ ofHex text = ofBytes data ∧
      (∃ b, (ofHex text).result = .ok b) ∧
      ∃ reason, (ofHex "0xcafe").result = .error (.format (.invalidHex reason)) := by
  intro data digits text
  obtain ⟨hread, hrefused⟩ := ofHex_reads_digits
  have hdigits : digits.toLower = Hex.encode data := by
    rw [Hex.toLower_eq_encode_iff, String.toList_ofList]
    decide +kernel
  have hlead : ∀ c ∈ "\u2003\u3000".toList, Text.isBlank c = true := List.all_eq_true.mp (by decide)
  have htrail : ∀ c ∈ "\u0085".toList, Text.isBlank c = true := List.all_eq_true.mp (by decide)
  have hsame : ofHex text = ofBytes data := hread data digits _ _ hdigits hlead htrail
  have hok : ∃ b, (ofBytes (List.replicate 80 0xca ++ [0])).result = .ok b :=
    ⟨⟨⟨_, _, _, _, _, _⟩, none, []⟩, rfl⟩
  refine ⟨hdigits, hsame, ?_, ?_⟩
  · rw [hsame]
    exact hok
  · obtain ⟨text, ht, hiff⟩ := hrefused "0xcafe"
    have htext : ['0', 'x', 'c', 'a', 'f', 'e'] = text := ht.trim_eq
    have hx : 'x' ∈ text := htext ▸ by decide
    have hno : ¬ Hex.IsDigit 'x' := by decide
    exact hiff.mpr fun h => hno (h.2 'x' hx)

end Block

end MergedMining
