import MergedMining.Network.Basic
import MergedMining.Proofs.HexSpelling

/-! Networks by name. A name is compared in its lower-case form, for which there are rules far beyond
ASCII; but no character beyond ASCII has a lower-case form that stands in a name, so that the names are
those of the table in any case of their letters. -/
namespace MergedMining

namespace Text

variable {c : Char} {before cs : List Char} {s name : String}

/-- ASCII without `k`, the one letter of ASCII that is also the lower-case form of another character. -/
def IsPlain (c : Char) : Prop := c.toNat < 128 ∧ c ≠ 'k'

instance : DecidablePred IsPlain := fun _ => inferInstanceAs (Decidable (_ ∧ _))

theorem lowercaseChar_of_lt (hc : c.toNat < 128) : lowercaseChar c = [c.toLower] :=
  Hex.of_ascii (P := fun c => lowercaseChar c = [c.toLower]) (by decide +kernel) hc

/-- What the table says of a run that reaches beyond ASCII: it ends beyond ASCII and outside the
surrogates, or it is that of the Kelvin sign. -/
def CaseRun.StaysBeyond (run : CaseRun) : Prop :=
  128 ≤ run.first + run.shift ∧
      (run.last + run.shift < 0xd800 ∨ 0xdfff < run.first + run.shift ∧ run.last + run.shift < 0x110000) ∨
    run.first = run.last ∧ run.first + run.shift = 'k'.toNat

instance : DecidablePred CaseRun.StaysBeyond := fun _ => inferInstanceAs (Decidable (_ ∨ _))

theorem staysBeyond_of_mem : ∀ run ∈ lowercaseRuns, 128 ≤ run.last → run.StaysBeyond := by
  decide +kernel

theorem CaseRun.StaysBeyond.not_isPlain {run : CaseRun} (h : run.StaysBeyond) {n : Nat}
    (hn : run.covers n = true) : ¬ IsPlain (.ofNat (n + run.shift).toNat) := by
  obtain ⟨⟨hfirst, hlast⟩, -⟩ : (run.first ≤ n ∧ n ≤ run.last) ∧ _ := by
    simpa [CaseRun.covers] using hn
  rintro ⟨hlt, hk⟩
  rcases h with ⟨hlow, hvalid⟩ | ⟨hone, hkelvin⟩
  · have hscalar : (n + run.shift).toNat.isValidChar := by
      rcases hvalid with hvalid | hvalid
      · exact .inl (by omega)
      · exact .inr (by omega)
    rw [Char.toNat_ofNat, if_pos hscalar] at hlt
    omega
  · have hn' : (n + run.shift).toNat = 'k'.toNat := by omega
    rw [hn'] at hk
    exact hk rfl

/-- No other character is lower-cased to plain ones alone: one has two characters, the second of which
is beyond ASCII, and one has `k`. -/
theorem lt_of_lowercaseChar (h : ∀ x ∈ lowercaseChar c, IsPlain x) : c.toNat < 128 := by
  by_contra hc
  unfold lowercaseChar at h
  split at h
  · exact absurd (h '\u0307' (by decide)) (by decide)
  · split at h
    · next run hfind =>
      have hcovers : run.covers c.toNat = true := (List.find?_eq_some_iff_append.mp hfind).1
      obtain ⟨⟨-, hlast⟩, -⟩ : (run.first ≤ c.toNat ∧ c.toNat ≤ run.last) ∧ _ := by
        simpa [CaseRun.covers] using hcovers
      have hstays := staysBeyond_of_mem run (List.mem_of_find?_eq_some hfind) (by omega)
      exact hstays.not_isPlain hcovers (h _ List.mem_cons_self)
    · exact hc (h c List.mem_cons_self).1

/-- Within ASCII there is no sigma, and what stands around a character makes no difference. -/
theorem lowercaseAfter_of_ascii (hcs : ∀ c ∈ cs, c.toNat < 128) :
    lowercaseAfter before cs = cs.map Char.toLower := by
  induction cs generalizing before with
  | nil => rfl
  | cons c cs ih =>
    have hc : c.toNat < 128 := hcs c List.mem_cons_self
    have hsigma : c ≠ 'Σ' := by
      rintro rfl
      exact absurd hc (by decide)
    have hrest : lowercaseAfter (c :: before) cs = cs.map Char.toLower :=
      ih fun x hx => hcs x (List.mem_cons_of_mem c hx)
    rw [lowercaseAfter, if_neg hsigma, lowercaseChar_of_lt hc, hrest]
    rfl

theorem ascii_of_lowercaseAfter (h : ∀ x ∈ lowercaseAfter before cs, IsPlain x) :
    ∀ c ∈ cs, c.toNat < 128 := by
  induction cs generalizing before with
  | nil => exact fun c hc => absurd hc List.not_mem_nil
  | cons c cs ih =>
    rw [lowercaseAfter, List.forall_mem_append] at h
    obtain ⟨hlower, hrest⟩ := h
    have hc : c.toNat < 128 := by
      -- Either form of a sigma is beyond ASCII.
      split_ifs at hlower with hsigma hfinal
      · exact absurd (hlower 'ς' List.mem_cons_self) (by decide)
      · exact absurd (hlower 'σ' List.mem_cons_self) (by decide)
      · exact lt_of_lowercaseChar hlower
    exact List.forall_mem_cons.mpr ⟨hc, ih hrest⟩

/-- A plain text is the lower-case form of the texts that differ from it in the case of ASCII letters,
and of no others. -/
theorem lowercase_eq_iff (hname : ∀ x ∈ name.toList, IsPlain x) :
    lowercase s = name ↔ s.toLower = name := by
  have hlower : s.toLower.toList = s.toList.map Char.toLower := String.toList_map
  rw [← String.toList_inj, ← String.toList_inj, lowercase, String.toList_ofList, hlower]
  constructor
  · intro h
    have hascii := ascii_of_lowercaseAfter (h ▸ hname)
    rw [← h, lowercaseAfter_of_ascii hascii]
  · intro h
    have hascii : ∀ c ∈ s.toList, c.toNat < 128 := by
      intro c hc
      exact Hex.lt_of_toLower (hname _ (h ▸ List.mem_map_of_mem hc)).1
    rw [← h, lowercaseAfter_of_ascii hascii]

end Text

namespace Network

/-- The names of a network, in lower case. -/
def names : Network → List String
  | mainnet => ["mainnet", "main", "dogecoin"]
  | testnet => ["testnet", "testnet3", "test"]

theorem isPlain_of_mem_names (n : Network) : ∀ name ∈ n.names, ∀ x ∈ name.toList, Text.IsPlain x := by
  cases n with
  | mainnet => simp [names, Text.IsPlain]
  | testnet => simp [names, Text.IsPlain]

theorem lowercase_mem_names_iff (n : Network) (s : String) :
    Text.lowercase s ∈ n.names ↔ s.toLower ∈ n.names := by
  constructor
  · intro h
    rwa [(Text.lowercase_eq_iff (n.isPlain_of_mem_names _ h)).mp rfl]
  · intro h
    rwa [(Text.lowercase_eq_iff (n.isPlain_of_mem_names _ h)).mpr rfl]

theorem not_mem_names_mainnet : ∀ name ∈ testnet.names, name ∉ mainnet.names := by
  decide

theorem ofName?_eq_some_iff {s : String} {n : Network} :
    ofName? s = some n ↔ s.toLower ∈ n.names := by
  have hname : ofName? s = if mainnet.names.contains (Text.lowercase s) then some mainnet
      else if testnet.names.contains (Text.lowercase s) then some testnet else none := rfl
  rw [← lowercase_mem_names_iff, hname]
  simp only [List.contains_iff_mem]
  split_ifs with hmain htest
  · have htest : Text.lowercase s ∉ testnet.names := fun h => not_mem_names_mainnet _ h hmain
    cases n <;> simp [hmain, htest]
  · cases n <;> simp [hmain, htest]
  · cases n <;> simp [hmain, htest]

/-- A text names a network if and only if it is one of its names in any case of the ASCII letters, and
otherwise it names none. No text with a character beyond ASCII is a name, whatever its lower-case form. -/
theorem ofName?_exact (s : String) :
    (∀ n, ofName? s = some n ↔ s.toLower ∈ n.names) ∧
    (ofName? s = none ↔ ∀ n : Network, s.toLower ∉ n.names) ∧
    ((∃ c ∈ s.toList, 128 ≤ c.toNat) → ofName? s = none) := by
  have hnone : ofName? s = none ↔ ∀ n : Network, s.toLower ∉ n.names := by
    rw [Option.eq_none_iff_forall_ne_some]
    exact forall_congr' fun n => not_congr ofName?_eq_some_iff
  refine ⟨fun n => ofName?_eq_some_iff, hnone, ?_⟩
  rintro ⟨c, hc, hbeyond⟩
  apply hnone.mpr
  intro n hn
  have hmem : c.toLower ∈ s.toLower.toList := by
    rw [String.toLower, String.toList_map]
    exact List.mem_map_of_mem hc
  obtain ⟨hlt, -⟩ := n.isPlain_of_mem_names _ hn _ hmem
  exact absurd (Hex.lt_of_toLower hlt) (Nat.not_lt_of_le hbeyond)

/-- A name in mixed case, and texts whose lower-case forms come close to names: with a dotted capital I,
with a long s, and with the sign of the kelvin. -/
theorem ofName?_mixed_case :
    ofName? "DogeCoin" = some mainnet ∧ ofName? "TESTnet3" = some testnet ∧
      (∃ c ∈ "ma\u0130n".toList, 128 ≤ c.toNat) ∧ ofName? "ma\u0130n" = none ∧
      ofName? "te\u017ft" = none ∧ ofName? "\u212a" = none := by
  have hdoge : "DogeCoin".toLower ∈ mainnet.names := by decide +kernel
  have htest : "TESTnet3".toLower ∈ testnet.names := by decide +kernel
  have hdotted : ∃ c ∈ "ma\u0130n".toList, 128 ≤ c.toNat := ⟨'\u0130', by decide +kernel, by decide⟩
  have hlong : ∃ c ∈ "te\u017ft".toList, 128 ≤ c.toNat := ⟨'\u017f', by decide +kernel, by decide⟩
  have hkelvin : ∃ c ∈ "\u212a".toList, 128 ≤ c.toNat := ⟨'\u212a', by decide +kernel, by decide⟩
  obtain ⟨hsome, -⟩ := ofName?_exact "DogeCoin"
  obtain ⟨hsome', -⟩ := ofName?_exact "TESTnet3"
  obtain ⟨-, -, hnone⟩ := ofName?_exact "ma\u0130n"
  obtain ⟨-, -, hnone'⟩ := ofName?_exact "te\u017ft"
  obtain ⟨-, -, hnone''⟩ := ofName?_exact "\u212a"
  exact ⟨(hsome mainnet).mpr hdoge, (hsome' testnet).mpr htest, hdotted, hnone hdotted, hnone' hlong,
    hnone'' hkelvin⟩

end Network

end MergedMining
