import Mathlib
import MergedMining.Network.Basic

/-! Looking up a checkpoint. The search halves the part of the table in which a height may stand and
leaves the other half unread, which is sound because the heights of a table ascend: it finds what a scan
of the whole table finds. -/
namespace MergedMining

namespace Checkpoints

/-- Every height is below the heights behind it. -/
def Ascending (table : Checkpoints) : Prop := table.toList.Pairwise fun a b => a.1 < b.1

instance (table : Checkpoints) : Decidable table.Ascending :=
  inferInstanceAs (Decidable (List.Pairwise _ _))

variable {table : Checkpoints} {height : UInt32} {hash : Hash256} {i j low high : Nat}
  {a b : UInt32 × Hash256}

theorem Ascending.lt_of_lt (h : table.Ascending) (hi : table[i]? = some a) (hj : table[j]? = some b)
    (hij : i < j) : a.1 < b.1 := by
  obtain ⟨hi', rfl⟩ := Array.getElem?_eq_some_iff.mp hi
  obtain ⟨hj', rfl⟩ := Array.getElem?_eq_some_iff.mp hj
  exact List.pairwise_iff_getElem.mp h i j hi' hj' hij

/-- Entries stand in the order of their heights. -/
theorem Ascending.lt_iff_lt (h : table.Ascending) (hi : table[i]? = some a)
    (hj : table[j]? = some b) : a.1 < b.1 ↔ i < j := by
  constructor
  · intro hlt
    rcases Nat.lt_trichotomy i j with hij | rfl | hji
    · exact hij
    · obtain rfl := Option.some.inj (hi.symm.trans hj)
      exact absurd hlt (UInt32.lt_irrefl _)
    · exact absurd hlt (UInt32.lt_asymm (h.lt_of_lt hj hi hji))
  · exact h.lt_of_lt hi hj

/-- No height stands at two places. -/
theorem Ascending.eq_of_fst_eq (h : table.Ascending) (hi : table[i]? = some a)
    (hj : table[j]? = some b) (hab : a.1 = b.1) : i = j := by
  have hij : ¬ i < j := by
    rw [← h.lt_iff_lt hi hj, hab]
    exact UInt32.lt_irrefl _
  have hji : ¬ j < i := by
    rw [← h.lt_iff_lt hj hi, hab]
    exact UInt32.lt_irrefl _
  omega

/-- What is found stands in the table, whatever the order of the table. -/
theorem mem_of_search_eq_some (h : table.search height low high = some hash) :
    (height, hash) ∈ table := by
  fun_induction search table height low high with
  | case1 => cases h
  | case2 low high hlt middle found hm =>
    obtain rfl := Option.some.inj h
    exact Array.mem_of_getElem? hm
  | case3 low high hlt middle here found hm hne hless ih => exact ih h
  | case4 low high hlt middle here found hm hne hless ih => exact ih h
  | case5 => cases h

/-- An entry is found between any bounds that it stands between. -/
theorem Ascending.search_eq_some (h : table.Ascending) (hi : table[i]? = some (height, hash))
    (hlow : low ≤ i) (hhigh : i < high) (hsize : high ≤ table.size) :
    table.search height low high = some hash := by
  fun_induction search table height low high with
  | case1 low high hlt middle hm =>
    have hmiddle : middle < table.size := by omega
    exact absurd hm (by simp [hmiddle])
  | case2 low high hlt middle found hm =>
    obtain rfl := h.eq_of_fst_eq hi hm rfl
    cases hi.symm.trans hm
    rfl
  | case3 low high hlt middle here found hm hne hless ih =>
    have hright : middle < i := (h.lt_iff_lt hm hi).mp hless
    exact ih hright hhigh hsize
  | case4 low high hlt middle here found hm hne hless ih =>
    have hgreater : height < here := UInt32.lt_of_le_of_ne (UInt32.not_lt.mp hless) (Ne.symm hne)
    have hleft : i < middle := (h.lt_iff_lt hi hm).mp hgreater
    exact ih hlow hleft (by omega)
  | case5 low high hlt => omega

theorem Ascending.find?_eq_some_iff (h : table.Ascending) :
    table.find? height = some hash ↔ (height, hash) ∈ table := by
  constructor
  · exact mem_of_search_eq_some
  · intro hmem
    obtain ⟨i, hi⟩ := Array.mem_iff_getElem?.mp hmem
    obtain ⟨hlt, -⟩ := Array.getElem?_eq_some_iff.mp hi
    exact h.search_eq_some hi (Nat.zero_le i) hlt (Nat.le_refl _)

theorem Ascending.find?_eq_none_iff (h : table.Ascending) :
    table.find? height = none ↔ ∀ entry ∈ table, entry.1 ≠ height := by
  rw [Option.eq_none_iff_forall_ne_some]
  constructor
  · rintro hnone ⟨here, hash⟩ hmem rfl
    exact hnone hash (h.find?_eq_some_iff.mpr hmem)
  · intro hnone hash hfind
    exact hnone _ (h.find?_eq_some_iff.mp hfind) rfl

/-- The search finds what a scan from the first entry on finds. -/
theorem Ascending.find?_eq_lookup (h : table.Ascending) (height : UInt32) :
    table.find? height = table.toList.lookup height := by
  cases hscan : table.toList.lookup height with
  | none =>
    rw [h.find?_eq_none_iff]
    intro entry hmem
    have hne := List.lookup_eq_none_iff.mp hscan entry (Array.mem_toList_iff.mpr hmem)
    exact (bne_iff_ne.mp hne).symm
  | some hash =>
    obtain ⟨before, after, htable, -⟩ := List.lookup_eq_some_iff.mp hscan
    apply h.find?_eq_some_iff.mpr
    rw [← Array.mem_toList_iff, htable]
    exact List.mem_append_right before List.mem_cons_self

/-- A height stands in a table once or not at all. -/
theorem Ascending.countP_le_one (h : table.Ascending) (height : UInt32) :
    table.toList.countP (fun entry => entry.1 = height) ≤ 1 := by
  have hnodup : (table.toList.map Prod.fst).Nodup := by
    rw [List.Nodup, List.pairwise_map]
    exact h.imp fun hlt => UInt32.ne_of_lt hlt
  have hcount := List.nodup_iff_count_le_one.mp hnodup height
  rw [List.count_eq_countP, List.countP_map] at hcount
  exact hcount

end Checkpoints

namespace Network

theorem ascending_checkpoints (n : Network) : n.checkpoints.Ascending := by
  cases n with
  | mainnet => decide
  | testnet => decide

/-- In a table of ascending heights the search finds what a scan finds. The heights of either network
ascend, so that a height has one entry at most; its hash is found, and nothing is found for a height
that has none. -/
theorem checkpoint_eq_scan :
    (∀ (table : Checkpoints), table.Ascending →
      ∀ height, table.find? height = table.toList.lookup height) ∧
    ∀ n : Network, n.checkpoints.Ascending ∧ ∀ height : UInt32,
      n.checkpoints.toList.countP (fun entry => entry.1 = height) ≤ 1 ∧
      (∀ hash, n.checkpoint height = some hash ↔ (height, hash) ∈ n.checkpoints) ∧
      (n.checkpoint height = none ↔ ∀ entry ∈ n.checkpoints, entry.1 ≠ height) := by
  constructor
  · intro table h height
    exact h.find?_eq_lookup height
  · intro n
    have h := n.ascending_checkpoints
    refine ⟨h, fun height => ⟨h.countP_le_one height, ?_, ?_⟩⟩
    · intro hash
      exact h.find?_eq_some_iff
    · exact h.find?_eq_none_iff

/-- The height from which mainnet accepts merge-mined blocks, and the one above it. -/
theorem checkpoint_atAuxpowStart :
    let table := Checkpoints.mainnet
    let hash := Hash256.ofNat 0x60323982f9c5ff1b5a954eac9dc1269352835f47c2c5222691d80f0d50dcf053
    table.Ascending ∧ table.find? 371337 = table.toList.lookup 371337 ∧
      (371337, hash) ∈ table ∧ mainnet.checkpoint 371337 = some hash ∧
      (∀ entry ∈ table, entry.1 ≠ 371338) ∧ mainnet.checkpoint 371338 = none := by
  intro table hash
  obtain ⟨hscan, hnetwork⟩ := checkpoint_eq_scan
  obtain ⟨hascending, hheight⟩ := hnetwork mainnet
  obtain ⟨-, hsome, -⟩ := hheight 371337
  obtain ⟨-, -, hnone⟩ := hheight 371338
  have hmem : (371337, hash) ∈ table := by decide +kernel
  have hno : ∀ entry ∈ table, entry.1 ≠ 371338 := by decide +kernel
  exact ⟨hascending, hscan table hascending 371337, hmem, (hsome hash).mpr hmem, hno, hnone.mpr hno⟩

end Network

end MergedMining
