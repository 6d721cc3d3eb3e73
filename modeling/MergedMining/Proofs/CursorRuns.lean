import MergedMining.Proofs.BlockFormat
import MergedMining.Proofs.InputAccess

/-! Runs of operations on a cursor and its clones. Each operation begins where the last one on the same
cursor has left it, whether that one failed or not. -/
namespace MergedMining

namespace Cursor

/-- What can be asked of a cursor: bytes and numbers, the next byte without taking it, and the values
of the wire format. -/
inductive Operation where
  | bytes (n : Nat) (field : String)
  | exactly (n : Nat) (field : String)
  | uint8 (field : String)
  | uint16 (field : String)
  | uint32 (field : String)
  | uint64 (field : String)
  | int32 (field : String)
  | hash (field : String)
  | varInt (field : String)
  | count (field : String) (least : Nat)
  | peek
  | header
  | transaction
  | branch
  | proof
  | block

namespace Operation

def Answer : Operation → Type
  | bytes .. => List UInt8
  | exactly n _ => { bs : List UInt8 // bs.length = n }
  | uint8 _ => UInt8
  | uint16 _ => UInt16
  | uint32 _ => UInt32
  | uint64 _ => UInt64
  | int32 _ => Int32
  | hash _ => Hash256
  | varInt _ => UInt64
  | count .. => Nat
  | peek => Option UInt8
  | header => Header
  | transaction => Transaction
  | branch => Merkle.Branch
  | proof => AuxProof Transaction Header
  | block => Block Transaction Header

def decoder : (op : Operation) → Decoder op.Answer
  | bytes n field => Decoder.bytes n field
  | exactly n field => Decoder.exactly n field
  | uint8 field => Decoder.uint8 field
  | uint16 field => Decoder.uint16 field
  | uint32 field => Decoder.uint32 field
  | uint64 field => Decoder.uint64 field
  | int32 field => Decoder.int32 field
  | hash field => Decoder.hash field
  | varInt field => Decoder.varInt field
  | count field least => Decoder.count field least
  | peek => Cursor.peek <$> Decoder.here
  | header => Header.decode
  | transaction => Transaction.decode
  | branch => Merkle.Branch.decode
  | proof => AuxProof.decode
  | block => Block.decode

/-- How an answer is spelt by the bytes that were taken for it, in front of `rest`. -/
def grammar (rest : List UInt8) : (op : Operation) → Grammar op.Answer
  | bytes n _ => .written id fun bs => bs.length = n
  | exactly .. => .written Subtype.val fun _ => True
  | uint8 _ => .written (fun b => [b]) fun _ => True
  | uint16 _ => .written (fun n => LittleEndian.encode 2 n.toNat) fun _ => True
  | uint32 _ => .written LittleEndian.encodeUInt32 fun _ => True
  | uint64 _ => .written LittleEndian.encodeUInt64 fun _ => True
  | int32 _ => .written LittleEndian.encodeInt32 fun _ => True
  | hash _ => .written Hash256.bytes fun _ => True
  | varInt _ => .written VarInt.encode fun _ => True
  | count .. => .written (fun n : Nat => VarInt.encode (.ofNat n)) fun n : Nat => n < UInt64.size
  | peek => .only rest.head?
  | header => .written Header.encode fun _ => True
  | transaction => .written Transaction.encode fun tx => tx.inputs ≠ [] ∧ tx.Fits
  | branch => .written Merkle.Branch.encode fun m => m.hashes.length < UInt64.size
  | proof => AuxProof.grammar (.written Transaction.encode fun tx => tx.inputs ≠ [] ∧ tx.Fits)
      (.written Header.encode fun _ => True)
  | block => .written Block.encode fun b => b.WellFormed ∧ b.Fits

variable {data : List UInt8} {low pos : Nat}

/-- What the decoders of the wire format inherit from the reads that they are made of, every operation
has. -/
theorem decoder_of_inherited {K : {α : Type} → Decoder α → Prop} (hK : Decoder.WireInherited K)
    (hreport : ∀ event, K (Decoder.report event)) (hpeek : K (Cursor.peek <$> Decoder.here))
    (hvarInt : ∀ field, K (Decoder.varInt field)) (htx : K Transaction.decode) (op : Operation) :
    K op.decoder := by
  have hh : K Header.decode := hK.header
  cases op with
  | bytes n field => exact hK.bytes n field
  | exactly n field => exact hK.exactly n field
  | uint8 field => exact hK.uint8 field
  | uint16 field => exact hK.uint16 field
  | uint32 field => exact hK.uint32 field
  | uint64 field => exact hK.uint64 field
  | int32 field => exact hK.int32 field
  | hash field => exact hK.hash field
  | varInt field => exact hvarInt field
  | count field least => exact hK.count field least
  | peek => exact hpeek
  | header => exact hh
  | transaction => exact htx
  | branch => exact hK.branch hreport
  | proof => exact hK.proof hreport htx hh
  | block => exact hK.block hreport htx hh

theorem secure_decoder (op : Operation) : op.decoder.Secure data low :=
  op.decoder_of_inherited Decoder.wireInherited_secure .report (.here_bind fun _ _ _ => .pure _)
    Decoder.secure_varInt Transaction.secure_decode

theorem exists_spans (op : Operation) {c c' : Cursor} {a : op.Answer}
    (h : op.decoder.Returns c a c') : ∃ bs, c.Spans bs c' ∧ op.grammar c'.rest a bs := by
  cases op with
  | bytes n field => exact (Decoder.recognises_bytes n field c a c').mp h
  | exactly n field => exact (Decoder.recognises_exactly n field c a c').mp h
  | uint8 field => exact (Decoder.recognises_uint8 field c a c').mp h
  | uint16 field => exact (Decoder.recognises_uint16 field c a c').mp h
  | uint32 field => exact (Decoder.recognises_uint32 field c a c').mp h
  | uint64 field => exact (Decoder.recognises_uint64 field c a c').mp h
  | int32 field => exact (Decoder.recognises_int32 field c a c').mp h
  | hash field => exact (Decoder.recognises_hash field c a c').mp h
  | varInt field => exact (Decoder.recognises_varInt field c a c').mp h
  | count field least =>
    obtain ⟨v, rfl, hs⟩ := Decoder.lawful_count.spans h
    exact ⟨_, hs, v.toNat_lt, congrArg VarInt.encode UInt64.ofNat_toNat.symm⟩
  | peek =>
    obtain ⟨_, hhere, rfl⟩ := Decoder.returns_map.mp h
    obtain ⟨rfl, rfl⟩ := Decoder.returns_here.mp hhere
    exact ⟨[], spans_nil.mpr rfl, rfl, rfl⟩
  | header => exact (Header.recognises_decode c a c').mp h
  | transaction => exact (Transaction.recognises_decode c a c').mp h
  | branch => exact (Merkle.Branch.recognises_decode c a c').mp h
  | proof => exact (AuxProof.recognises_decode c a c').mp h
  | block => exact (Block.recognises_decode c a c').mp h

/-- At position `pos` of `data`, the operation moves the cursor to `new` and nowhere else. -/
structure Moves (op : Operation) (data : List UInt8) (pos new : Nat) : Prop where
  forward : pos ≤ new
  inside : new ≤ data.length
  cursor : (op.decoder (.ofOffset data pos)).cursor = .ofOffset data new
  /-- No access on the way is out of range, whether the operation fails or not. -/
  inRange : ∀ access ∈ (op.decoder (.ofOffset data pos)).accesses, access.InRange data
  /-- The slices that are taken for an answer are the bytes passed over. -/
  slices : ∀ a, (op.decoder (.ofOffset data pos)).result = .ok a →
    (op.decoder (.ofOffset data pos)).accesses.flatMap Access.bytes =
      (data.drop pos).take (new - pos)
  /-- An answer is what the bytes passed over spell. -/
  answer : ∀ a, (op.decoder (.ofOffset data pos)).result = .ok a →
    op.grammar (data.drop new) a ((data.drop pos).take (new - pos))

theorem exists_moves (op : Operation) (hpos : pos ≤ data.length) : ∃ new, op.Moves data pos new := by
  have hrun : (op.decoder (.ofOffset data pos)).Within data pos (.ofOffset data pos) :=
    op.secure_decoder _ ⟨rfl, hpos⟩ (Nat.le_refl pos)
  have hcursor := hrun.cursor.eq_ofOffset
  obtain ⟨n, hn⟩ := Nat.exists_eq_add_of_le hrun.low_le
  have hinside := hrun.cursor.position_le
  rw [hn] at hcursor hinside
  refine ⟨pos + n, Nat.le_add_right pos n, hinside, hcursor, hrun.inRange, ?_, ?_⟩
  · intro a ha
    have hs := hrun.spans a ha
    rw [hcursor] at hs
    rw [Nat.add_sub_cancel_left]
    exact ((spans_ofOffset hinside).mp hs).symm
  · intro a ha
    obtain ⟨bs, hs, hbs⟩ := op.exists_spans ⟨ha, hcursor⟩
    obtain rfl := (spans_ofOffset hinside).mp hs
    rwa [Nat.add_sub_cancel_left]

end Operation

/-- The cursor behind an operation, whether that has failed or not. -/
def perform (c : Cursor) (op : Operation) : Cursor := (op.decoder c).cursor

def performAll (c : Cursor) (ops : List Operation) : Cursor := ops.foldl perform c

/-- A step of a run over several cursors. -/
inductive Action where
  /-- The cursor at an index performs an operation. -/
  | perform (i : Nat) (op : Operation)
  /-- A clone of the cursor at an index is put behind all others. -/
  | clone (i : Nat)

namespace Action

def step (cursors : List Cursor) : Action → List Cursor
  | perform i op => cursors.modify i (·.perform op)
  | clone i => cursors ++ cursors[i]?.toList

/-- The accesses to the input that the step makes. -/
def accesses (cursors : List Cursor) : Action → List Access
  | perform i op => cursors[i]?.toList.flatMap fun c => (op.decoder c).accesses
  | clone _ => []

/-- What the cursor at index `i` performs itself. -/
def own? (i : Nat) : Action → Option Operation
  | perform j op => if j = i then some op else none
  | clone _ => none

end Action

/-- All cursors after a run over `data`: the first one, which starts at the front, and the clones. -/
def run (data : List UInt8) (actions : List Action) : List Cursor :=
  actions.foldl Action.step [.ofBytes data]

/-- All accesses to the input in the course of a run, in their order. -/
def accesses : List Cursor → List Action → List Access
  | _, [] => []
  | cursors, a :: actions => a.accesses cursors ++ accesses (a.step cursors) actions

namespace Within

variable {data : List UInt8} {c : Cursor}

theorem moves (h : Within data c) (op : Operation) :
    op.Moves data c.position (c.perform op).position := by
  obtain ⟨new, hmoves⟩ := op.exists_moves h.position_le
  have hnew : c.perform op = .ofOffset data new := by
    unfold Cursor.perform
    rw [h.eq_ofOffset]
    exact hmoves.cursor
  rw [hnew]
  exact hmoves

theorem perform (h : Within data c) (op : Operation) : Within data (c.perform op) := by
  have hmoves := h.moves op
  constructor
  · rw [← hmoves.cursor, ← h.eq_ofOffset]
    rfl
  · exact hmoves.inside

theorem performAll (h : Within data c) (ops : List Operation) :
    Within data (c.performAll ops) ∧ c.position ≤ (c.performAll ops).position := by
  induction ops generalizing c with
  | nil => exact ⟨h, Nat.le_refl _⟩
  | cons op ops ih =>
    obtain ⟨hwithin, hle⟩ := ih (h.perform op)
    exact ⟨hwithin, Nat.le_trans (h.moves op).forward hle⟩

end Within

section Run

variable {data : List UInt8} {cursors : List Cursor} {c : Cursor} {i : Nat}

theorem within_step (h : ∀ c ∈ cursors, Within data c) (a : Action) :
    ∀ c ∈ a.step cursors, Within data c := by
  intro c hc
  cases a with
  | perform j op =>
    obtain ⟨i, hi⟩ := List.mem_iff_getElem?.mp hc
    rw [Action.step, List.getElem?_modify] at hi
    obtain ⟨c₀, hc₀, rfl⟩ := Option.map_eq_some_iff.mp hi
    have h₀ := h c₀ (List.mem_of_getElem? hc₀)
    split_ifs
    · exact h₀.perform op
    · exact h₀
  | clone j =>
    rcases List.mem_append.mp hc with hold | hclone
    · exact h c hold
    · exact h c (List.mem_of_getElem? (Option.mem_toList.mp hclone))

theorem within_start (data : List UInt8) : ∀ c ∈ [ofBytes data], Within data c := by
  intro c hc
  obtain rfl := List.mem_singleton.mp hc
  exact ⟨rfl, Nat.zero_le _⟩

theorem within_steps (h : ∀ c ∈ cursors, Within data c) (actions : List Action) :
    ∀ c ∈ actions.foldl Action.step cursors, Within data c := by
  induction actions generalizing cursors with
  | nil => exact h
  | cons a actions ih => exact ih (within_step h a)

theorem within_run (data : List UInt8) (actions : List Action) :
    ∀ c ∈ run data actions, Within data c :=
  within_steps (within_start data) actions

theorem inRange_step (h : ∀ c ∈ cursors, Within data c) (a : Action) :
    ∀ access ∈ a.accesses cursors, access.InRange data := by
  intro access haccess
  cases a with
  | perform i op =>
    obtain ⟨c, hc, haccess⟩ := List.mem_flatMap.mp haccess
    have hwithin := h c (List.mem_of_getElem? (Option.mem_toList.mp hc))
    rw [hwithin.eq_ofOffset] at haccess
    exact (hwithin.moves op).inRange access haccess
  | clone i => exact absurd haccess List.not_mem_nil

theorem inRange_accesses (h : ∀ c ∈ cursors, Within data c) (actions : List Action) :
    ∀ access ∈ accesses cursors actions, access.InRange data := by
  induction actions generalizing cursors with
  | nil => exact fun _ haccess => absurd haccess List.not_mem_nil
  | cons a actions ih =>
    intro access haccess
    rcases List.mem_append.mp haccess with hfirst | hrest
    · exact inRange_step h a access hfirst
    · exact ih (within_step h a) access hrest

/-- A step moves a cursor only by what the cursor itself performs. -/
theorem getElem?_step (h : cursors[i]? = some c) (a : Action) :
    (a.step cursors)[i]? = some (c.performAll (a.own? i).toList) := by
  cases a with
  | perform j op =>
    rw [Action.step, List.getElem?_modify, h, Action.own?]
    by_cases hj : j = i
    · simp only [hj, if_true]
      rfl
    · simp only [hj, if_false]
      rfl
  | clone j =>
    obtain ⟨hi, -⟩ := List.getElem?_eq_some_iff.mp h
    rw [Action.step, List.getElem?_append_left hi, h]
    rfl

theorem getElem?_steps (h : cursors[i]? = some c) (actions : List Action) :
    (actions.foldl Action.step cursors)[i]? =
      some (c.performAll (actions.filterMap (Action.own? i))) := by
  induction actions generalizing cursors c with
  | nil => exact h
  | cons a actions ih =>
    rw [List.foldl_cons, ih (getElem?_step h a)]
    cases ho : a.own? i with
    | none => rw [List.filterMap_cons_none ho]; rfl
    | some op => rw [List.filterMap_cons_some ho]; rfl

/-- No access in the course of a run is out of range, and at every point of it all cursors stand in the
input. Whatever a cursor is asked for there moves it forward and inside the input, and what it answers
is spelt by the bytes that it has passed over. In the rest of the run it goes on from there by its own
operations, whatever becomes of the others. -/
theorem run_in_range (data : List UInt8) (actions : List Action) :
    (∀ access ∈ accesses [.ofBytes data] actions, access.InRange data) ∧
    (∀ c ∈ run data actions, Within data c ∧ c.remaining = data.length - c.position) ∧
    ∀ (i : Nat) (c : Cursor), (run data actions)[i]? = some c →
      (∀ op : Operation, op.Moves data c.position (c.perform op).position) ∧
      ∀ more, (run data (actions ++ more))[i]? =
          some (c.performAll (more.filterMap (Action.own? i))) ∧
        c.position ≤ (c.performAll (more.filterMap (Action.own? i))).position := by
  have hwithin := within_run data actions
  refine ⟨inRange_accesses (within_start data) actions, ?_, ?_⟩
  · intro c hc
    exact ⟨hwithin c hc, (hwithin c hc).remaining⟩
  · intro i c h
    have hc := hwithin c (List.mem_of_getElem? h)
    refine ⟨hc.moves, ?_⟩
    intro more
    refine ⟨?_, (hc.performAll _).2⟩
    rw [run, List.foldl_append]
    exact getElem?_steps h more

/-- A value in too long a form, a length and a count that no input can bear, and a clone that reads on
in the middle of that value. For the length nothing is taken, and for the count its first byte. -/
theorem run_in_range_despite_failures :
    let data : List UInt8 := [0xfd, 0x05, 0x00, 7, 9]
    let actions : List Action := [.perform 0 (.varInt "n"), .clone 0,
      .perform 1 (.bytes (2 ^ 64 - 1) "script"), .perform 1 (.uint8 "marker"),
      .perform 0 (.bytes 3 "value"), .perform 0 (.count "n" (2 ^ 64 - 1))]
    accesses [.ofBytes data] actions =
        [.look 0, .look 0, .take 0 [0xfd], .look 1, .take 1 [0x05, 0x00], .look 0,
          .look 0, .take 0 [0xfd], .look 0, .take 0 [0xfd, 0x05, 0x00],
          .look 3, .look 3, .look 3, .take 3 [7], .look 4] ∧
      (∀ access ∈ accesses [.ofBytes data] actions, access.InRange data) ∧
      (run data actions)[0]? = some (.ofOffset data 3) ∧
      (run data actions)[1]? = some (.ofOffset data 1) ∧
      (Operation.uint16 "rest").Moves data 3 5 ∧
      (run data (actions ++ [.perform 1 .block]))[0]? = some (.ofOffset data 3) := by
  intro data actions
  have hrun : run data actions = [.ofOffset data 3, .ofOffset data 1] := by decide +kernel
  have hfirst : (run data actions)[0]? = some (.ofOffset data 3) := by rw [hrun]; rfl
  have hclone : (run data actions)[1]? = some (.ofOffset data 1) := by rw [hrun]; rfl
  obtain ⟨haccesses, -, hrange⟩ := run_in_range data actions
  obtain ⟨hmoves, hrest⟩ := hrange 0 _ hfirst
  exact ⟨by decide +kernel, haccesses, hfirst, hclone, hmoves (.uint16 "rest"),
    (hrest [.perform 1 .block]).1⟩

end Run

end Cursor

end MergedMining
