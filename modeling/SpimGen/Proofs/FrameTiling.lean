/-
Slots tile the offsets of a frame.  Reserved one after another, they follow each
other without a gap modulo `2 ^ 32`; up to a full round they share no byte, and
as long as the offset does not go round they are intervals in increasing order.
-/
import SpimGen.Frame
import Mathlib.Algebra.Order.BigOperators.Group.List
import Mathlib.Data.Int.ConditionallyCompleteOrder
import Mathlib.Data.Int.ModEq
import Mathlib.Data.Set.Lattice
import Mathlib.Order.CompletePartialOrder
import Mathlib.Order.ConditionallyCompleteLattice.Basic
import Mathlib.Order.Interval.Set.LinearOrder

namespace SpimGen.Frame

/-- A reserved part of a frame. -/
structure Slot where
  offset : Int32
  bytes : Int32
deriving Repr, DecidableEq

/-- Reserves slots of the given sizes, one after another: the slots in this
order, and the frame after them. -/
def advanceAll (frame : Frame) : List Int32 → List Slot × Frame
  | [] => ([], frame)
  | bytes :: rest =>
      let (offset, next) := frame.advance bytes
      let (slots, last) := next.advanceAll rest
      (⟨offset, bytes⟩ :: slots, last)

/-- The sum of some sizes, without going round. -/
def total (sizes : List Int32) : Int :=
  (sizes.map Int32.toInt).sum

/-- The offsets that stand for the numbers from `start` to before `stop`, when
offsets go round. -/
def region (start stop : Int) : Set Int32 :=
  {offset | ∃ number ∈ Set.Ico start stop, offset.toInt ≡ number [ZMOD 2 ^ 32]}

namespace Slot

def start (slot : Slot) : Int :=
  slot.offset.toInt

def stop (slot : Slot) : Int :=
  slot.offset.toInt + slot.bytes.toInt

def bytesTaken (slot : Slot) : Set Int32 :=
  region slot.start slot.stop

end Slot

/-! ### Exact offsets -/

/-- An offset that stands for a number within its range is this number. -/
theorem toInt_eq_of_modEq {offset : Int32} {number : Int}
    (hmod : offset.toInt ≡ number [ZMOD 2 ^ 32]) (hlow : -2 ^ 31 ≤ number)
    (hhigh : number < 2 ^ 31) : offset.toInt = number := by
  have hoffsetLow := offset.le_toInt
  have hoffsetHigh := offset.toInt_lt
  rw [Int.modEq_iff_dvd] at hmod
  omega

theorem advance_modEq (frame : Frame) (bytes : Int32) :
    (frame.advance bytes).2.offset.toInt ≡
      frame.offset.toInt + bytes.toInt [ZMOD 2 ^ 32] := by
  rw [advance, Int32.toInt_add]
  exact Int.bmod_emod

@[simp]
theorem total_nil : total [] = 0 :=
  rfl

@[simp]
theorem total_cons (bytes : Int32) (rest : List Int32) :
    total (bytes :: rest) = bytes.toInt + total rest :=
  rfl

theorem total_append (front back : List Int32) :
    total (front ++ back) = total front + total back := by
  simp [total]

theorem total_nonneg {sizes : List Int32}
    (hsizes : ∀ bytes ∈ sizes, 0 ≤ bytes.toInt) : 0 ≤ total sizes := by
  apply List.sum_nonneg
  simpa using hsizes

theorem total_of_perm {sizes others : List Int32} (hperm : sizes.Perm others) :
    total sizes = total others :=
  (hperm.map Int32.toInt).sum_eq

theorem advanceAll_cons (frame : Frame) (bytes : Int32) (rest : List Int32) :
    frame.advanceAll (bytes :: rest) =
      (⟨frame.offset, bytes⟩ :: ((frame.advance bytes).2.advanceAll rest).1,
        ((frame.advance bytes).2.advanceAll rest).2) :=
  rfl

theorem map_bytes_advanceAll (frame : Frame) (sizes : List Int32) :
    (frame.advanceAll sizes).1.map Slot.bytes = sizes := by
  induction sizes generalizing frame with
  | nil => rfl
  | cons bytes rest ih =>
      rw [advanceAll_cons, List.map_cons, ih]

/-- A slot begins where the slots before it end. -/
theorem advanceAll_getElem? (frame : Frame) (sizes : List Int32) (k : Nat) :
    (frame.advanceAll sizes).1[k]? =
      sizes[k]?.map fun bytes =>
        ⟨(frame.advanceAll (sizes.take k)).2.offset, bytes⟩ := by
  induction sizes generalizing frame k with
  | nil => simp [advanceAll]
  | cons bytes rest ih =>
      cases k with
      | zero => rfl
      | succ k =>
          rw [advanceAll_cons, List.getElem?_cons_succ, ih,
            List.getElem?_cons_succ, List.take_succ_cons, advanceAll_cons]

theorem advanceAll_modEq (frame : Frame) (sizes : List Int32) :
    (frame.advanceAll sizes).2.offset.toInt ≡
      frame.offset.toInt + total sizes [ZMOD 2 ^ 32] := by
  induction sizes generalizing frame with
  | nil => simp [advanceAll]
  | cons bytes rest ih =>
      rw [advanceAll_cons, total_cons, ← Int.add_assoc]
      exact (ih _).trans ((frame.advance_modEq bytes).add_right _)

theorem slot_modEq {frame : Frame} {sizes : List Int32} {k : Nat} {slot : Slot}
    (hslot : (frame.advanceAll sizes).1[k]? = some slot) :
    slot.offset.toInt ≡
      frame.offset.toInt + total (sizes.take k) [ZMOD 2 ^ 32] := by
  rw [advanceAll_getElem?] at hslot
  obtain ⟨bytes, -, rfl⟩ := Option.map_eq_some_iff.mp hslot
  exact frame.advanceAll_modEq (sizes.take k)

theorem advanceAll_of_perm (frame : Frame) {sizes others : List Int32}
    (hperm : sizes.Perm others) :
    (frame.advanceAll sizes).2 = (frame.advanceAll others).2 := by
  have hmod := (frame.advanceAll_modEq sizes).trans
    (total_of_perm hperm ▸ frame.advanceAll_modEq others).symm
  have hoffset : (frame.advanceAll sizes).2.offset =
      (frame.advanceAll others).2.offset := by
    apply Int32.toInt_inj.mp
    exact toInt_eq_of_modEq hmod (Int32.le_toInt _) (Int32.toInt_lt _)
  exact congrArg Frame.mk hoffset

/-! ### Regions -/

theorem region_subset_of_modEq {start other : Int}
    (hmod : start ≡ other [ZMOD 2 ^ 32]) (count : Int) :
    region start (start + count) ⊆ region other (other + count) := by
  rintro offset ⟨number, hnumber, hoffset⟩
  rw [Set.mem_Ico] at hnumber
  refine ⟨number + (other - start), Set.mem_Ico.mpr (by omega), ?_⟩
  have hshift : 0 ≡ other - start [ZMOD 2 ^ 32] := by
    simpa using hmod.sub_right start
  simpa using hoffset.add hshift

theorem region_of_modEq {start other : Int}
    (hmod : start ≡ other [ZMOD 2 ^ 32]) (count : Int) :
    region start (start + count) = region other (other + count) :=
  (region_subset_of_modEq hmod count).antisymm
    (region_subset_of_modEq hmod.symm count)

theorem region_union {start mid stop : Int} (hmid : start ≤ mid)
    (hstop : mid ≤ stop) :
    region start mid ∪ region mid stop = region start stop := by
  ext offset
  simp only [region, ← Set.Ico_union_Ico_eq_Ico hmid hstop, Set.mem_union,
    Set.mem_ofPred_eq, or_and_right, exists_or]

/-- Two regions next to each other share nothing within one round. -/
theorem region_disjoint {start mid stop : Int}
    (hround : stop ≤ start + 2 ^ 32) :
    Disjoint (region start mid) (region mid stop) := by
  rw [Set.disjoint_left]
  rintro offset ⟨number, hnumber, hmod⟩ ⟨other, hother, hotherMod⟩
  rw [Set.mem_Ico] at hnumber hother
  have hsame := Int.modEq_iff_dvd.mp (hmod.symm.trans hotherMod)
  omega

theorem bytesTaken_mk (offset bytes : Int32) :
    Slot.bytesTaken ⟨offset, bytes⟩ =
      region offset.toInt (offset.toInt + bytes.toInt) :=
  rfl

theorem iUnion_bytesTaken (frame : Frame) {sizes : List Int32}
    (hsizes : ∀ bytes ∈ sizes, 0 ≤ bytes.toInt) :
    ⋃ slot ∈ (frame.advanceAll sizes).1, slot.bytesTaken =
      region frame.offset.toInt (frame.offset.toInt + total sizes) := by
  induction sizes generalizing frame with
  | nil => simp [advanceAll, region]
  | cons bytes rest ih =>
      obtain ⟨hbytes, hrest⟩ := List.forall_mem_cons.mp hsizes
      have htotal := total_nonneg hrest
      rw [advanceAll_cons]
      simp only [List.mem_cons, Set.iUnion_iUnion_eq_or_left]
      rw [ih _ hrest, region_of_modEq (frame.advance_modEq bytes),
        bytesTaken_mk, total_cons, ← Int.add_assoc]
      exact region_union (by omega) (by omega)

theorem pairwise_bytesTaken (frame : Frame) {sizes : List Int32}
    (hsizes : ∀ bytes ∈ sizes, 0 ≤ bytes.toInt)
    (hround : total sizes ≤ 2 ^ 32) :
    (frame.advanceAll sizes).1.Pairwise fun slot later =>
      Disjoint slot.bytesTaken later.bytesTaken := by
  induction sizes generalizing frame with
  | nil => exact .nil
  | cons bytes rest ih =>
      obtain ⟨hbytes, hrest⟩ := List.forall_mem_cons.mp hsizes
      rw [total_cons] at hround
      rw [advanceAll_cons, List.pairwise_cons]
      constructor
      · intro later hlater
        -- All later slots lie in the region that begins where this slot ends.
        have hsub : later.bytesTaken ⊆
            region (frame.offset.toInt + bytes.toInt)
              (frame.offset.toInt + bytes.toInt + total rest) := by
          rw [← region_of_modEq (frame.advance_modEq bytes),
            ← iUnion_bytesTaken _ hrest]
          exact Set.subset_biUnion_of_mem hlater
        rw [bytesTaken_mk]
        exact (region_disjoint (by omega)).mono_right hsub
      · exact ih _ hrest (by omega)

/-! ### Offsets that do not go round -/

theorem advance_exact (frame : Frame) {bytes : Int32} (hbytes : 0 ≤ bytes.toInt)
    (hstop : frame.offset.toInt + bytes.toInt < 2 ^ 31) :
    (frame.advance bytes).2.offset.toInt =
      frame.offset.toInt + bytes.toInt := by
  have hlow := frame.offset.le_toInt
  exact toInt_eq_of_modEq (frame.advance_modEq bytes) (by omega) hstop

theorem bounds_of_mem (frame : Frame) {sizes : List Int32}
    (hsizes : ∀ bytes ∈ sizes, 0 ≤ bytes.toInt)
    (hstop : frame.offset.toInt + total sizes < 2 ^ 31) :
    ∀ slot ∈ (frame.advanceAll sizes).1,
      frame.offset.toInt ≤ slot.start ∧
        slot.stop ≤ frame.offset.toInt + total sizes := by
  induction sizes generalizing frame with
  | nil => simp [advanceAll]
  | cons bytes rest ih =>
      obtain ⟨hbytes, hrest⟩ := List.forall_mem_cons.mp hsizes
      have htotal := total_nonneg hrest
      rw [total_cons] at hstop ⊢
      have hnext := frame.advance_exact hbytes (by omega)
      rw [advanceAll_cons]
      intro slot hslot
      rcases List.mem_cons.mp hslot with rfl | hlater
      · simp only [Slot.start, Slot.stop]
        omega
      · obtain ⟨hstart, hend⟩ := ih _ hrest (by omega) slot hlater
        omega

theorem pairwise_stop_le_start (frame : Frame) {sizes : List Int32}
    (hsizes : ∀ bytes ∈ sizes, 0 ≤ bytes.toInt)
    (hstop : frame.offset.toInt + total sizes < 2 ^ 31) :
    (frame.advanceAll sizes).1.Pairwise fun slot later =>
      slot.stop ≤ later.start := by
  induction sizes generalizing frame with
  | nil => exact .nil
  | cons bytes rest ih =>
      obtain ⟨hbytes, hrest⟩ := List.forall_mem_cons.mp hsizes
      have htotal := total_nonneg hrest
      rw [total_cons] at hstop
      have hnext := frame.advance_exact hbytes (by omega)
      rw [advanceAll_cons, List.pairwise_cons]
      constructor
      · intro later hlater
        obtain ⟨hstart, -⟩ :=
          bounds_of_mem _ hrest (by omega) later hlater
        rwa [hnext] at hstart
      · exact ih _ hrest (by omega)

theorem total_take_bounds {sizes : List Int32}
    (hsizes : ∀ bytes ∈ sizes, 0 ≤ bytes.toInt) (k : Nat) :
    0 ≤ total (sizes.take k) ∧ total (sizes.take k) ≤ total sizes := by
  have htake : 0 ≤ total (sizes.take k) :=
    total_nonneg fun bytes hmem => hsizes bytes (List.mem_of_mem_take hmem)
  have hdrop : 0 ≤ total (sizes.drop k) :=
    total_nonneg fun bytes hmem => hsizes bytes (List.mem_of_mem_drop hmem)
  have hwhole := total_append (sizes.take k) (sizes.drop k)
  rw [List.take_append_drop] at hwhole
  omega

theorem slot_exact {frame : Frame} {sizes : List Int32}
    (hsizes : ∀ bytes ∈ sizes, 0 ≤ bytes.toInt)
    (hstop : frame.offset.toInt + total sizes < 2 ^ 31) {k : Nat} {slot : Slot}
    (hslot : (frame.advanceAll sizes).1[k]? = some slot) :
    slot.offset.toInt = frame.offset.toInt + total (sizes.take k) := by
  obtain ⟨hnonneg, hle⟩ := total_take_bounds hsizes k
  have hlow := frame.offset.le_toInt
  exact toInt_eq_of_modEq (slot_modEq hslot) (by omega) (by omega)

/-- Slots reserved one after another follow each other modulo `2 ^ 32` and leave
the frame where their order does not matter.  Up to a full round they take up
each byte once, and before the offset goes round they are intervals in
increasing order. -/
theorem slots_tile (before : Frame) (start : Int32) (sizes : List Int32) :
    let frame := before.set start
    let slots := (frame.advanceAll sizes).1
    let last := (frame.advanceAll sizes).2
    ({} : Frame) = before.set 0 ∧
    slots.map Slot.bytes = sizes ∧
    (∀ k slot, slots[k]? = some slot →
      slot.offset.toInt ≡ start.toInt + total (sizes.take k) [ZMOD 2 ^ 32]) ∧
    last.offset.toInt ≡ start.toInt + total sizes [ZMOD 2 ^ 32] ∧
    (∀ others, others.Perm sizes → (frame.advanceAll others).2 = last) ∧
    ((∀ bytes ∈ sizes, 0 ≤ bytes.toInt) → total sizes ≤ 2 ^ 32 →
      slots.Pairwise (fun slot later =>
        Disjoint slot.bytesTaken later.bytesTaken) ∧
      ⋃ slot ∈ slots, slot.bytesTaken =
        region start.toInt (start.toInt + total sizes)) ∧
    ((∀ bytes ∈ sizes, 0 ≤ bytes.toInt) →
      start.toInt + total sizes ≤ 2 ^ 31 - 1 →
      (∀ k slot, slots[k]? = some slot →
        slot.offset.toInt = start.toInt + total (sizes.take k) ∧
        slot.stop ≤ 2 ^ 31 - 1) ∧
      slots.Pairwise (fun slot later =>
        slot.stop ≤ later.start ∧
        Disjoint (Set.Ico slot.start slot.stop)
          (Set.Ico later.start later.stop))) := by
  intro frame slots last
  refine ⟨rfl, frame.map_bytes_advanceAll sizes, fun k slot => slot_modEq,
    frame.advanceAll_modEq sizes, fun others => frame.advanceAll_of_perm,
    ?_, ?_⟩
  · intro hsizes hround
    exact ⟨frame.pairwise_bytesTaken hsizes hround,
      frame.iUnion_bytesTaken hsizes⟩
  · intro hsizes hend
    have hstop : frame.offset.toInt + total sizes < 2 ^ 31 := by
      change start.toInt + total sizes < 2 ^ 31
      omega
    constructor
    · intro k slot hslot
      obtain ⟨-, hslotStop⟩ := frame.bounds_of_mem hsizes hstop slot
        (List.mem_of_getElem? hslot)
      exact ⟨slot_exact hsizes hstop hslot, hslotStop.trans hend⟩
    · apply (frame.pairwise_stop_le_start hsizes hstop).imp
      intro slot later hle
      refine ⟨hle, Set.disjoint_left.mpr ?_⟩
      intro number hslot hlater
      rw [Set.mem_Ico] at hslot hlater
      omega

/-- The second of these slots runs over the last offset; from a lower start none
of them does. -/
theorem slots_tile_wrapped :
    let sizes : List Int32 := [4, 8, 0, 16]
    let high := (({} : Frame).set 2147483640).advanceAll sizes
    let low := (({} : Frame).set (-8)).advanceAll sizes
    high.1[3]? = some ⟨-2147483644, 16⟩ ∧
    (-2147483644 ≡ 2147483640 + 12 [ZMOD 2 ^ 32]) ∧
    ((({} : Frame).set 2147483640).advanceAll [16, 0, 8, 4]).2 = high.2 ∧
    high.1.Pairwise (fun slot later =>
      Disjoint slot.bytesTaken later.bytesTaken) ∧
    ⋃ slot ∈ high.1, slot.bytesTaken = region 2147483640 2147483668 ∧
    low.1.map Slot.start = [-8, -4, 4, 4] ∧
    low.1.Pairwise (fun slot later =>
      slot.stop ≤ later.start ∧
      Disjoint (Set.Ico slot.start slot.stop)
        (Set.Ico later.start later.stop)) := by
  intro sizes high low
  have hsizes : ∀ bytes ∈ sizes, 0 ≤ bytes.toInt := by simp [sizes]
  obtain ⟨-, -, hslot, -, hperm, hround, -⟩ :=
    slots_tile {} 2147483640 sizes
  obtain ⟨-, -, -, -, -, -, hplain⟩ := slots_tile {} (-8) sizes
  obtain ⟨hdisjoint, hunion⟩ := hround hsizes (by decide)
  exact ⟨rfl, hslot 3 ⟨-2147483644, 16⟩ rfl, hperm _ (by decide), hdisjoint,
    hunion, rfl, (hplain hsizes (by decide)).2⟩

end SpimGen.Frame
