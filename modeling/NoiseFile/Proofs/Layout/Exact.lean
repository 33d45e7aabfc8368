import Mathlib.Algebra.Order.Ring.Nat
import NoiseFile.Proofs.Layout

/-!
# The layout of every target, exactly

* `IsCut` : a number of chunks and the size of the last one that make up a target. A target has one cut at most
  (`IsCut.unique`), and words that are a cut make up their target without wrapping (`IsCut.words_eq`);
* `Layout.Sound.isCut` : a sound layout of some bytes is a cut;
* `Layout.Exact` : the words of a layout are the numbers that they stand for, and the layout is the only cut there is;
* `chunkCount_lastChunk_exact` : every target has such a layout, unless its chunks are to hold nothing.
-/

namespace NoiseFile

/-! ## Cuts -/

/-- Full chunks and a last chunk, none of them empty, that make up a target. -/
structure IsCut (chunk target count last : Nat) : Prop where
  count_pos : 1 ≤ count
  last_pos : 1 ≤ last
  last_le : last ≤ chunk
  sum_eq : (count - 1) * chunk + last = target

namespace IsCut

section Numbers
variable {chunk target count last count' last' : Nat} (h : IsCut chunk target count last)
include h

/-- With one byte less, a full last chunk is a remainder like any other. -/
theorem div_mod : (target - 1) / chunk = count - 1 ∧ (target - 1) % chunk = last - 1 := by
  obtain ⟨-, hpos, hle, hsum⟩ := h
  refine (Nat.div_mod_unique (by omega)).mpr ⟨?_, by omega⟩
  rw [Nat.mul_comm chunk]
  omega

theorem unique (h' : IsCut chunk target count' last') : count' = count ∧ last' = last := by
  obtain ⟨hdiv, hmod⟩ := h.div_mod
  obtain ⟨hdiv', hmod'⟩ := h'.div_mod
  have hcount : count' - 1 = count - 1 := hdiv'.symm.trans hdiv
  have hlast : last' - 1 = last - 1 := hmod'.symm.trans hmod
  exact ⟨Nat.sub_one_cancel h'.count_pos h.count_pos hcount, Nat.sub_one_cancel h'.last_pos h.last_pos hlast⟩

theorem last_le_min : last ≤ min chunk target :=
  Nat.le_min.mpr ⟨h.last_le, h.sum_eq ▸ Nat.le_add_left last _⟩

theorem min_eq_chunk (hmany : 1 < count) : min chunk target = chunk := by
  have hfull : 1 * chunk ≤ (count - 1) * chunk := Nat.mul_le_mul_right chunk (by omega)
  have hsum := h.sum_eq
  exact Nat.min_eq_left (by omega)

end Numbers

/-- Neither the product nor the sum wraps, as the target is a word. -/
theorem words_eq {chunk target count last : UInt64}
    (h : IsCut chunk.toNat target.toNat count.toNat last.toNat) :
    (count.toNat - 1) * chunk.toNat < 2 ^ 64 ∧ (count.toNat - 1) * chunk.toNat + last.toNat < 2 ^ 64 ∧
      (count - 1) * chunk + last = target := by
  have hsum := h.sum_eq
  have hlt := UInt64.toNat_lt target
  have hfull : (count - 1).toNat = count.toNat - 1 :=
    UInt64.toNat_sub_of_le count 1 (UInt64.le_iff_toNat_le.mpr h.count_pos)
  have hproduct : ((count - 1) * chunk).toNat = (count.toNat - 1) * chunk.toNat := by
    rw [UInt64.toNat_mul, hfull]
    exact Nat.mod_eq_of_lt (by omega)
  refine ⟨by omega, by omega, UInt64.toNat_inj.mp ?_⟩
  rw [UInt64.toNat_add, hproduct, hsum]
  exact Nat.mod_eq_of_lt hlt

end IsCut

/-! ## Words -/

theorem ne_zero_of_toNat_pos {n : UInt64} (h : 0 < n.toNat) : n ≠ 0 := by
  rintro rfl
  exact absurd h (by decide)

theorem toNat_succ_of_lt {index count : UInt64} (h : index < count) : (index + 1).toNat = index.toNat + 1 := by
  have hless := UInt64.lt_iff_toNat_lt.mp h
  have hlt := UInt64.toNat_lt count
  rw [UInt64.toNat_add]
  exact Nat.mod_eq_of_lt (by simp only [UInt64.toNat_one]; omega)

theorem toNat_sub_succ_of_lt {index count : UInt64} (h : index < count) :
    (count - (index + 1)).toNat = count.toNat - (index.toNat + 1) := by
  have hless := UInt64.lt_iff_toNat_lt.mp h
  rw [← toNat_succ_of_lt h]
  refine UInt64.toNat_sub_of_le _ _ (UInt64.le_iff_toNat_le.mpr ?_)
  rw [toNat_succ_of_lt h]
  exact hless

theorem toNat_setWidth_of_le {n most : UInt64} {width : Nat} (hle : n.toNat ≤ most.toNat)
    (hroom : most.toNat < 2 ^ width) : (n.toBitVec.setWidth width).toNat = n.toNat := by
  rw [BitVec.toNat_setWidth]
  exact Nat.mod_eq_of_lt (Nat.lt_of_le_of_lt hle hroom)

namespace Layout

section Sound
variable {layout : Layout} (h : layout.Sound)
include h

theorem Sound.isCut (htarget : layout.target ≠ 0) :
    IsCut layout.chunk.toNat layout.target.toNat layout.count.toNat layout.last.toNat := by
  have hpos := toNat_pos htarget
  have hcarried := h.carried_count
  cases hcount : layout.count.toNat with
  | zero =>
      rw [hcount, carried] at hcarried
      omega
  | succ before =>
      rw [hcount, carried] at hcarried
      exact ⟨Nat.le_add_left 1 before, h.last_pos (by omega), h.last_le, hcarried⟩

/-- Chunks that are not empty carry something. -/
theorem Sound.count_eq_zero (htarget : layout.target = 0) : layout.count = 0 := by
  by_contra hcount
  have hpos := toNat_pos hcount
  obtain ⟨before, hbefore⟩ := Nat.exists_eq_succ_of_ne_zero (Nat.ne_of_gt hpos)
  have hcarried := h.carried_count
  have hlast := h.last_pos hpos
  rw [hbefore, carried, htarget, UInt64.toNat_zero] at hcarried
  omega

theorem Sound.last_le_min (hlast : layout.target = 0 → layout.last = 0) :
    layout.last ≤ min layout.chunk layout.target := by
  rw [UInt64.le_iff_toNat_le, UInt64.toNat_min]
  by_cases htarget : layout.target = 0
  · rw [hlast htarget]
    exact Nat.zero_le _
  · exact (h.isCut htarget).last_le_min

theorem Sound.min_eq_chunk (hmany : 1 < layout.count) : min layout.chunk layout.target = layout.chunk := by
  have htarget : layout.target ≠ 0 := by
    intro hzero
    rw [h.count_eq_zero hzero] at hmany
    exact absurd hmany (by decide)
  rw [← UInt64.toNat_inj, UInt64.toNat_min]
  exact (h.isCut htarget).min_eq_chunk (UInt64.lt_iff_toNat_lt.mp hmany)

end Sound

/-- The chunk that is numbered `index`, from zero, has the others behind it. -/
theorem chunkSize_of_lt {layout : Layout} {index : UInt64} (h : index < layout.count) :
    layout.chunkSize (layout.count - (index + 1)).toNat =
      (if index + 1 = layout.count then layout.last else layout.chunk).toNat := by
  have hless := UInt64.lt_iff_toNat_lt.mp h
  have hlast : index + 1 = layout.count ↔ layout.count.toNat - (index.toNat + 1) = 0 := by
    rw [← UInt64.toNat_inj, toNat_succ_of_lt h]
    omega
  rw [toNat_sub_succ_of_lt h, chunkSize]
  by_cases hend : index + 1 = layout.count
  · rw [if_pos hend, if_pos (hlast.mp hend)]
  · rw [if_neg hend, if_neg (mt hlast.mpr hend)]

/-! ## Exact layouts -/

/-- The words of a layout are the numbers that they stand for, and the layout is the only cut of its target. -/
structure Exact (layout : Layout) : Prop where
  quotient_eq : (layout.target / layout.chunk).toNat = layout.target.toNat / layout.chunk.toNat
  remainder_eq : (layout.target % layout.chunk).toNat = layout.target.toNat % layout.chunk.toNat
  count_eq : layout.count.toNat =
    layout.target.toNat / layout.chunk.toNat + if layout.target.toNat % layout.chunk.toNat = 0 then 0 else 1
  /-- Words in which a chunk size has room lose neither the size of a last chunk nor that of the buffer. -/
  toNat_setWidth : ∀ width, layout.chunk.toNat < 2 ^ width →
    ((layout.target % layout.chunk).toBitVec.setWidth width).toNat = (layout.target % layout.chunk).toNat ∧
      ((min layout.chunk layout.target).toBitVec.setWidth width).toNat = layout.bufferSize
  count_eq_zero_iff : layout.count = 0 ↔ layout.target = 0
  last_eq_zero_iff : layout.last = 0 ↔ layout.target = 0
  isCut_iff : layout.target ≠ 0 → ∀ count last, IsCut layout.chunk.toNat layout.target.toNat count last ↔
    count = layout.count.toNat ∧ last = layout.last.toNat
  words_eq : layout.target ≠ 0 →
    (layout.count.toNat - 1) * layout.chunk.toNat < 2 ^ 64 ∧
      (layout.count.toNat - 1) * layout.chunk.toNat + layout.last.toNat < 2 ^ 64 ∧
      (layout.count - 1) * layout.chunk + layout.last = layout.target
  last_le_min : layout.last ≤ min layout.chunk layout.target
  min_eq_chunk : 1 < layout.count → min layout.chunk layout.target = layout.chunk
  /-- The number of a chunk, counted from one, does not wrap and tells its size, for which the buffer has room. -/
  numbered : ∀ index < layout.count, (index + 1).toNat = index.toNat + 1 ∧
    layout.chunkSize (layout.count - (index + 1)).toNat =
      (if index + 1 = layout.count then layout.last else layout.chunk).toNat ∧
    layout.chunkSize (layout.count - (index + 1)).toNat ≤ layout.bufferSize

theorem Sound.exact {layout : Layout} (h : layout.Sound)
    (hcount : layout.count.toNat =
      layout.target.toNat / layout.chunk.toNat + if layout.target.toNat % layout.chunk.toNat = 0 then 0 else 1)
    (hlast : layout.target = 0 → layout.last = 0) : layout.Exact := by
  have hremainder : (layout.target % layout.chunk).toNat ≤ layout.chunk.toNat := by
    rw [UInt64.toNat_mod]
    exact Nat.le_of_lt (Nat.mod_lt _ h.chunk_pos)
  have hbuffer : (min layout.chunk layout.target).toNat = layout.bufferSize := UInt64.toNat_min _ _
  refine {
    quotient_eq := UInt64.toNat_div _ _
    remainder_eq := UInt64.toNat_mod _ _
    count_eq := hcount
    toNat_setWidth := fun width hroom => ⟨toNat_setWidth_of_le hremainder hroom, ?_⟩
    count_eq_zero_iff := ⟨not_imp_not.mp fun hbytes => ne_zero_of_toNat_pos (h.isCut hbytes).count_pos, h.count_eq_zero⟩
    last_eq_zero_iff := ⟨not_imp_not.mp fun hbytes => ne_zero_of_toNat_pos (h.isCut hbytes).last_pos, hlast⟩
    isCut_iff := fun hbytes _ _ => ⟨(h.isCut hbytes).unique, ?_⟩
    words_eq := fun hbytes => (h.isCut hbytes).words_eq
    last_le_min := h.last_le_min hlast
    min_eq_chunk := h.min_eq_chunk
    numbered := fun index hindex => ⟨toNat_succ_of_lt hindex, chunkSize_of_lt hindex, ?_⟩ }
  · rw [← hbuffer]
    exact toNat_setWidth_of_le (hbuffer ▸ Nat.min_le_left _ _) hroom
  · rintro ⟨rfl, rfl⟩
    exact h.isCut hbytes
  · refine h.chunkSize_le_bufferSize ?_
    have hless := UInt64.lt_iff_toNat_lt.mp hindex
    rw [toNat_sub_succ_of_lt hindex]
    omega

end Layout

/-- Chunks that are to hold nothing are refused by both functions, and nothing else is. All other words have an exact
layout. -/
theorem chunkCount_lastChunk_exact (target chunk : UInt64) :
    (chunkCount target chunk = .error .zeroChunkSize ↔ chunk = 0) ∧
      (lastChunk target chunk = .error .zeroChunkSize ↔ chunk = 0) ∧
      (chunk ≠ 0 → ∃ count last, chunkCount target chunk = .ok count ∧ lastChunk target chunk = .ok last ∧
        Layout.Exact { target, chunk, count, last }) := by
  refine ⟨chunkCount_eq_zeroChunkSize_iff target chunk, lastChunk_eq_zeroChunkSize_iff target chunk, ?_⟩
  intro hchunk
  obtain ⟨count, hcount, hcountNat⟩ := chunkCount_ok target hchunk
  obtain ⟨last, hlast, hlastNat⟩ := lastChunk_ok target hchunk
  obtain ⟨layout, hplan, -, -, hsound⟩ := Layout.plan_sound target hchunk
  cases (Layout.plan_of_ok hcount hlast).symm.trans hplan
  refine ⟨count, last, hcount, hlast, hsound.exact hcountNat fun hzero => UInt64.toNat_inj.mp ?_⟩
  have hnone : target.toNat = 0 := congrArg UInt64.toNat hzero
  rw [hlastNat, if_pos hnone]
  rfl

/-- The largest target in chunks of two bytes: `2⁶³` of them, the last one of one byte. -/
theorem chunkCount_lastChunk_exact_largest :
    (2 : UInt64) ≠ 0 ∧ chunkCount 0xFFFFFFFFFFFFFFFF 2 = .ok 0x8000000000000000 ∧
      lastChunk 0xFFFFFFFFFFFFFFFF 2 = .ok 1 ∧
      ∀ count last, IsCut 2 0xFFFFFFFFFFFFFFFF count last ↔ count = 0x8000000000000000 ∧ last = 1 := by
  have hchunk : (2 : UInt64) ≠ 0 := by decide
  obtain ⟨-, -, hlaid⟩ := chunkCount_lastChunk_exact 0xFFFFFFFFFFFFFFFF 2
  obtain ⟨count, last, hcount, hlast, hexact⟩ := hlaid hchunk
  have hcount' : chunkCount 0xFFFFFFFFFFFFFFFF 2 = .ok 0x8000000000000000 := rfl
  have hlast' : lastChunk 0xFFFFFFFFFFFFFFFF 2 = .ok 1 := rfl
  cases hcount.symm.trans hcount'
  cases hlast.symm.trans hlast'
  exact ⟨hchunk, hcount, hlast, hexact.isCut_iff (by decide)⟩

end NoiseFile
