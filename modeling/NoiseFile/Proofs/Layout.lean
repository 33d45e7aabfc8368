import Mathlib.Algebra.GroupWithZero.Nat
import NoiseFile.Layout

/-!
# The arithmetic of layouts

* `chunkSizes` : the sizes of the chunks of a target, from the quotient and the remainder alone; all but the last are
  full, none is empty, and together they are the target (`sum_chunkSizes`);
* `Layout.carried` : the bytes in the last chunks of a layout;
* `Layout.Sound` : the chunks of a layout carry its target, none is empty and none is longer than `chunk`; every layout
  that `Layout.plan` gives is one (`plan_sound`);
* `chunkSize_le_bufferSize` : no chunk of a sound layout is longer than the buffer.
-/

namespace NoiseFile

def chunkSizes (chunk target : Nat) : List Nat :=
  List.replicate (target / chunk) chunk ++ if target % chunk = 0 then [] else [target % chunk]

theorem chunkSizes_zero (chunk : Nat) : chunkSizes chunk 0 = [] := by
  simp [chunkSizes]

theorem chunkSizes_of_pos {chunk target : Nat} (hchunk : 0 < chunk) (htarget : 0 < target) :
    chunkSizes chunk target = min chunk target :: chunkSizes chunk (target - min chunk target) := by
  unfold chunkSizes
  rcases Nat.lt_or_ge target chunk with hlt | hge
  · rw [Nat.min_eq_right (Nat.le_of_lt hlt), Nat.sub_self, Nat.div_eq_of_lt hlt, Nat.mod_eq_of_lt hlt,
      if_neg (by omega)]
    simp
  · have hdiv : target / chunk = (target - chunk) / chunk + 1 := Nat.div_eq_sub_div hchunk hge
    have hmod : target % chunk = (target - chunk) % chunk := Nat.mod_eq_sub_mod hge
    rw [Nat.min_eq_left hge, hdiv, hmod, List.replicate_succ, List.cons_append]

theorem le_min_of_mem_chunkSizes {chunk target n : Nat} (hchunk : 0 < chunk) (h : n ∈ chunkSizes chunk target) :
    n ≤ min chunk target := by
  rcases List.mem_append.mp h with hfull | hrest
  · obtain ⟨hcount, rfl⟩ := List.mem_replicate.mp hfull
    have hle : n ≤ target := by
      rcases Nat.lt_or_ge target n with hlt | hge
      · exact absurd (Nat.div_eq_of_lt hlt) hcount
      · exact hge
    exact Nat.le_min.mpr ⟨Nat.le_refl n, hle⟩
  · split at hrest
    · cases hrest
    · rw [List.mem_singleton.mp hrest]
      exact Nat.le_min.mpr ⟨Nat.le_of_lt (Nat.mod_lt target hchunk), Nat.mod_le target chunk⟩

theorem sum_chunkSizes (chunk target : Nat) : (chunkSizes chunk target).sum = target := by
  have hsplit := Nat.div_add_mod' target chunk
  unfold chunkSizes
  rw [List.sum_append, List.sum_replicate_nat]
  split
  · simp only [List.sum_nil]
    omega
  · rw [List.sum_singleton]
    omega

theorem div_add_eq_div {chunk : Nat} (hchunk : 0 < chunk) (target : Nat) :
    (target / chunk + if target % chunk = 0 then 0 else 1) = (target + chunk - 1) / chunk := by
  have hsplit := Nat.div_add_mod target chunk
  have hlt := Nat.mod_lt target hchunk
  symm
  split
  · apply Nat.div_eq_of_lt_le
    · rw [Nat.add_zero, Nat.mul_comm]
      omega
    · rw [Nat.add_zero, Nat.add_mul, Nat.mul_comm, Nat.one_mul]
      omega
  · apply Nat.div_eq_of_lt_le
    · rw [Nat.add_mul, Nat.mul_comm, Nat.one_mul]
      omega
    · rw [Nat.add_mul, Nat.add_mul, Nat.mul_comm, Nat.one_mul]
      omega

theorem length_chunkSizes {chunk : Nat} (hchunk : 0 < chunk) (target : Nat) :
    (chunkSizes chunk target).length = (target + chunk - 1) / chunk := by
  rw [← div_add_eq_div hchunk, chunkSizes, List.length_append, List.length_replicate]
  split <;> rfl

theorem pos_of_mem_chunkSizes {chunk target n : Nat} (hchunk : 0 < chunk) (h : n ∈ chunkSizes chunk target) : 0 < n := by
  rcases List.mem_append.mp h with hfull | hrest
  · rwa [(List.mem_replicate.mp hfull).2]
  · split at hrest
    · cases hrest
    · rw [List.mem_singleton.mp hrest]
      omega

/-- Every chunk but the last is a full one. -/
theorem eq_of_mem_dropLast_chunkSizes {chunk target n : Nat} (h : n ∈ (chunkSizes chunk target).dropLast) :
    n = chunk := by
  unfold chunkSizes at h
  split at h
  · rw [List.append_nil] at h
    exact (List.mem_replicate.mp (List.dropLast_subset _ h)).2
  · rw [List.dropLast_concat] at h
    exact (List.mem_replicate.mp h).2

/-- The last chunk takes the remainder, or is a full one too. -/
theorem eq_of_getLast?_chunkSizes {chunk target n : Nat} (h : (chunkSizes chunk target).getLast? = some n) :
    n = if target % chunk = 0 then chunk else target % chunk := by
  unfold chunkSizes at h
  split at h
  · rename_i hmod
    rw [List.append_nil] at h
    rw [if_pos hmod]
    exact (List.mem_replicate.mp (List.mem_of_getLast? h)).2
  · rename_i hmod
    rw [List.getLast?_concat] at h
    rw [if_neg hmod]
    exact (Option.some.inj h).symm

theorem chunkSizes_of_le {chunk target : Nat} (hpos : 0 < target) (hle : target ≤ chunk) :
    chunkSizes chunk target = [target] := by
  rw [chunkSizes_of_pos (Nat.lt_of_lt_of_le hpos hle) hpos, Nat.min_eq_right hle, Nat.sub_self, chunkSizes_zero]

/-! ## Quotient and remainder of words -/

theorem toNat_pos {n : UInt64} (h : n ≠ 0) : 0 < n.toNat :=
  Nat.pos_of_ne_zero fun hzero => h (UInt64.toNat_inj.mp hzero)

theorem mod_eq_zero_iff (target chunk : UInt64) : target % chunk = 0 ↔ target.toNat % chunk.toNat = 0 := by
  rw [← UInt64.toNat_inj, UInt64.toNat_mod]
  rfl

theorem chunkCount_ok (target : UInt64) {chunk : UInt64} (h : chunk ≠ 0) : ∃ count, chunkCount target chunk = .ok count ∧
    count.toNat = target.toNat / chunk.toNat + if target.toNat % chunk.toNat = 0 then 0 else 1 := by
  refine ⟨_, if_neg h, ?_⟩
  have hpos := toNat_pos h
  have hlt := UInt64.toNat_lt target
  rw [UInt64.toNat_add, UInt64.toNat_div]
  by_cases hmod : target % chunk = 0
  · rw [if_pos hmod, if_pos ((mod_eq_zero_iff target chunk).mp hmod)]
    have hle := Nat.div_le_self target.toNat chunk.toNat
    exact Nat.mod_eq_of_lt (by simpa using Nat.lt_of_le_of_lt hle hlt)
  · have hrest := fun hzero => hmod ((mod_eq_zero_iff target chunk).mpr hzero)
    rw [if_neg hmod, if_neg hrest]
    -- a remainder needs a chunk of two bytes or more, which leaves the quotient room for one more
    have htwo : 2 ≤ chunk.toNat := by
      refine Nat.lt_of_le_of_ne hpos fun hone => hrest ?_
      rw [← hone, Nat.mod_one]
    have hle : target.toNat / chunk.toNat ≤ target.toNat / 2 := Nat.div_le_div_left htwo (by decide)
    exact Nat.mod_eq_of_lt (by simp only [UInt64.toNat_one]; omega)

theorem lastChunk_ok (target : UInt64) {chunk : UInt64} (h : chunk ≠ 0) : ∃ last, lastChunk target chunk = .ok last ∧
    last.toNat = if target.toNat = 0 then 0
      else if target.toNat % chunk.toNat = 0 then chunk.toNat else target.toNat % chunk.toNat := by
  unfold lastChunk
  by_cases htarget : target = 0
  · exact ⟨0, by rw [if_neg h, if_pos htarget], by simp [htarget]⟩
  · have hne : target.toNat ≠ 0 := Nat.ne_of_gt (toNat_pos htarget)
    by_cases hmod : target % chunk = 0
    · refine ⟨chunk, by rw [if_neg h, if_neg htarget, if_pos hmod], ?_⟩
      rw [if_neg hne, if_pos ((mod_eq_zero_iff target chunk).mp hmod)]
    · refine ⟨target % chunk, by rw [if_neg h, if_neg htarget, if_neg hmod], ?_⟩
      rw [if_neg hne, if_neg (fun hzero => hmod ((mod_eq_zero_iff target chunk).mpr hzero)), UInt64.toNat_mod]

theorem chunkCount_eq_zeroChunkSize_iff (target chunk : UInt64) :
    chunkCount target chunk = .error .zeroChunkSize ↔ chunk = 0 := by
  refine ⟨fun hfault => ?_, fun hchunk => if_pos hchunk⟩
  by_cases hchunk : chunk = 0
  · exact hchunk
  · obtain ⟨count, hcount, -⟩ := chunkCount_ok target hchunk
    cases hcount.symm.trans hfault

theorem lastChunk_eq_zeroChunkSize_iff (target chunk : UInt64) :
    lastChunk target chunk = .error .zeroChunkSize ↔ chunk = 0 := by
  refine ⟨fun hfault => ?_, fun hchunk => if_pos hchunk⟩
  by_cases hchunk : chunk = 0
  · exact hchunk
  · obtain ⟨last, hlast, -⟩ := lastChunk_ok target hchunk
    cases hlast.symm.trans hfault

theorem toNat_chunkCount {target chunk count : UInt64} (h : chunk ≠ 0) (hcount : chunkCount target chunk = .ok count) :
    count.toNat = (target.toNat + chunk.toNat - 1) / chunk.toNat := by
  obtain ⟨other, hother, heq⟩ := chunkCount_ok target h
  rw [hcount] at hother
  cases hother
  rw [heq, div_add_eq_div (toNat_pos h)]

namespace Layout

/-! ## What the last chunks carry -/

/-- The bytes in the last `left` chunks. -/
def carried (layout : Layout) : Nat → Nat
  | 0 => 0
  | left + 1 => left * layout.chunk.toNat + layout.last.toNat

/-- A layout whose chunks carry its target. -/
structure Sound (layout : Layout) : Prop where
  chunk_pos : 0 < layout.chunk.toNat
  last_le : layout.last.toNat ≤ layout.chunk.toNat
  last_pos : 0 < layout.count.toNat → 0 < layout.last.toNat
  carried_count : layout.carried layout.count.toNat = layout.target.toNat

theorem plan_of_ok {target chunk count last : UInt64} (hcount : chunkCount target chunk = .ok count)
    (hlast : lastChunk target chunk = .ok last) : plan target chunk = .ok { target, chunk, count, last } := by
  rw [plan, hcount, hlast]
  rfl

theorem plan_sound (target : UInt64) {chunk : UInt64} (h : chunk ≠ 0) :
    ∃ layout, plan target chunk = .ok layout ∧ layout.target = target ∧ layout.chunk = chunk ∧ layout.Sound := by
  obtain ⟨count, hcount, hcountNat⟩ := chunkCount_ok target h
  obtain ⟨last, hlast, hlastNat⟩ := lastChunk_ok target h
  refine ⟨{ target, chunk, count, last }, plan_of_ok hcount hlast, rfl, rfl, ?_⟩
  have hpos := toNat_pos h
  have hsplit := Nat.div_add_mod target.toNat chunk.toNat
  have hlt := Nat.mod_lt target.toNat hpos
  by_cases htarget : target.toNat = 0
  · have hzero : count.toNat = 0 := by simp [hcountNat, htarget]
    rw [if_pos htarget] at hlastNat
    exact ⟨hpos, by simp [hlastNat], by simp [hzero], by simp [hzero, carried, htarget]⟩
  rw [if_neg htarget] at hlastNat
  by_cases hmod : target.toNat % chunk.toNat = 0
  · rw [if_pos hmod] at hcountNat hlastNat
    -- the quotient is not zero, and the last chunk is one of the full ones
    obtain ⟨full, hfull⟩ : ∃ full, target.toNat / chunk.toNat = full + 1 := by
      refine Nat.exists_eq_succ_of_ne_zero fun hzero => htarget ?_
      rw [hzero, hmod, Nat.mul_zero] at hsplit
      exact hsplit.symm
    refine ⟨hpos, Nat.le_of_eq hlastNat, fun _ => by rw [hlastNat]; exact hpos, ?_⟩
    rw [hcountNat, hfull, Nat.add_zero, carried, hlastNat]
    rw [hfull, hmod, Nat.mul_comm, Nat.add_mul, Nat.one_mul] at hsplit
    exact hsplit
  · rw [if_neg hmod] at hcountNat hlastNat
    refine ⟨hpos, by rw [hlastNat]; exact Nat.le_of_lt hlt, fun _ => by rw [hlastNat]; omega, ?_⟩
    rw [hcountNat, carried, hlastNat, Nat.mul_comm]
    exact hsplit

variable {layout : Layout}

theorem carried_succ (layout : Layout) (left : Nat) :
    layout.carried (left + 1) = layout.chunkSize left + layout.carried left := by
  cases left with
  | zero => simp [carried, chunkSize]
  | succ left =>
      rw [carried, carried, chunkSize, if_neg (Nat.succ_ne_zero left), Nat.add_mul, Nat.one_mul]
      omega

theorem carried_mono (layout : Layout) {fewer more : Nat} (h : fewer ≤ more) :
    layout.carried fewer ≤ layout.carried more := by
  induction h with
  | refl => exact Nat.le_refl _
  | step _ ih =>
      rw [carried_succ]
      exact Nat.le_trans ih (Nat.le_add_left _ _)

theorem Sound.chunkSize_le (h : layout.Sound) (left : Nat) : layout.chunkSize left ≤ layout.chunk.toNat := by
  unfold chunkSize
  split
  · exact h.last_le
  · exact Nat.le_refl _

theorem Sound.chunkSize_pos (h : layout.Sound) {left : Nat} (hleft : left < layout.count.toNat) :
    0 < layout.chunkSize left := by
  unfold chunkSize
  split
  · exact h.last_pos (Nat.lt_of_le_of_lt (Nat.zero_le left) hleft)
  · exact h.chunk_pos

/-- A chunk is the smaller of a full chunk and what is still to be carried. -/
theorem Sound.min_carried (h : layout.Sound) (left : Nat) :
    min layout.chunk.toNat (layout.carried (left + 1)) = layout.chunkSize left := by
  cases left with
  | zero =>
      rw [carried_succ, carried, chunkSize, if_pos rfl, Nat.add_zero]
      exact Nat.min_eq_right h.last_le
  | succ left =>
      rw [carried_succ, chunkSize, if_neg (Nat.succ_ne_zero left)]
      exact Nat.min_eq_left (Nat.le_add_right _ _)

theorem Sound.chunkSize_le_bufferSize (h : layout.Sound) {left : Nat} (hleft : left < layout.count.toNat) :
    layout.chunkSize left ≤ layout.bufferSize := by
  have hcarried : layout.carried (left + 1) ≤ layout.target.toNat := h.carried_count ▸ layout.carried_mono hleft
  rw [carried_succ] at hcarried
  exact Nat.le_min.mpr ⟨h.chunkSize_le left, Nat.le_trans (Nat.le_add_right _ _) hcarried⟩

end Layout

end NoiseFile
