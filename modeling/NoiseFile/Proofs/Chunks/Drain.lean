import NoiseFile.Chunks
import NoiseFile.Proofs.Layout
import NoiseFile.Proofs.Stateful

/-!
# The loop over what remains

* `drain` : draws and writes the smaller of a chunk and what remains, until nothing remains, and counts its rounds. It
  knows no layout and keeps no buffer;
* `drain_carried` : the last chunks of a sound layout are written as `drain` writes what they carry;
* `writeChunks_eq_drain` : so a target is written as `drain` writes it, in every lawful monad;
* `ends_drain` : what each round keeps holds at the end, for a source and a writer with states.
-/

namespace NoiseFile

section Loop
variable {m : Type → Type} [Monad m] (draw : (n : Nat) → m (Draw n)) (write : ByteArray → ExceptT Failure m Unit)

/-- Writes random bytes until nothing remains, and gives the number of rounds. -/
def drain (chunk : Nat) (hchunk : 0 < chunk) (remaining : Nat) : ExceptT Failure m Nat :=
  if _ : remaining = 0 then return 0
  else do
    match ← draw (min chunk remaining) with
    | .short _ _ reason => throw (.random reason)
    | .full bytes _ =>
      write bytes
      let rounds ← drain chunk hchunk (remaining - min chunk remaining)
      return rounds + 1
termination_by remaining
decreasing_by omega

theorem drain_zero {chunk : Nat} (hchunk : 0 < chunk) : drain draw write chunk hchunk 0 = pure 0 := by
  rw [drain, dif_pos rfl]

theorem drain_of_pos {chunk remaining n : Nat} (hchunk : 0 < chunk) (hpos : 0 < remaining)
    (hn : min chunk remaining = n) :
    drain draw write chunk hchunk remaining = (do
      match ← draw n with
      | .short _ _ reason => throw (.random reason)
      | .full bytes _ =>
        write bytes
        let rounds ← drain draw write chunk hchunk (remaining - n)
        return rounds + 1) := by
  subst hn
  rw [drain, dif_neg (Nat.ne_of_gt hpos)]
  apply bind_congr
  intro drawn
  cases drawn <;> rfl

variable [LawfulMonad m]

theorem throw_bind {α β : Type} (failure : Failure) (next : α → ExceptT Failure m β) :
    (throw failure : ExceptT Failure m α) >>= next = throw failure := by
  apply ExceptT.ext
  rw [ExceptT.run_bind, ExceptT.run_throw, ExceptT.run_throw, pure_bind]

/-- A front that fits is filled by one draw, and what it held before is gone. -/
theorem drawFront_bind {α : Type} {buffer : Buffer} {n : Nat} (hfits : n ≤ buffer.capacity)
    (next : Buffer → ExceptT Failure m α) :
    drawFront draw buffer n >>= next = (do
      match ← draw n with
      | .short _ _ reason => throw (.random reason)
      | .full bytes _ => next (buffer.fill bytes)) := by
  unfold drawFront
  simp only [if_neg (Nat.not_lt.mpr hfits), bind_assoc]
  apply bind_congr
  intro drawn
  cases drawn with
  | full bytes _ => exact pure_bind _ _
  | short _ _ reason => exact throw_bind _ _

theorem drain_carried {layout : Layout} (h : layout.Sound) :
    ∀ (left : Nat) (buffer : Buffer), left ≤ layout.count.toNat → layout.bufferSize ≤ buffer.capacity →
      drain draw write layout.chunk.toNat h.chunk_pos (layout.carried left) =
        (do writeFrom draw write layout left buffer; return left) := by
  intro left
  induction left with
  | zero =>
      intro buffer _ _
      rw [Layout.carried, drain_zero, writeFrom, pure_bind]
  | succ left ih =>
      intro buffer hleft hroom
      have hfits : layout.chunkSize left ≤ buffer.capacity := Nat.le_trans (h.chunkSize_le_bufferSize hleft) hroom
      have hrest : layout.carried (left + 1) - layout.chunkSize left = layout.carried left := by
        rw [Layout.carried_succ]
        omega
      have hpos : 0 < layout.carried (left + 1) := by
        rw [Layout.carried_succ]
        exact Nat.lt_of_lt_of_le (h.chunkSize_pos hleft) (Nat.le_add_right _ _)
      rw [drain_of_pos draw write h.chunk_pos hpos (h.min_carried left), hrest, writeFrom, bind_assoc,
        drawFront_bind draw hfits]
      apply bind_congr
      intro drawn
      cases drawn with
      | short _ _ reason => rfl
      | full bytes size_eq =>
          -- the front that is handed over holds the bytes of this very draw
          have hfront : (buffer.fill bytes).front (layout.chunkSize left) = bytes := by
            rw [← size_eq]
            exact buffer.front_fill bytes
          simp only [hfront, bind_assoc]
          apply bind_congr
          intro _
          rw [ih (buffer.fill bytes) (Nat.le_of_succ_le hleft) hroom, bind_assoc]
          simp only [pure_bind]

/-! ## Writing a target -/

variable {target chunk : UInt64}

omit [LawfulMonad m] in
theorem writeChunks_noBuffer (hchunk : chunk ≠ 0) (hlarge : largestBuffer < min chunk.toNat target.toNat) :
    writeChunks draw write target chunk = throw .noBuffer := by
  obtain ⟨layout, hplan, htarget, hsize, -⟩ := Layout.plan_sound target hchunk
  have hreserve : Buffer.reserve? layout.bufferSize = none := by
    rw [Layout.bufferSize, htarget, hsize]
    exact if_neg (Nat.not_le.mpr hlarge)
  simp only [writeChunks, hplan, hreserve]

theorem writeChunks_eq_drain (hchunk : chunk ≠ 0) (hroom : min chunk.toNat target.toNat ≤ largestBuffer) :
    UInt64.toNat <$> writeChunks draw write target chunk =
      drain draw write chunk.toNat (toNat_pos hchunk) target.toNat := by
  obtain ⟨layout, hplan, rfl, rfl, hsound⟩ := Layout.plan_sound target hchunk
  have hreserve : Buffer.reserve? layout.bufferSize = some { capacity := layout.bufferSize } := if_pos hroom
  have hloop := drain_carried draw write hsound layout.count.toNat { capacity := layout.bufferSize }
    (Nat.le_refl _) (Nat.le_refl _)
  rw [hsound.carried_count] at hloop
  simp only [writeChunks, hplan, hreserve, map_bind, map_pure]
  exact hloop.symm

end Loop

/-! ## Sources and writers with states -/

section States
variable {S : Type} {draw : (n : Nat) → StateM S (Draw n)} {write : ByteArray → ExceptT Failure (StateM S) Unit}

theorem runFrom_drain_of_pos {chunk remaining : Nat} (hchunk : 0 < chunk) (hpos : 0 < remaining) (state : S) :
    runFrom (drain draw write chunk hchunk remaining) state =
      match draw (min chunk remaining) state with
      | (.short _ _ reason, after) => (.error (.random reason), after)
      | (.full bytes _, drawn) => runFrom (do
          write bytes
          let rounds ← drain draw write chunk hchunk (remaining - min chunk remaining)
          return rounds + 1) drawn := by
  rw [drain_of_pos draw write hchunk hpos rfl, runFrom_bind, runFrom_lift]
  rcases draw (min chunk remaining) state with ⟨_ | _, after⟩ <;> rfl

/-- What holds before the loop and is kept by each round holds when nothing remains. -/
theorem ends_drain (Inv : Nat → Nat → S → Prop) {Broken : Failure → S → Prop} {chunk target : Nat} {start : S}
    (hchunk : 0 < chunk)
    (step : ∀ rounds remaining state, 0 < remaining → Inv rounds remaining state →
      match draw (min chunk remaining) state with
      | (.short _ _ reason, after) => Broken (.random reason) after
      | (.full bytes _, drawn) =>
        Ends (fun _ after => Inv (rounds + 1) (remaining - min chunk remaining) after) Broken
          (runFrom (write bytes) drawn))
    (hstart : Inv 0 target start) :
    Ends (fun rounds after => Inv rounds 0 after) Broken (runFrom (drain draw write chunk hchunk target) start) := by
  suffices h : ∀ remaining rounds state, Inv rounds remaining state →
      Ends (fun more after => Inv (rounds + more) 0 after) Broken
        (runFrom (drain draw write chunk hchunk remaining) state) by
    simpa only [Nat.zero_add] using h target 0 start hstart
  intro remaining
  induction remaining using Nat.strongRecOn with
  | ind remaining ih =>
      intro rounds state hinv
      rcases Nat.eq_zero_or_pos remaining with rfl | hpos
      · rw [drain_zero, runFrom_pure]
        exact hinv
      · have hround := step rounds remaining state hpos hinv
        rw [runFrom_drain_of_pos hchunk hpos]
        rcases hdraw : draw (min chunk remaining) state with ⟨⟨bytes, _⟩ | ⟨_, _, reason⟩, after⟩
        all_goals rw [hdraw] at hround
        · apply ends_bind
          apply hround.mono _ fun _ _ hbroken => hbroken
          intro _ written hwritten
          have hless : remaining - min chunk remaining < remaining := by omega
          apply ends_bind
          apply (ih _ hless _ written hwritten).mono _ fun _ _ hbroken => hbroken
          intro more last hlast
          rw [runFrom_pure]
          rw [Nat.add_assoc, Nat.add_comm 1 more] at hlast
          exact hlast
        · exact hround

/-- The same for what is told by the part that is done. -/
theorem ends_drain_done (Inv : Nat → Nat → S → Prop) {Broken : Failure → S → Prop} {chunk target : Nat} {start : S}
    (hchunk : 0 < chunk)
    (step : ∀ rounds done remaining state, 0 < remaining → done + remaining = target → Inv rounds done state →
      match draw (min chunk remaining) state with
      | (.short _ _ reason, after) => Broken (.random reason) after
      | (.full bytes _, drawn) =>
        Ends (fun _ after => Inv (rounds + 1) (done + min chunk remaining) after) Broken (runFrom (write bytes) drawn))
    (hstart : Inv 0 0 start) :
    Ends (fun rounds after => Inv rounds target after) Broken (runFrom (drain draw write chunk hchunk target) start) := by
  have hloop : Ends (fun rounds after => ∃ done, done + 0 = target ∧ Inv rounds done after) Broken
      (runFrom (drain draw write chunk hchunk target) start) := by
    refine ends_drain (fun rounds remaining state => ∃ done, done + remaining = target ∧ Inv rounds done state) hchunk
      (fun rounds remaining state hpos hinv => ?_) ⟨0, Nat.zero_add target, hstart⟩
    obtain ⟨done, hdone, hinv⟩ := hinv
    have hround := step rounds done remaining state hpos hdone hinv
    rcases hdraw : draw (min chunk remaining) state with ⟨⟨bytes, _⟩ | ⟨_, _, reason⟩, after⟩
    all_goals rw [hdraw] at hround
    · apply hround.mono _ fun _ _ hbroken => hbroken
      exact fun _ _ hafter => ⟨_, by omega, hafter⟩
    · exact hround
  apply hloop.mono _ fun _ _ hbroken => hbroken
  rintro rounds after ⟨done, rfl, hafter⟩
  exact hafter

end States

end NoiseFile
