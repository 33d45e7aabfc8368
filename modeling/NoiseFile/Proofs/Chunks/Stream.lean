import NoiseFile.Proofs.Chunks.Unfailing

/-!
# Chunks of a stream

* `Streams`, `Records` : a source that deals out the bytes of a stream one after another, and a writer that keeps what it
  is given;
* `statesAfter` : the states that runs in sequence leave; `Holdable` tells that a run has a chunk size and a buffer;
* `Poured` : a stretch of the stream has gone from the source to the writer, in order and nothing else (`poured_round`,
  `poured_recordRun`);
* `statesAfter_poured` : runs in sequence pour their targets, however these are cut into runs and chunks.
-/

namespace NoiseFile

variable {σ τ : Type}

/-- A source, of any kind, that deals out a stream byte after byte and does not fail. -/
structure Streams (stream : Source) (position : σ → Nat) (deal : σ → (n : Nat) → Draw n × σ) : Prop where
  dealt : ∀ source n, (deal source n).1 = .full (stream.slice (position source) n) (stream.size_slice _ _)
  advanced : ∀ source n, position (deal source n).2 = position source + n

/-- A writer, of any kind, that keeps what it is given behind what it was given before. -/
structure Records (data : τ → ByteArray) (accept : τ → ByteArray → Except Failure Unit × τ) : Prop where
  taken : ∀ writer chunk, (accept writer chunk).1 = .ok ()
  kept : ∀ writer chunk, data (accept writer chunk).2 = data writer ++ chunk

/-- A scripted source whose calls are never cut short deals out its stream. -/
theorem streams_deal {source : Source} (h : ∀ call, source.cut call = none) :
    Streams source Cursor.position source.deal := by
  constructor
  all_goals
    intro cursor n
    simp only [Source.deal, h]

/-! ## Runs in sequence -/

/-- A run with a chunk size, whose chunks can be held. -/
structure Holdable (run : UInt64 × UInt64) : Prop where
  chunk_ne : run.2 ≠ 0
  room : min run.2.toNat run.1.toNat ≤ largestBuffer

def total (runs : List (UInt64 × UInt64)) : Nat := (runs.map fun run => run.1.toNat).sum

section Sequence
variable (deal : σ → (n : Nat) → Draw n × σ) (accept : τ → ByteArray → Except Failure Unit × τ)

def statesAfter : List (UInt64 × UInt64) → σ → τ → σ × τ
  | [], source, writer => (source, writer)
  | (target, chunk) :: runs, source, writer =>
    let (_, source, writer) := recordRun deal accept target chunk source writer
    statesAfter runs source writer

end Sequence

/-! ## Pouring -/

/-- The next `done` bytes of the stream have gone from a source to a writer. -/
structure Poured (stream : Source) (position : σ → Nat) (data : τ → ByteArray) (before : σ × τ) (done : Nat)
    (after : σ × τ) : Prop where
  position_eq : position after.1 = position before.1 + done
  data_eq : data after.2 = data before.2 ++ stream.slice (position before.1) done

section Pouring
variable {stream : Source} {position : σ → Nat} {data : τ → ByteArray} {first second third : σ × τ} {m n : Nat}

theorem Poured.refl (states : σ × τ) : Poured stream position data states 0 states := by
  have hempty : stream.slice (position states.1) 0 = .empty := rfl
  exact ⟨rfl, by rw [hempty, ByteArray.append_empty]⟩

theorem Poured.trans (h : Poured stream position data first m second) (h' : Poured stream position data second n third) :
    Poured stream position data first (m + n) third := by
  constructor
  · rw [h'.position_eq, h.position_eq, Nat.add_assoc]
  · rw [h'.data_eq, h.data_eq, h.position_eq, ByteArray.append_assoc, Source.slice_append]

variable {deal : σ → (n : Nat) → Draw n × σ} {accept : τ → ByteArray → Except Failure Unit × τ}
  (hsource : Streams stream position deal) (hwriter : Records data accept)
include hsource hwriter

theorem poured_round (source : σ) (writer : τ) (n : Nat) :
    Poured stream position data (source, writer) n
      ((deal source n).2, (accept writer (stream.slice (position source) n)).2) :=
  ⟨hsource.advanced source n, hwriter.kept writer _⟩

theorem poured_drain {chunk : Nat} (hchunk : 0 < chunk) (target : Nat) (source : σ) (writer : τ) :
    Ends (fun _ (after : Exchange σ τ) => Poured stream position data (source, writer) target (after.source, after.writer))
      (fun _ _ => False)
      (runFrom (drain (Exchange.draw deal) (Exchange.write accept) chunk hchunk target) { source, writer }) := by
  refine ends_drain_done (fun _ done (after : Exchange σ τ) =>
    Poured stream position data (source, writer) done (after.source, after.writer)) hchunk
    (fun _ done remaining exchange _ _ hpoured => ?_) (.refl _)
  have hround := poured_round hsource hwriter exchange.source exchange.writer (min chunk remaining)
  simp only [Exchange.draw, hsource.dealt, Exchange.runFrom_write, hwriter.taken]
  exact hpoured.trans hround

theorem poured_recordRun {run : UInt64 × UInt64} (hrun : Holdable run) (source : σ) (writer : τ) :
    (∃ count, (recordRun deal accept run.1 run.2 source writer).1.outcome = .ok count) ∧
      Poured stream position data (source, writer) run.1.toNat (recordRun deal accept run.1 run.2 source writer).2 := by
  have hends := poured_drain hsource hwriter (toNat_pos hrun.chunk_ne) run.1.toNat source writer
  rw [runFrom_writeChunks deal accept hrun.chunk_ne hrun.room] at hends
  rcases hwrite : runFrom (writeChunks (Exchange.draw deal) (Exchange.write accept) run.1 run.2)
    ({ source, writer } : Exchange σ τ) with ⟨failure | count, after⟩
  · rw [hwrite] at hends
    exact False.elim hends
  · rw [hwrite] at hends
    simp only [recordRun, hwrite]
    exact ⟨⟨count, rfl⟩, hends⟩

theorem poured_statesAfter {runs : List (UInt64 × UInt64)} (hruns : ∀ run ∈ runs, Holdable run) (source : σ)
    (writer : τ) :
    (∀ record ∈ history deal accept runs source writer, ∃ count, record.outcome = .ok count) ∧
      Poured stream position data (source, writer) (total runs) (statesAfter deal accept runs source writer) := by
  induction runs generalizing source writer with
  | nil => exact ⟨fun record hrecord => (List.not_mem_nil hrecord).elim, .refl _⟩
  | cons run runs ih =>
      obtain ⟨hrun, hlater⟩ := List.forall_mem_cons.mp hruns
      obtain ⟨hok, hpoured⟩ := poured_recordRun hsource hwriter hrun source writer
      obtain ⟨hoks, hrest⟩ := ih hlater (recordRun deal accept run.1 run.2 source writer).2.1
        (recordRun deal accept run.1 run.2 source writer).2.2
      exact ⟨List.forall_mem_cons.mpr ⟨hok, hoks⟩, hpoured.trans hrest⟩

/-- Runs in sequence leave the next bytes of the stream with the writer, as many as their targets together, and the
source right behind them. So it does not matter how a total is split into runs, nor how these are cut into chunks. -/
theorem statesAfter_poured {runs : List (UInt64 × UInt64)} (hruns : ∀ run ∈ runs, Holdable run) (source : σ)
    (writer : τ) :
    (∀ record ∈ history deal accept runs source writer, ∃ count, record.outcome = .ok count) ∧
      data (statesAfter deal accept runs source writer).2 =
        data writer ++ stream.slice (position source) (total runs) ∧
      position (statesAfter deal accept runs source writer).1 = position source + total runs ∧
      ∀ others : List (UInt64 × UInt64), (∀ run ∈ others, Holdable run) → total others = total runs →
        data (statesAfter deal accept others source writer).2 = data (statesAfter deal accept runs source writer).2 ∧
          position (statesAfter deal accept others source writer).1 =
            position (statesAfter deal accept runs source writer).1 := by
  obtain ⟨hoks, hpoured⟩ := poured_statesAfter hsource hwriter hruns source writer
  refine ⟨hoks, hpoured.data_eq, hpoured.position_eq, ?_⟩
  intro others hothers htotal
  obtain ⟨-, hother⟩ := poured_statesAfter hsource hwriter hothers source writer
  rw [htotal] at hother
  exact ⟨hother.data_eq.trans hpoured.data_eq.symm, hother.position_eq.trans hpoured.position_eq.symm⟩

end Pouring

/-- Nine bytes as three runs, one of them empty, and as one chunk. -/
theorem statesAfter_poured_nine_bytes :
    let stream : Source := { byteAt := UInt8.ofNat, cut := fun _ => none }
    let accept : ByteArray → ByteArray → Except Failure Unit × ByteArray := fun data chunk => (.ok (), data ++ chunk)
    let runs : List (UInt64 × UInt64) := [(5, 2), (0, 3), (4, 7)]
    let after := statesAfter stream.deal accept runs {} .empty
    let whole := statesAfter stream.deal accept [(9, 9)] {} .empty
    Streams stream Cursor.position stream.deal ∧ Records id accept ∧ (∀ run ∈ runs, Holdable run) ∧
      (∀ run ∈ [((9 : UInt64), (9 : UInt64))], Holdable run) ∧ total [(9, 9)] = total runs ∧
      after.2 = ⟨#[0, 1, 2, 3, 4, 5, 6, 7, 8]⟩ ∧ after.1.position = 9 ∧ whole.2 = after.2 ∧ whole.1.position = 9 := by
  intro stream accept runs after whole
  have hsource : Streams stream Cursor.position stream.deal := streams_deal fun _ => rfl
  have hwriter : Records id accept := ⟨fun _ _ => rfl, fun _ _ => rfl⟩
  have hruns : ∀ run ∈ runs, Holdable run := by
    simp only [runs, List.forall_mem_cons]
    exact ⟨⟨by decide, by decide⟩, ⟨by decide, by decide⟩, ⟨by decide, by decide⟩, by simp⟩
  have hwhole : ∀ run ∈ [((9 : UInt64), (9 : UInt64))], Holdable run := by
    simp only [List.forall_mem_cons]
    exact ⟨⟨by decide, by decide⟩, by simp⟩
  have htotal : total [(9, 9)] = total runs := rfl
  obtain ⟨-, hdata, hposition, hothers⟩ := statesAfter_poured hsource hwriter hruns {} .empty
  obtain ⟨hsame, hend⟩ := hothers _ hwhole htotal
  exact ⟨hsource, hwriter, hruns, hwhole, htotal, hdata, hposition, hsame, hend.trans hposition⟩

/-- A run whose one chunk is longer than any buffer is broken off with nothing poured, though neither its source nor its
writer fails. -/
theorem statesAfter_without_buffer :
    let stream : Source := { byteAt := fun _ => 0, cut := fun _ => none }
    let accept : ByteArray → ByteArray → Except Failure Unit × ByteArray := fun data chunk => (.ok (), data ++ chunk)
    let runs : List (UInt64 × UInt64) := [(0x8000000000000000, 0x8000000000000000)]
    Streams stream Cursor.position stream.deal ∧ Records id accept ∧ (∀ run ∈ runs, run.2 ≠ 0) ∧
      (statesAfter stream.deal accept runs {} .empty).2 ≠ stream.slice 0 (total runs) := by
  intro stream accept runs
  refine ⟨streams_deal fun _ => rfl, ⟨fun _ _ => rfl, fun _ _ => rfl⟩, by simp [runs], ?_⟩
  have hempty : (statesAfter stream.deal accept runs {} .empty).2 = .empty := by
    simp only [runs, statesAfter, recordRun]
    rw [writeChunks_noBuffer _ _ (by decide) (by decide), runFrom_throw]
  have htotal : total runs = 0x8000000000000000 := rfl
  intro h
  have hsize := congrArg ByteArray.size h
  rw [hempty, Source.size_slice, htotal] at hsize
  simp at hsize

end NoiseFile
