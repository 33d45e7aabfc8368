import NoiseFile.Proofs.Chunks.Drain

/-!
# Runs on the record

Any source and any writer, each with a state of its own, and a record of what passes between them and a run.

* `Event` : a call of the source or of the writer, with its answer; `Exchange` : the two states and the calls so far;
* `Exchange.draw`, `Exchange.write` : the two ends of a recorded run;
* `Transcript` : the calls of a run and its outcome, by how it ends; every recorded run of the loop leaves one
  (`transcript_drain`);
* `writeChunks_refines_drain` : writing a target makes the calls of the loop over what remains, leaves both states as it
  does and has its outcome, and no chunk is longer than the buffer.
-/

namespace NoiseFile

inductive Event
  | drawn (n : Nat) (draw : Draw n)
  | offered (chunk : ByteArray) (answer : Except Failure Unit)

/-- The length of the slice of the buffer that a call is given. -/
def Event.size : Event → Nat
  | .drawn n _ => n
  | .offered chunk _ => chunk.size

theorem Event.drawn_full {n : Nat} {bytes : ByteArray} (size_eq : bytes.size = n) :
    Event.drawn n (.full bytes size_eq) = .drawn bytes.size (.full bytes rfl) := by
  subst size_eq
  rfl

/-- The states of a source and of a writer, and the calls made so far, in order. -/
structure Exchange (σ τ : Type) where
  source : σ
  writer : τ
  events : List Event := []

variable {σ τ : Type} (deal : σ → (n : Nat) → Draw n × σ) (accept : τ → ByteArray → Except Failure Unit × τ)

namespace Exchange

def draw (n : Nat) : StateM (Exchange σ τ) (Draw n) := fun exchange =>
  let (drawn, source) := deal exchange.source n
  (drawn, { exchange with source, events := exchange.events ++ [.drawn n drawn] })

def write (chunk : ByteArray) : ExceptT Failure (StateM (Exchange σ τ)) Unit := fun exchange =>
  let (answer, writer) := accept exchange.writer chunk
  (answer, { exchange with writer, events := exchange.events ++ [.offered chunk answer] })

theorem runFrom_write (chunk : ByteArray) (exchange : Exchange σ τ) :
    runFrom (write accept chunk) exchange = ((accept exchange.writer chunk).1,
      { exchange with
        writer := (accept exchange.writer chunk).2
        events := exchange.events ++ [.offered chunk (accept exchange.writer chunk).1] }) := rfl

end Exchange

/-! ## Transcripts -/

def rounds (chunks : List ByteArray) : List Event :=
  chunks.flatMap fun chunk => [.drawn chunk.size (.full chunk rfl), .offered chunk (.ok ())]

/-- The calls of a run that is to write chunks of the given sizes, and its outcome: all chunks are taken, or the source
falls short of one, or the writer refuses one. -/
inductive Transcript (sizes : List Nat) : List Event → Except Failure Nat → Prop
  | complete {chunks : List ByteArray} (sizes_eq : sizes = chunks.map ByteArray.size) :
      Transcript sizes (rounds chunks) (.ok chunks.length)
  | dry {chunks : List ByteArray} {n : Nat} {later : List Nat} {bytes : ByteArray} {size_le : bytes.size ≤ n}
      {reason : String} (sizes_eq : sizes = chunks.map ByteArray.size ++ n :: later) :
      Transcript sizes (rounds chunks ++ [.drawn n (.short bytes size_le reason)]) (.error (.random reason))
  | refused {chunks : List ByteArray} {chunk : ByteArray} {later : List Nat} {failure : Failure}
      (sizes_eq : sizes = chunks.map ByteArray.size ++ chunk.size :: later) :
      Transcript sizes (rounds chunks ++ [.drawn chunk.size (.full chunk rfl), .offered chunk (.error failure)])
        (.error failure)

theorem rounds_append_singleton (chunks : List ByteArray) (chunk : ByteArray) :
    rounds (chunks ++ [chunk]) =
      rounds chunks ++ [.drawn chunk.size (.full chunk rfl), .offered chunk (.ok ())] := by
  rw [rounds, List.flatMap_append, List.flatMap_singleton, rounds]

theorem mem_rounds {chunks : List ByteArray} {event : Event} (h : event ∈ rounds chunks) :
    ∃ chunk ∈ chunks, event = .drawn chunk.size (.full chunk rfl) ∨ event = .offered chunk (.ok ()) := by
  obtain ⟨chunk, hchunk, hevent⟩ := List.mem_flatMap.mp h
  exact ⟨chunk, hchunk, by simpa using hevent⟩

theorem size_of_mem_rounds {chunks : List ByteArray} {event : Event} (h : event ∈ rounds chunks) :
    event.size ∈ chunks.map ByteArray.size := by
  obtain ⟨chunk, hchunk, rfl | rfl⟩ := mem_rounds h <;> exact List.mem_map_of_mem hchunk

theorem Transcript.size_mem {sizes : List Nat} {events : List Event} {outcome : Except Failure Nat}
    (h : Transcript sizes events outcome) : ∀ event ∈ events, event.size ∈ sizes := by
  intro event hevent
  cases h with
  | complete hsizes =>
      rw [hsizes]
      exact size_of_mem_rounds hevent
  | dry hsizes =>
      rw [hsizes]
      rcases List.mem_append.mp hevent with htaken | hlast
      · exact List.mem_append_left _ (size_of_mem_rounds htaken)
      · rw [List.mem_singleton.mp hlast]
        exact List.mem_append_right _ (List.mem_cons_self ..)
  | refused hsizes =>
      rw [hsizes]
      rcases List.mem_append.mp hevent with htaken | hlast
      · exact List.mem_append_left _ (size_of_mem_rounds htaken)
      · refine List.mem_append_right _ ?_
        rcases List.mem_cons.mp hlast with rfl | hlast
        · exact List.mem_cons_self ..
        · rw [List.mem_singleton.mp hlast]
          exact List.mem_cons_self ..

/-- The calls so far: the chunks taken are the first of the layout, and what remains is laid out as the others. -/
structure UnderWay (chunk target taken remaining : Nat) (events : List Event) : Prop where
  calls : ∃ chunks : List ByteArray, events = rounds chunks ∧ chunks.length = taken ∧
    chunkSizes chunk target = chunks.map ByteArray.size ++ chunkSizes chunk remaining

theorem transcript_drain {chunk : Nat} (hchunk : 0 < chunk) (target : Nat) (source : σ) (writer : τ) :
    let run := runFrom (drain (Exchange.draw deal) (Exchange.write accept) chunk hchunk target) { source, writer }
    Transcript (chunkSizes chunk target) run.2.events run.1 := by
  intro run
  have hends : Ends (fun taken after => UnderWay chunk target taken 0 after.events)
      (fun failure after => Transcript (chunkSizes chunk target) after.events (.error failure)) run := by
    refine ends_drain (fun taken remaining (after : Exchange σ τ) =>
      UnderWay chunk target taken remaining after.events) hchunk
      (fun taken remaining exchange hpos hinv => ?_) ⟨[], rfl, rfl, rfl⟩
    obtain ⟨chunks, hevents, rfl, hsizes⟩ := hinv.calls
    rw [chunkSizes_of_pos hchunk hpos] at hsizes
    unfold Exchange.draw
    rcases deal exchange.source (min chunk remaining) with ⟨⟨bytes, size_eq⟩ | ⟨bytes, size_le, reason⟩, source⟩
    · simp only [Exchange.runFrom_write, List.append_assoc, List.cons_append, List.nil_append, hevents]
      -- the chunk that is offered is the draw, so the calls speak of one size
      rw [← size_eq] at hsizes
      rcases accept exchange.writer bytes with ⟨failure | _, writer⟩
      · rw [Event.drawn_full size_eq]
        exact .refused hsizes
      · refine ⟨chunks ++ [bytes], ?_, ?_, ?_⟩
        · rw [rounds_append_singleton, Event.drawn_full size_eq]
        · rw [List.length_append, List.length_singleton]
        · rw [hsizes, List.map_append, List.map_singleton, List.append_assoc, size_eq]
          rfl
    · simp only [hevents]
      exact .dry hsizes
  rcases hrun : run with ⟨failure | taken, after⟩
  · rw [hrun] at hends
    exact hends
  · rw [hrun] at hends
    obtain ⟨chunks, hevents, rfl, hsizes⟩ := hends.calls
    rw [chunkSizes_zero, List.append_nil] at hsizes
    simp only [hevents]
    exact .complete hsizes

/-! ## Counting and draining -/

theorem runFrom_writeChunks {target chunk : UInt64} (hchunk : chunk ≠ 0)
    (hroom : min chunk.toNat target.toNat ≤ largestBuffer) (start : Exchange σ τ) :
    runFrom (drain (Exchange.draw deal) (Exchange.write accept) chunk.toNat (toNat_pos hchunk) target.toNat) start =
      ((runFrom (writeChunks (Exchange.draw deal) (Exchange.write accept) target chunk) start).1.map UInt64.toNat,
        (runFrom (writeChunks (Exchange.draw deal) (Exchange.write accept) target chunk) start).2) := by
  rw [← writeChunks_eq_drain _ _ hchunk hroom, runFrom_map]

/-- Writing a target through one buffer, by a count of chunks and the size of the last, makes the same calls as the loop
over what remains, leaves the source and the writer in the same states and has the same outcome, its count being the
number of rounds; and every slice that is used lies in the buffer. -/
theorem writeChunks_refines_drain {target chunk : UInt64} (hchunk : chunk ≠ 0)
    (hroom : min chunk.toNat target.toNat ≤ largestBuffer) (source : σ) (writer : τ) :
    let start : Exchange σ τ := { source, writer }
    let counted := runFrom (writeChunks (Exchange.draw deal) (Exchange.write accept) target chunk) start
    let drained := runFrom
      (drain (Exchange.draw deal) (Exchange.write accept) chunk.toNat (toNat_pos hchunk) target.toNat) start
    counted.2 = drained.2 ∧ counted.1.map UInt64.toNat = drained.1 ∧
      (∀ event ∈ counted.2.events, event.size ≤ min chunk.toNat target.toNat) ∧
      ∃ layout, Layout.plan target chunk = .ok layout ∧ layout.bufferSize = min chunk.toNat target.toNat ∧
        ∀ left < layout.count.toNat, layout.chunkSize left ≤ layout.bufferSize := by
  intro start counted drained
  have hrun : drained = (counted.1.map UInt64.toNat, counted.2) := runFrom_writeChunks deal accept hchunk hroom start
  have hscript := transcript_drain deal accept (toNat_pos hchunk) target.toNat source writer
  refine ⟨by rw [hrun], by rw [hrun], ?_, ?_⟩
  · intro event hevent
    refine le_min_of_mem_chunkSizes (toNat_pos hchunk) (hscript.size_mem event ?_)
    show event ∈ drained.2.events
    rw [hrun]
    exact hevent
  · obtain ⟨layout, hplan, rfl, rfl, hsound⟩ := Layout.plan_sound target hchunk
    exact ⟨layout, hplan, rfl, fun _ hleft => hsound.chunkSize_le_bufferSize hleft⟩

/-- Seven bytes in chunks of two, to a writer that refuses its third chunk: the loop over what remains stops with it. -/
theorem writeChunks_refines_drain_refusal :
    let deal : Nat → (n : Nat) → Draw n × Nat := fun position n => (.full (zeros n) (size_zeros n), position + n)
    let accept : Nat → ByteArray → Except Failure Unit × Nat := fun taken _ =>
      if taken = 2 then (.error (.remark "disk full"), taken) else (.ok (), taken + 1)
    let start : Exchange Nat Nat := { source := 0, writer := 0 }
    let drained := runFrom (drain (Exchange.draw deal) (Exchange.write accept) 2 (by decide) 7) start
    (2 : UInt64) ≠ 0 ∧ min (2 : UInt64).toNat (7 : UInt64).toNat ≤ largestBuffer ∧
      drained.1 = .error (.remark "disk full") ∧ drained.2.source = 6 ∧ drained.2.writer = 2 := by
  intro deal accept start drained
  have hchunk : (2 : UInt64) ≠ 0 := by decide
  have hroom : min (2 : UInt64).toNat (7 : UInt64).toNat ≤ largestBuffer := by decide
  obtain ⟨hstates, houtcome, -⟩ := writeChunks_refines_drain deal accept hchunk hroom 0 0
  refine ⟨hchunk, hroom, ?_, ?_, ?_⟩
  · exact houtcome.symm
  · exact (congrArg Exchange.source hstates).symm
  · exact (congrArg Exchange.writer hstates).symm

end NoiseFile
