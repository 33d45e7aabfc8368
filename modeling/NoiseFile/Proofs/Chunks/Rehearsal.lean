import NoiseFile.Proofs.Chunks.Accounting
import NoiseFile.Rehearsal

/-!
# Rehearsals are recorded runs

* `Buffer.contents` : all the bytes of a buffer. Filling its front from a source puts a draw into them
  (`contents_drawFront`);
* `Follows` : an action that does on a view of a state what another one does on the state; writing chunks follows writing
  chunks if its source and its writer follow those (`follows_writeChunks`);
* `Rehearsal.writeChunks_eq` : a rehearsal has the outcome, the requests and the chunks of a run on the record.
-/

namespace NoiseFile

/-! ## Draws into a buffer -/

theorem extract_zeros (n i j : Nat) : (zeros n).extract i j = zeros (min j n - i) := by
  apply ByteArray.ext
  rw [ByteArray.data_extract, zeros, zeros, Array.extract_replicate]

theorem extract_min_size (bytes : ByteArray) (i j : Nat) : bytes.extract i (min j bytes.size) = bytes.extract i j := by
  apply ByteArray.ext
  rw [ByteArray.data_extract, ByteArray.data_extract, Array.extract_eq_extract_right]
  show min (min j bytes.size - i) (bytes.size - i) = min (j - i) (bytes.size - i)
  omega

namespace Buffer

def contents (buffer : Buffer) : ByteArray := buffer.front buffer.capacity

theorem size_contents (buffer : Buffer) : buffer.contents.size = buffer.capacity := by
  rw [contents, front, ByteArray.size_append, ByteArray.size_extract, size_zeros]
  omega

theorem contents_fill {buffer : Buffer} {bytes : ByteArray} (h : bytes.size ≤ buffer.capacity) :
    (buffer.fill bytes).contents = overwrite buffer.contents bytes := by
  have hbehind : (buffer.filled.extract 0 buffer.capacity).extract bytes.size buffer.capacity =
      buffer.filled.extract bytes.size buffer.capacity := by
    rw [ByteArray.extract_extract, Nat.zero_add, Nat.zero_add, Nat.min_self]
  have hfilled : (overwrite buffer.filled bytes).extract 0 buffer.capacity =
      bytes ++ buffer.filled.extract bytes.size buffer.capacity := by
    have hend : bytes.size + (buffer.capacity - bytes.size) = buffer.capacity := by omega
    rw [overwrite, ByteArray.extract_append, extract_of_size_le h, ByteArray.extract_extract, hend, Nat.zero_sub,
      Nat.add_zero, extract_min_size]
  show (overwrite buffer.filled bytes).extract 0 buffer.capacity ++
    zeros (buffer.capacity - (overwrite buffer.filled bytes).size) = _
  rw [hfilled, overwrite, overwrite, size_contents, contents, front, ByteArray.extract_append, hbehind, extract_zeros,
    ByteArray.append_assoc, ByteArray.size_append, ByteArray.size_extract, ByteArray.size_extract]
  congr 3
  omega

end Buffer

section Front
variable {S : Type} {buffer : Buffer} {n : Nat} (draw : (n : Nat) → StateM S (Draw n)) (h : n ≤ buffer.capacity) (state : S)
include h

theorem runFrom_drawFront : runFrom (drawFront draw buffer n) state =
    ((draw n state).1.outcome.map fun _ => buffer.fill (draw n state).1.bytes, (draw n state).2) := by
  rw [← bind_pure (drawFront draw buffer n), drawFront_bind draw h, runFrom_bind, runFrom_lift]
  rcases draw n state with ⟨_ | _, after⟩ <;> rfl

/-- A buffer whose front is filled from a source is what the draw makes of it, unless the source fails. -/
theorem contents_drawFront : (runFrom (drawFront draw buffer n) state).1.map Buffer.contents =
    (draw n state).1.outcome.map fun _ => (draw n state).1.into buffer.contents := by
  rw [runFrom_drawFront draw h]
  generalize (draw n state).1 = drawn
  have hcontents : (buffer.fill drawn.bytes).contents = drawn.into buffer.contents :=
    Buffer.contents_fill (Nat.le_trans drawn.size_bytes_le h)
  rcases drawn.outcome with failure | _
  · rfl
  · exact congrArg Except.ok hcontents

end Front

/-! ## Actions that follow others -/

section Follows
variable {S T α β : Type} {view : S → T}

/-- An action that does on the view of a state what another one does on the state. -/
def Follows (view : S → T) (action : ExceptT Failure (StateM S) α) (viewed : ExceptT Failure (StateM T) α) : Prop :=
  ∀ state, runFrom viewed (view state) = ((runFrom action state).1, view (runFrom action state).2)

theorem follows_pure (value : α) : Follows view (pure value) (pure value) := fun _ => rfl

theorem follows_throw (failure : Failure) : Follows (α := α) view (throw failure) (throw failure) := fun _ => rfl

theorem follows_bind {action : ExceptT Failure (StateM S) α} {viewed : ExceptT Failure (StateM T) α}
    {next : α → ExceptT Failure (StateM S) β} {viewedNext : α → ExceptT Failure (StateM T) β}
    (h : Follows view action viewed) (hnext : ∀ value, Follows view (next value) (viewedNext value)) :
    Follows view (action >>= next) (viewed >>= viewedNext) := by
  intro state
  rw [runFrom_bind, runFrom_bind, h state]
  rcases runFrom action state with ⟨failure | value, after⟩
  · rfl
  · exact hnext value after

variable {draw : (n : Nat) → StateM S (Draw n)} {viewedDraw : (n : Nat) → StateM T (Draw n)}
  {write : ByteArray → ExceptT Failure (StateM S) Unit} {viewedWrite : ByteArray → ExceptT Failure (StateM T) Unit}
  (hdraw : ∀ n, Follows view (liftM (draw n)) (liftM (viewedDraw n)))
include hdraw

theorem follows_drawFront (buffer : Buffer) (n : Nat) :
    Follows view (drawFront draw buffer n) (drawFront viewedDraw buffer n) := by
  unfold drawFront
  split
  case' isTrue => refine follows_bind (follows_throw _) fun _ => ?_
  all_goals
    refine follows_bind (hdraw n) fun drawn => ?_
    split
    · exact follows_pure _
    · exact follows_throw _

variable (hwrite : ∀ chunk, Follows view (write chunk) (viewedWrite chunk))
include hwrite

theorem follows_writeFrom (layout : Layout) (left : Nat) (buffer : Buffer) :
    Follows view (writeFrom draw write layout left buffer) (writeFrom viewedDraw viewedWrite layout left buffer) := by
  induction left generalizing buffer with
  | zero => exact follows_pure ()
  | succ left ih =>
      rw [writeFrom, writeFrom]
      exact follows_bind (follows_drawFront hdraw buffer _) fun filled => follows_bind (hwrite _) fun _ => ih filled

theorem follows_writeChunks (target chunk : UInt64) :
    Follows view (writeChunks draw write target chunk) (writeChunks viewedDraw viewedWrite target chunk) := by
  unfold writeChunks
  split
  · exact follows_throw _
  · split
    · exact follows_throw _
    · exact follows_bind (follows_writeFrom hdraw hwrite _ _ _) fun _ => follows_pure _

end Follows

/-! ## Rehearsals -/

namespace Rehearsal

/-- The writer of a rehearsal, whose state is the number of chunks offered to it. -/
def accept (refusal : Nat → Option Failure) (offered : Nat) (_ : ByteArray) : Except Failure Unit × Nat :=
  match refusal offered with
  | none => (.ok (), offered + 1)
  | some failure => (.error failure, offered + 1)

/-- A rehearsal that has gone on as a run on the record has. -/
def gone (run : Rehearsal) (exchange : Exchange Cursor Nat) : Rehearsal :=
  { run with
    cursor := exchange.source
    offered := exchange.writer
    requests := run.requests ++ exchange.events.filterMap Event.request?
    accepted := run.accepted ++ exchange.events.filterMap Event.taken? }

theorem follows_draw (run : Rehearsal) (n : Nat) :
    Follows run.gone (liftM (Exchange.draw (τ := Nat) run.source.deal n)) (liftM (Rehearsal.draw n)) := by
  intro exchange
  rw [runFrom_lift, runFrom_lift]
  simp [Rehearsal.draw, Exchange.draw, gone, List.filterMap_cons, Event.request?, Event.taken?, ← Array.toList_inj]

theorem runFrom_write (chunk : ByteArray) (run : Rehearsal) :
    runFrom (Rehearsal.write chunk) run = match run.refusal run.offered with
      | none => (.ok (), { run with offered := run.offered + 1, accepted := run.accepted.push chunk })
      | some failure => (.error failure, { run with offered := run.offered + 1 }) := rfl

theorem follows_write (run : Rehearsal) (chunk : ByteArray) :
    Follows run.gone (Exchange.write (accept run.refusal) chunk) (Rehearsal.write chunk) := by
  intro exchange
  rw [Exchange.runFrom_write, runFrom_write]
  unfold accept
  show (match run.refusal exchange.writer with | none => _ | some failure => _) = _
  rcases run.refusal exchange.writer with _ | failure
  · simp [gone, List.filterMap_cons, Event.request?, Event.taken?, ← Array.toList_inj]
  · simp [gone, List.filterMap_cons, Event.request?, Event.taken?]

/-- A rehearsal has the outcome of the run that is recorded between its source and its writer, and has gone on as that
run has: to the same states, with its requests and the chunks that were taken behind those from before. -/
theorem writeChunks_eq (run : Rehearsal) (target chunk : UInt64) :
    let recorded := recordRun run.source.deal (accept run.refusal) target chunk run.cursor run.offered
    Rehearsal.writeChunks target chunk run = (recorded.1.outcome, { run with
      cursor := recorded.2.1
      offered := recorded.2.2
      requests := run.requests ++ recorded.1.requests
      accepted := run.accepted ++ recorded.1.taken }) := by
  intro recorded
  have hstart : run.gone { source := run.cursor, writer := run.offered } = run := by simp [gone]
  have hrun := follows_writeChunks (follows_draw run) (follows_write run) target chunk
    { source := run.cursor, writer := run.offered }
  rw [hstart] at hrun
  exact hrun

end Rehearsal

end NoiseFile
