import Mathlib.Algebra.Ring.Nat
import NoiseFile.Proofs.Chunks.Exchange

/-!
# Accounting for failures

Runs one after another, on one source and one writer, each of which may fail at any call.

* `Event.request?`, `taken?`, `refused?`, `failure?`, `dealt`, `spilt` : the length that a call asks for, the chunk that is
  taken or refused, the failure, the number of bytes dealt out, and of those the ones dealt out by a draw that fails;
* `Record`, `history` : what was asked of a run, its outcome and its calls; the records of runs in sequence;
* `Record.Accounted` : every byte that the source dealt out in a run is accounted for, the run stops at its first failure
  and gives that failure back;
* `Accounts`, `history_accounted` : all runs of a history are accounted for, and so are the bytes of all of them together.
-/

namespace NoiseFile

/-! ## Reading the calls -/

namespace Event

def request? : Event → Option Nat
  | .drawn n _ => some n
  | .offered _ _ => none

def taken? : Event → Option ByteArray
  | .drawn _ _ => none
  | .offered chunk (.ok _) => some chunk
  | .offered _ (.error _) => none

def refused? : Event → Option ByteArray
  | .drawn _ _ => none
  | .offered _ (.ok _) => none
  | .offered chunk (.error _) => some chunk

def failure? : Event → Option Failure
  | .drawn _ (.full _ _) => none
  | .drawn _ (.short _ _ reason) => some (.random reason)
  | .offered _ (.ok _) => none
  | .offered _ (.error failure) => some failure

def dealt : Event → Nat
  | .drawn _ draw => draw.bytes.size
  | .offered _ _ => 0

def spilt : Event → Nat
  | .drawn _ (.full _ _) => 0
  | .drawn _ (.short bytes _ _) => bytes.size
  | .offered _ _ => 0

end Event

structure Record where
  target : UInt64
  chunk : UInt64
  outcome : Except Failure UInt64
  events : List Event

namespace Record

def requests (record : Record) : List Nat := record.events.filterMap Event.request?

def taken (record : Record) : List ByteArray := record.events.filterMap Event.taken?

def refused (record : Record) : List ByteArray := record.events.filterMap Event.refused?

def dealt (record : Record) : Nat := (record.events.map Event.dealt).sum

def spilt (record : Record) : Nat := (record.events.map Event.spilt).sum

def sizes (record : Record) : List Nat := chunkSizes record.chunk.toNat record.target.toNat

/-- Whether a call of the source or of the writer failed. -/
def failed (record : Record) : Bool := record.events.any fun event => event.failure?.isSome

/-- A run whose bytes and failures are accounted for. -/
structure Accounted (record : Record) : Prop where
  taken_prefix : record.taken.map ByteArray.size <+: record.sizes
  /-- A chunk is offered right after a draw, and is all that this draw dealt out. -/
  offered_drawn : ∀ before chunk answer after, record.events = before ++ .offered chunk answer :: after →
    ∃ earlier, before = earlier ++ [.drawn chunk.size (.full chunk rfl)]
  stops : ∀ before event after, record.events = before ++ event :: after → event.failure?.isSome → after = []
  failure_returned : ∀ event ∈ record.events, ∀ failure, event.failure? = some failure →
    record.outcome = .error failure
  /-- The source is called once for each chunk that is taken, and once more if a call fails. -/
  calls : record.requests.length = record.taken.length + if record.failed then 1 else 0
  complete : ∀ count, record.outcome = .ok count →
    record.failed = false ∧ record.taken.length = count.toNat ∧ record.taken.map ByteArray.size = record.sizes
  /-- Where no call failed, the run was refused before its first call. -/
  error_cause : ∀ failure, record.outcome = .error failure →
    (∃ event ∈ record.events, event.failure? = some failure) ∨
      record.events = [] ∧ (record.chunk = 0 ∧ failure = .size .zeroChunkSize ∨
        largestBuffer < min record.chunk.toNat record.target.toNat ∧ failure = .noBuffer)
  balance : record.dealt =
    (record.taken.map ByteArray.size).sum + (record.refused.map ByteArray.size).sum + record.spilt

end Record

/-! ## Histories -/

variable {σ τ : Type} (deal : σ → (n : Nat) → Draw n × σ) (accept : τ → ByteArray → Except Failure Unit × τ)

def recordRun (target chunk : UInt64) (source : σ) (writer : τ) : Record × σ × τ :=
  let run := runFrom (writeChunks (Exchange.draw deal) (Exchange.write accept) target chunk) { source, writer }
  ({ target, chunk, outcome := run.1, events := run.2.events }, run.2.source, run.2.writer)

/-- Runs one after another, each from the states that the last one left. -/
def history : List (UInt64 × UInt64) → σ → τ → List Record
  | [], _, _ => []
  | (target, chunk) :: runs, source, writer =>
    let (record, source, writer) := recordRun deal accept target chunk source writer
    record :: history runs source writer

/-! ## Reading a transcript -/

theorem rounds_cons (chunk : ByteArray) (chunks : List ByteArray) :
    rounds (chunk :: chunks) =
      .drawn chunk.size (.full chunk rfl) :: .offered chunk (.ok ()) :: rounds chunks := rfl

@[simp] theorem request_rounds (chunks : List ByteArray) :
    (rounds chunks).filterMap Event.request? = chunks.map ByteArray.size := by
  induction chunks with
  | nil => rfl
  | cons chunk chunks ih => simp only [rounds_cons, List.filterMap_cons, Event.request?, ih, List.map_cons]

@[simp] theorem taken_rounds (chunks : List ByteArray) : (rounds chunks).filterMap Event.taken? = chunks := by
  induction chunks with
  | nil => rfl
  | cons chunk chunks ih => simp only [rounds_cons, List.filterMap_cons, Event.taken?, ih]

@[simp] theorem refused_rounds (chunks : List ByteArray) : (rounds chunks).filterMap Event.refused? = [] := by
  induction chunks with
  | nil => rfl
  | cons chunk chunks ih => simp only [rounds_cons, List.filterMap_cons, Event.refused?, ih]

@[simp] theorem dealt_rounds (chunks : List ByteArray) :
    ((rounds chunks).map Event.dealt).sum = (chunks.map ByteArray.size).sum := by
  induction chunks with
  | nil => rfl
  | cons chunk chunks ih => simp [rounds_cons, Event.dealt, Draw.bytes, ih]

@[simp] theorem spilt_rounds (chunks : List ByteArray) : ((rounds chunks).map Event.spilt).sum = 0 := by
  induction chunks with
  | nil => rfl
  | cons chunk chunks ih => simp [rounds_cons, Event.spilt, ih]

theorem failure_of_mem_rounds {chunks : List ByteArray} {event : Event} (h : event ∈ rounds chunks) :
    event.failure? = none := by
  obtain ⟨chunk, -, rfl | rfl⟩ := mem_rounds h <;> rfl

@[simp] theorem failed_rounds (chunks : List ByteArray) :
    ((rounds chunks).any fun event => event.failure?.isSome) = false := by
  rw [List.any_eq_false]
  intro event hevent
  rw [failure_of_mem_rounds hevent]
  exact Bool.false_ne_true

/-- Where only the last call can fail, a call that fails is the last. -/
theorem eq_last_of_failure {before after calls : List Event} {event last : Event} {failure : Failure}
    (hcalls : ∀ call ∈ calls, call.failure? = none) (hsplit : calls ++ [last] = before ++ event :: after)
    (hfailure : event.failure? = some failure) : after = [] ∧ event = last := by
  rcases List.eq_nil_or_concat after with rfl | ⟨later, final, rfl⟩
  · obtain ⟨-, hlast⟩ := List.append_inj' hsplit rfl
    exact ⟨rfl, (List.singleton_inj.mp hlast).symm⟩
  · rw [List.concat_eq_append, ← List.cons_append, ← List.append_assoc] at hsplit
    obtain ⟨hinit, -⟩ := List.append_inj' hsplit rfl
    have hmem : event ∈ calls := hinit ▸ List.mem_append_right _ (List.mem_cons_self ..)
    rw [hcalls event hmem] at hfailure
    cases hfailure

/-- In calls that begin with a draw and the offer of its bytes, every offer stands behind its draw if those of the
later calls do. -/
theorem offered_drawn_cons {calls before after : List Event} {taken chunk : ByteArray}
    {answer answer' : Except Failure Unit}
    (hcalls : ∀ before after, calls = before ++ .offered chunk answer :: after →
      ∃ earlier, before = earlier ++ [.drawn chunk.size (.full chunk rfl)])
    (hsplit : .drawn taken.size (.full taken rfl) :: .offered taken answer' :: calls =
      before ++ .offered chunk answer :: after) :
    ∃ earlier, before = earlier ++ [.drawn chunk.size (.full chunk rfl)] := by
  rcases before with _ | ⟨first, _ | ⟨second, before⟩⟩
  · cases (List.cons.inj hsplit).1
  · obtain ⟨rfl, hrest⟩ := List.cons.inj hsplit
    cases (List.cons.inj hrest).1
    exact ⟨[], rfl⟩
  · obtain ⟨rfl, hrest⟩ := List.cons.inj hsplit
    obtain ⟨rfl, hlater⟩ := List.cons.inj hrest
    obtain ⟨earlier, rfl⟩ := hcalls before after hlater
    exact ⟨_ :: _ :: earlier, rfl⟩

theorem offered_drawn_rounds (chunks : List ByteArray) {calls : List Event} {chunk : ByteArray}
    {answer : Except Failure Unit}
    (hcalls : ∀ before after, calls = before ++ .offered chunk answer :: after →
      ∃ earlier, before = earlier ++ [.drawn chunk.size (.full chunk rfl)]) :
    ∀ before after, rounds chunks ++ calls = before ++ .offered chunk answer :: after →
      ∃ earlier, before = earlier ++ [.drawn chunk.size (.full chunk rfl)] := by
  induction chunks with
  | nil => exact hcalls
  | cons taken chunks ih => exact fun _ _ hsplit => offered_drawn_cons ih hsplit

namespace Transcript

variable {sizes : List Nat} {events : List Event} {outcome : Except Failure Nat}

theorem taken_prefix (h : Transcript sizes events outcome) :
    (events.filterMap Event.taken?).map ByteArray.size <+: sizes := by
  cases h with
  | complete hsizes => simp [hsizes]
  | dry hsizes => simp [hsizes, List.filterMap_cons, Event.taken?]
  | refused hsizes => simp [hsizes, List.filterMap_cons, Event.taken?]

theorem offered_drawn (h : Transcript sizes events outcome) {before after : List Event} {chunk : ByteArray}
    {answer : Except Failure Unit} (hsplit : events = before ++ .offered chunk answer :: after) :
    ∃ earlier, before = earlier ++ [.drawn chunk.size (.full chunk rfl)] := by
  have hnil : ∀ before after : List Event, [] = before ++ .offered chunk answer :: after →
      ∃ earlier, before = earlier ++ [.drawn chunk.size (.full chunk rfl)] := by
    intro before after hsplit
    simp at hsplit
  cases h with
  | @complete chunks => exact offered_drawn_rounds chunks hnil _ _ ((List.append_nil _).trans hsplit)
  | @dry chunks =>
      refine offered_drawn_rounds chunks (fun before after hsplit => ?_) _ _ hsplit
      rcases before with _ | ⟨first, before⟩
      · cases (List.cons.inj hsplit).1
      · exact absurd (List.cons.inj hsplit).2 (by simp)
  | @refused chunks => exact offered_drawn_rounds chunks (fun _ _ => offered_drawn_cons hnil) _ _ hsplit

theorem failure_last (h : Transcript sizes events outcome) {before after : List Event} {event : Event}
    {failure : Failure} (hsplit : events = before ++ event :: after) (hfailure : event.failure? = some failure) :
    after = [] ∧ outcome = .error failure := by
  cases h with
  | @complete chunks =>
      have hmem : event ∈ rounds chunks := hsplit ▸ List.mem_append_right _ (List.mem_cons_self ..)
      rw [failure_of_mem_rounds hmem] at hfailure
      cases hfailure
  | dry =>
      obtain ⟨hafter, rfl⟩ := eq_last_of_failure (fun _ => failure_of_mem_rounds) hsplit hfailure
      cases hfailure
      exact ⟨hafter, rfl⟩
  | @refused chunks chunk =>
      rw [List.append_cons] at hsplit
      have hcalls : ∀ call ∈ rounds chunks ++ [.drawn chunk.size (.full chunk rfl)], call.failure? = none := by
        intro call hcall
        rcases List.mem_append.mp hcall with hcall | hcall
        · exact failure_of_mem_rounds hcall
        · rw [List.mem_singleton.mp hcall]
          rfl
      obtain ⟨hafter, rfl⟩ := eq_last_of_failure hcalls hsplit hfailure
      cases hfailure
      exact ⟨hafter, rfl⟩

theorem error_cause (h : Transcript sizes events outcome) {failure : Failure} (houtcome : outcome = .error failure) :
    ∃ event ∈ events, event.failure? = some failure := by
  cases h with
  | complete => cases houtcome
  | dry =>
      cases houtcome
      exact ⟨_, List.mem_append_right _ (List.mem_singleton_self _), rfl⟩
  | refused =>
      cases houtcome
      exact ⟨_, List.mem_append_right _ (List.mem_cons_of_mem _ (List.mem_singleton_self _)), rfl⟩

theorem calls (h : Transcript sizes events outcome) : (events.filterMap Event.request?).length =
    (events.filterMap Event.taken?).length + if events.any fun event => event.failure?.isSome then 1 else 0 := by
  cases h with
  | complete => simp
  | dry => simp [List.filterMap_cons, Event.request?, Event.taken?, Event.failure?]
  | refused => simp [List.filterMap_cons, Event.request?, Event.taken?, Event.failure?]

theorem complete_of_ok (h : Transcript sizes events outcome) {count : Nat} (houtcome : outcome = .ok count) :
    (events.any fun event => event.failure?.isSome) = false ∧ (events.filterMap Event.taken?).length = count ∧
      (events.filterMap Event.taken?).map ByteArray.size = sizes := by
  cases h with
  | complete hsizes =>
      cases houtcome
      simp [hsizes]
  | dry => cases houtcome
  | refused => cases houtcome

theorem balance (h : Transcript sizes events outcome) : (events.map Event.dealt).sum =
    ((events.filterMap Event.taken?).map ByteArray.size).sum +
      ((events.filterMap Event.refused?).map ByteArray.size).sum + (events.map Event.spilt).sum := by
  cases h with
  | complete => simp
  | dry => simp [List.filterMap_cons, Event.taken?, Event.refused?, Event.dealt, Event.spilt, Draw.bytes]
  | refused => simp [List.filterMap_cons, Event.taken?, Event.refused?, Event.dealt, Event.spilt, Draw.bytes]

end Transcript

/-! ## Every run is accounted for -/

theorem accounted_of_transcript {record : Record}
    (h : Transcript record.sizes record.events (record.outcome.map UInt64.toNat)) : record.Accounted where
  taken_prefix := h.taken_prefix
  offered_drawn _ _ _ _ hsplit := h.offered_drawn hsplit
  stops before event after hsplit hfails := by
    obtain ⟨failure, hfailure⟩ := Option.isSome_iff_exists.mp hfails
    exact (h.failure_last hsplit hfailure).1
  failure_returned event hevent failure hfailure := by
    obtain ⟨before, after, hsplit⟩ := List.append_of_mem hevent
    have houtcome := (h.failure_last hsplit hfailure).2
    rcases hout : record.outcome with other | count
    · rw [hout] at houtcome
      cases houtcome
      rfl
    · rw [hout] at houtcome
      cases houtcome
  calls := h.calls
  complete count houtcome := h.complete_of_ok (by rw [houtcome]; rfl)
  error_cause failure houtcome := Or.inl (h.error_cause (by rw [houtcome]; rfl))
  balance := h.balance

/-- A run that made no call, for want of a chunk size or of a buffer. -/
theorem accounted_of_no_calls {record : Record} {failure : Failure} (houtcome : record.outcome = .error failure)
    (hevents : record.events = [])
    (hcause : record.chunk = 0 ∧ failure = .size .zeroChunkSize ∨
      largestBuffer < min record.chunk.toNat record.target.toNat ∧ failure = .noBuffer) : record.Accounted where
  taken_prefix := by simp [Record.taken, hevents]
  offered_drawn before chunk answer after hsplit := by simp [hevents] at hsplit
  stops before event after hsplit := by simp [hevents] at hsplit
  failure_returned event hevent := by simp [hevents] at hevent
  calls := by simp [Record.requests, Record.taken, Record.failed, hevents]
  complete count hcount := by rw [houtcome] at hcount; cases hcount
  error_cause other hother := by
    rw [houtcome] at hother
    cases hother
    exact Or.inr ⟨hevents, hcause⟩
  balance := by simp [Record.dealt, Record.taken, Record.refused, Record.spilt, hevents]

theorem recordRun_accounted (target chunk : UInt64) (source : σ) (writer : τ) :
    (recordRun deal accept target chunk source writer).1.Accounted := by
  by_cases hchunk : chunk = 0
  · subst hchunk
    exact accounted_of_no_calls rfl rfl (Or.inl ⟨rfl, rfl⟩)
  rcases Nat.lt_or_ge largestBuffer (min chunk.toNat target.toNat) with hlarge | hroom
  · have hrun := writeChunks_noBuffer (Exchange.draw deal) (Exchange.write accept) hchunk hlarge
    refine accounted_of_no_calls ?_ ?_ (Or.inr ⟨hlarge, rfl⟩)
    · simp only [recordRun, hrun, runFrom_throw]
    · simp only [recordRun, hrun, runFrom_throw]
  · refine accounted_of_transcript ?_
    have hscript := transcript_drain deal accept (toNat_pos hchunk) target.toNat source writer
    simp only [runFrom_writeChunks deal accept hchunk hroom] at hscript
    exact hscript

theorem requests_history (runs : List (UInt64 × UInt64)) (source : σ) (writer : τ) :
    (history deal accept runs source writer).map (fun record => (record.target, record.chunk)) = runs := by
  induction runs generalizing source writer with
  | nil => rfl
  | cons run runs ih =>
      rw [history, List.map_cons, ih]
      rfl

theorem accounted_of_mem_history {runs : List (UInt64 × UInt64)} {source : σ} {writer : τ} {record : Record}
    (h : record ∈ history deal accept runs source writer) : record.Accounted := by
  induction runs generalizing source writer with
  | nil => cases h
  | cons run runs ih =>
      rcases List.mem_cons.mp h with rfl | hlater
      · exact recordRun_accounted deal accept _ _ source writer
      · exact ih hlater

/-- The records of runs in sequence, with the bytes of all of them accounted for. -/
structure Accounts (runs : List (UInt64 × UInt64)) (records : List Record) : Prop where
  runs_eq : records.map (fun record => (record.target, record.chunk)) = runs
  accounted : ∀ record ∈ records, record.Accounted
  balance : (records.map Record.dealt).sum = (records.map fun record => (record.taken.map ByteArray.size).sum).sum +
    (records.map fun record => (record.refused.map ByteArray.size).sum).sum + (records.map Record.spilt).sum

theorem sum_dealt {records : List Record} (h : ∀ record ∈ records, record.Accounted) :
    (records.map Record.dealt).sum = (records.map fun record => (record.taken.map ByteArray.size).sum).sum +
      (records.map fun record => (record.refused.map ByteArray.size).sum).sum + (records.map Record.spilt).sum := by
  induction records with
  | nil => rfl
  | cons record records ih =>
      have hfirst := (h record (List.mem_cons_self ..)).balance
      have hrest := ih fun later hlater => h later (List.mem_cons_of_mem _ hlater)
      simp only [List.map_cons, List.sum_cons]
      omega

/-- Whatever fails in a history, each of its runs is accounted for, and so are the bytes of all of them. -/
theorem history_accounted (runs : List (UInt64 × UInt64)) (source : σ) (writer : τ) :
    Accounts runs (history deal accept runs source writer) := by
  have haccounted : ∀ record ∈ history deal accept runs source writer, record.Accounted := fun _ =>
    accounted_of_mem_history deal accept
  exact ⟨requests_history deal accept runs source writer, haccounted, sum_dealt haccounted⟩

end NoiseFile
