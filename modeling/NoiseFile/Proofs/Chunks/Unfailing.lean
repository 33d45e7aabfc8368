import NoiseFile.Proofs.Chunks.Accounting

/-!
# Runs where nothing fails

* `Unfailing`, `Willing` : a source that gives every request in full, and a writer that takes every chunk;
* `Record.offers`, `Record.lengths` : the chunks that a run hands to its writer, and how long they are;
* `Record.LaidOut` : a run that succeeds, and whose chunks are cut as its target and its chunk size say;
* `recordRun_laidOut` : between an unfailing source and a willing writer every run is laid out so, whatever the bytes are.
-/

namespace NoiseFile

variable {σ τ : Type}

def Unfailing (deal : σ → (n : Nat) → Draw n × σ) : Prop :=
  ∀ source n, ∃ bytes size_eq, (deal source n).1 = .full bytes size_eq

def Willing (accept : τ → ByteArray → Except Failure Unit × τ) : Prop :=
  ∀ writer chunk, (accept writer chunk).1 = .ok ()

/-! ## Chunks handed over -/

def Event.offer? : Event → Option ByteArray
  | .drawn _ _ => none
  | .offered chunk _ => some chunk

namespace Record

/-- The chunks handed to the writer, one for each of its calls. -/
def offers (record : Record) : List ByteArray := record.events.filterMap Event.offer?

def lengths (record : Record) : List Nat := record.offers.map ByteArray.size

/-- A run that succeeds, with its target cut into chunks. -/
structure LaidOut (record : Record) : Prop where
  /-- Each chunk is drawn by one request, and handed over by one call right behind it. -/
  events_eq : record.events = rounds record.offers
  counted : ∃ count, record.outcome = .ok count ∧ record.offers.length = count.toNat ∧
    record.requests.length = count.toNat ∧
    count.toNat = (record.target.toNat + record.chunk.toNat - 1) / record.chunk.toNat
  requests_eq : record.requests = record.lengths
  /-- Target and chunk size alone decide on the lengths. -/
  lengths_eq : record.lengths = record.sizes
  full : ∀ n ∈ record.lengths.dropLast, n = record.chunk.toNat
  last : ∀ n, record.lengths.getLast? = some n →
    n = if record.target.toNat % record.chunk.toNat = 0 then record.chunk.toNat
      else record.target.toNat % record.chunk.toNat
  nonempty : ∀ n ∈ record.lengths, 0 < n
  sum_eq : record.lengths.sum = record.target.toNat
  single : 0 < record.target.toNat → record.target.toNat ≤ record.chunk.toNat → record.lengths = [record.target.toNat]

end Record

@[simp] theorem offer_rounds (chunks : List ByteArray) : (rounds chunks).filterMap Event.offer? = chunks := by
  induction chunks with
  | nil => rfl
  | cons chunk chunks ih => simp only [rounds_cons, List.filterMap_cons, Event.offer?, ih]

theorem Transcript.rounds_of_ok {sizes : List Nat} {events : List Event} {outcome : Except Failure Nat} {count : Nat}
    (h : Transcript sizes events outcome) (houtcome : outcome = .ok count) :
    ∃ chunks, events = rounds chunks ∧ sizes = chunks.map ByteArray.size ∧ count = chunks.length := by
  cases h with
  | @complete chunks sizes_eq => exact ⟨chunks, rfl, sizes_eq, (Except.ok.inj houtcome).symm⟩
  | dry => cases houtcome
  | refused => cases houtcome

theorem laidOut_of_rounds {record : Record} {chunks : List ByteArray} {count : UInt64} (hchunk : record.chunk ≠ 0)
    (houtcome : record.outcome = .ok count) (hcount : count.toNat = chunks.length) (hevents : record.events = rounds chunks)
    (hsizes : record.sizes = chunks.map ByteArray.size) : record.LaidOut := by
  have hpos := toNat_pos hchunk
  have hoffers : record.offers = chunks := by rw [Record.offers, hevents, offer_rounds]
  have hlengths : record.lengths = chunkSizes record.chunk.toNat record.target.toNat := by
    rw [Record.lengths, hoffers, ← hsizes]
    rfl
  have hrequests : record.requests = record.lengths := by
    rw [Record.requests, hevents, request_rounds, Record.lengths, hoffers]
  have hlength : record.lengths.length = count.toNat := by
    rw [Record.lengths, hoffers, List.length_map, hcount]
  refine {
    events_eq := by rw [hoffers, hevents]
    counted := ⟨count, houtcome, by rw [hoffers, hcount], by rw [hrequests, hlength], ?_⟩
    requests_eq := hrequests
    lengths_eq := hlengths
    full := ?_, last := ?_, nonempty := ?_, sum_eq := ?_, single := ?_ }
  · rw [← hlength, hlengths, length_chunkSizes hpos]
  · rw [hlengths]
    exact fun n hn => eq_of_mem_dropLast_chunkSizes hn
  · rw [hlengths]
    exact fun n hn => eq_of_getLast?_chunkSizes hn
  · rw [hlengths]
    exact fun n hn => pos_of_mem_chunkSizes hpos hn
  · rw [hlengths, sum_chunkSizes]
  · rw [hlengths]
    exact chunkSizes_of_le

/-! ## Between an unfailing source and a willing writer -/

section Runs
variable {deal : σ → (n : Nat) → Draw n × σ} {accept : τ → ByteArray → Except Failure Unit × τ}
  (hsource : Unfailing deal) (hwriter : Willing accept)
include hsource hwriter

theorem ok_of_unfailing {chunk : Nat} (hchunk : 0 < chunk) (target : Nat) (source : σ) (writer : τ) :
    ∃ count, (runFrom (drain (Exchange.draw deal) (Exchange.write accept) chunk hchunk target) { source, writer }).1 =
      .ok count := by
  have hends : Ends (fun _ _ => True) (fun _ _ => False)
      (runFrom (drain (Exchange.draw deal) (Exchange.write accept) chunk hchunk target) { source, writer }) := by
    refine ends_drain (fun _ _ _ => True) hchunk (fun _ remaining exchange _ _ => ?_) trivial
    obtain ⟨bytes, size_eq, hdraw⟩ := hsource exchange.source (min chunk remaining)
    have haccept := hwriter exchange.writer bytes
    simp only [Exchange.draw, hdraw, Exchange.runFrom_write, haccept]
    trivial
  rcases hrun : runFrom (drain (Exchange.draw deal) (Exchange.write accept) chunk hchunk target) { source, writer } with
    ⟨failure | count, after⟩
  · rw [hrun] at hends
    exact hends.elim
  · exact ⟨count, rfl⟩

theorem laidOut_recordRun {target chunk : UInt64} (hchunk : chunk ≠ 0)
    (hroom : min chunk.toNat target.toNat ≤ largestBuffer) (source : σ) (writer : τ) :
    (recordRun deal accept target chunk source writer).1.LaidOut := by
  generalize hrun : runFrom (writeChunks (Exchange.draw deal) (Exchange.write accept) target chunk)
    ({ source, writer } : Exchange σ τ) = run
  have hscript := transcript_drain deal accept (toNat_pos hchunk) target.toNat source writer
  obtain ⟨rounds, hok⟩ := ok_of_unfailing hsource hwriter (toNat_pos hchunk) target.toNat source writer
  simp only [runFrom_writeChunks deal accept hchunk hroom, hrun] at hscript hok
  obtain ⟨failure | count, after⟩ := run
  · cases hok
  · obtain ⟨chunks, hevents, hsizes, hcount⟩ := Transcript.rounds_of_ok hscript rfl
    have hrecord : (recordRun deal accept target chunk source writer).1 =
        { target, chunk, outcome := .ok count, events := after.events } := by
      simp only [recordRun, hrun]
    rw [hrecord]
    exact laidOut_of_rounds hchunk rfl hcount hevents hsizes

/-- Between a source and a writer that do not fail, every run succeeds with its target laid out in chunks, which are as
long as between any other two. -/
theorem recordRun_laidOut {target chunk : UInt64} (hchunk : chunk ≠ 0)
    (hroom : min chunk.toNat target.toNat ≤ largestBuffer) (source : σ) (writer : τ) :
    (recordRun deal accept target chunk source writer).1.LaidOut ∧
      ∀ {σ' τ' : Type} (deal' : σ' → (n : Nat) → Draw n × σ') (accept' : τ' → ByteArray → Except Failure Unit × τ'),
        Unfailing deal' → Willing accept' → ∀ source' writer',
          (recordRun deal' accept' target chunk source' writer').1.lengths =
            (recordRun deal accept target chunk source writer).1.lengths := by
  have hlaid := laidOut_recordRun hsource hwriter hchunk hroom source writer
  refine ⟨hlaid, ?_⟩
  intro σ' τ' deal' accept' hsource' hwriter' source' writer'
  rw [hlaid.lengths_eq, (laidOut_recordRun hsource' hwriter' hchunk hroom source' writer').lengths_eq]
  rfl

end Runs

/-- The largest target in the largest chunks that can be held: two of them, and one byte. -/
theorem recordRun_laidOut_largest :
    let deal : Nat → (n : Nat) → Draw n × Nat := fun position n => (.full (zeros n) (size_zeros n), position + n)
    let accept : Nat → ByteArray → Except Failure Unit × Nat := fun taken chunk => (.ok (), taken + chunk.size)
    let record := (recordRun deal accept 0xFFFFFFFFFFFFFFFF 0x7FFFFFFFFFFFFFFF 0 0).1
    Unfailing deal ∧ Willing accept ∧ (0x7FFFFFFFFFFFFFFF : UInt64) ≠ 0 ∧
      min (0x7FFFFFFFFFFFFFFF : UInt64).toNat (0xFFFFFFFFFFFFFFFF : UInt64).toNat ≤ largestBuffer ∧
      record.lengths = [0x7FFFFFFFFFFFFFFF, 0x7FFFFFFFFFFFFFFF, 1] ∧ record.outcome = .ok 3 := by
  intro deal accept record
  have hsource : Unfailing deal := fun _ n => ⟨zeros n, size_zeros n, rfl⟩
  have hwriter : Willing accept := fun _ _ => rfl
  have hchunk : (0x7FFFFFFFFFFFFFFF : UInt64) ≠ 0 := by decide
  have hroom : min (0x7FFFFFFFFFFFFFFF : UInt64).toNat (0xFFFFFFFFFFFFFFFF : UInt64).toNat ≤ largestBuffer := by decide
  obtain ⟨hlaid, -⟩ := recordRun_laidOut hsource hwriter hchunk hroom 0 0
  obtain ⟨count, houtcome, -, -, hcount⟩ := hlaid.counted
  have hsizes : chunkSizes (0x7FFFFFFFFFFFFFFF : UInt64).toNat (0xFFFFFFFFFFFFFFFF : UInt64).toNat =
      [0x7FFFFFFFFFFFFFFF, 0x7FFFFFFFFFFFFFFF, 1] := by decide
  have hceiling : ((0xFFFFFFFFFFFFFFFF : UInt64).toNat + (0x7FFFFFFFFFFFFFFF : UInt64).toNat - 1) /
      (0x7FFFFFFFFFFFFFFF : UInt64).toNat = (3 : UInt64).toNat := by decide
  have hthree : count = 3 := UInt64.toNat_inj.mp (hcount.trans hceiling)
  refine ⟨hsource, hwriter, hchunk, hroom, hlaid.lengths_eq.trans hsizes, ?_⟩
  rw [← hthree]
  exact houtcome

end NoiseFile
