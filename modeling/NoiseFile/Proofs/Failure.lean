import Mathlib.Data.List.Nodup
import NoiseFile.Failure
import NoiseFile.Proofs.Text

/-!
# Messages tell failures apart

* `SystemFault.all`, `SizeFault.all` : the kinds of faults, told apart by their texts (`forFile_injective`,
  `forOutput_injective`, `message_injective`);
* `MessageForm` : how the message of one sort of failure begins, and how the rest of it is read;
* `Failure.ofMessage` : the failure that a line tells of; it reads its own message again (`ofMessage_message`);
* `messages_tell_apart` : so two failures have one message only if they are one, unless a remark is among them.
-/

namespace NoiseFile

/-! ## Kinds -/

section Kinds
variable {α : Type} {kinds : List α} {text : α → String}

theorem injective_of_nodup (hall : ∀ kind, kind ∈ kinds) (h : (kinds.map text).Nodup) : Function.Injective text :=
  fun kind kind' heq => List.inj_on_of_nodup_map h (hall kind) (hall kind') heq

def ofText? (kinds : List α) (text : α → String) (shown : String) : Option α := kinds.find? fun kind => text kind = shown

theorem ofText?_text (h : Function.Injective text) {kind : α} (hkind : kind ∈ kinds) :
    ofText? kinds text (text kind) = some kind := by
  unfold ofText?
  cases hfind : kinds.find? fun kind' => text kind' = text kind with
  | none =>
      have hnone := List.find?_eq_none.mp hfind kind hkind
      simp at hnone
  | some kind' =>
      have hsome := List.find?_some hfind
      rw [h (of_decide_eq_true hsome)]

end Kinds

namespace SystemFault

def all : List SystemFault :=
  [.notFound, .permissionDenied, .connectionRefused, .connectionReset, .hostUnreachable, .networkUnreachable,
    .connectionAborted, .notConnected, .addressInUse, .addressNotAvailable, .networkDown, .brokenPipe, .alreadyExists,
    .wouldBlock, .notADirectory, .isADirectory, .directoryNotEmpty, .readOnlyFilesystem, .filesystemLoop,
    .staleNetworkFileHandle, .invalidInput, .invalidData, .timedOut, .writeZero, .storageFull, .notSeekable,
    .quotaExceeded, .fileTooLarge, .resourceBusy, .executableFileBusy, .deadlock, .crossesDevices, .tooManyLinks,
    .invalidFilename, .argumentListTooLong, .interrupted, .unsupported, .unexpectedEof, .outOfMemory, .inProgress,
    .inputOutputError, .other, .uncategorized]

theorem mem_all (fault : SystemFault) : fault ∈ all := by
  cases fault <;> decide

theorem forFile_injective : Function.Injective forFile := injective_of_nodup mem_all (by decide +kernel)

theorem forOutput_injective : Function.Injective forOutput := injective_of_nodup mem_all (by decide +kernel)

/-- A path that is quoted in front of such a text ends at the last quote. -/
theorem quote_notMem_forFile (fault : SystemFault) : '"' ∉ fault.forFile.toList := by
  cases fault <;> exact not_mem_toList (by decide)

end SystemFault

namespace SizeFault

def all : List SizeFault := [.notANumber, .notFinite, .negative, .tooLarge, .zeroChunkSize]

theorem mem_all (fault : SizeFault) : fault ∈ all := by
  cases fault <;> decide

theorem message_injective : Function.Injective message := injective_of_nodup mem_all (by decide +kernel)

end SizeFault

/-! ## Reading a message -/

theorem dropPrefix?_append (start rest : List Char) : (start ++ rest).dropPrefix? start = some rest :=
  List.dropPrefix?_eq_some_iff.mpr ⟨start, rfl, beq_self_eq_true start⟩

/-- How the message of one sort of failure begins, and how the rest of it is read. -/
structure MessageForm where
  start : String
  read? : List Char → Option Failure

namespace MessageForm

/-- Reads a line that begins as the form does. -/
def readLine? (form : MessageForm) (cs : List Char) : Option Failure :=
  (cs.dropPrefix? form.start.toList).bind form.read?

/-- The failure of a file, from what stands behind the quote in front of its path. -/
def readQuoted? (cs : List Char) : Option Failure :=
  let (path, shown) := splitLast '"' cs
  (ofText? SystemFault.all (" " ++ ·.forFile) (String.ofList shown)).map (.file · (String.ofList path))

def file : MessageForm where
  start := "File error : file \""
  read? := readQuoted?

def random : MessageForm where
  start := "Random error : random source failed : "
  read? cs := some (.random (String.ofList cs))

def size : MessageForm where
  start := "Invalid size : "
  read? cs := (ofText? SizeFault.all SizeFault.message (String.ofList cs)).map .size

def output : MessageForm where
  start := "Output error : stdout "
  read? cs := (ofText? SystemFault.all SystemFault.forOutput (String.ofList cs)).map .output

def noBuffer : MessageForm where
  start := "capacity overflow"
  read? cs := if cs = [] then some .noBuffer else none

def all : List MessageForm := [file, random, size, output, noBuffer]

theorem readLine?_append (form : MessageForm) (rest : List Char) :
    form.readLine? (form.start.toList ++ rest) = form.read? rest := by
  rw [readLine?, dropPrefix?_append]
  rfl

/-- A path may hold quotes and whole messages; the text behind it holds no quote, so the last one is its end. -/
theorem read?_file (fault : SystemFault) (path : String) :
    file.read? (path.toList ++ ("\" " ++ fault.forFile).toList) = some (.file fault path) := by
  have hquote : '"' ∉ (" " ++ fault.forFile).toList := by
    rw [String.toList_append, List.mem_append]
    exact not_or.mpr ⟨by decide, fault.quote_notMem_forFile⟩
  have hinjective : Function.Injective fun fault : SystemFault => " " ++ fault.forFile := fun fault fault' heq =>
    SystemFault.forFile_injective (by simpa using heq)
  have hbehind : ("\" " ++ fault.forFile).toList = '"' :: (" " ++ fault.forFile).toList := by simp
  have hsplit := splitLast_append path.toList hquote
  unfold file readQuoted?
  dsimp only
  rw [hbehind, hsplit]
  dsimp only
  rw [String.ofList_toList, String.ofList_toList, ofText?_text hinjective fault.mem_all]
  rfl

def first (form : MessageForm) : Char := form.start.toList.headD ' '

/-- No line begins with two characters. -/
theorem readLine?_eq_none {form form' : MessageForm} (h : form.start.toList.head? = some form.first)
    (h' : form'.start.toList.head? = some form'.first) (hne : form.first ≠ form'.first) (rest : List Char) :
    form.readLine? (form'.start.toList ++ rest) = none := by
  obtain ⟨cs, hcs⟩ := List.head?_eq_some_iff.mp h
  obtain ⟨cs', hcs'⟩ := List.head?_eq_some_iff.mp h'
  have hfalse : (form'.first == form.first) = false := beq_false_of_ne hne.symm
  rw [readLine?, hcs, hcs', List.cons_append, List.dropPrefix?, hfalse]
  rfl

/-- Of forms that all begin with a character of their own, a line is read in its own one. -/
theorem findSome?_readLine? {forms : List MessageForm}
    (hfirst : ∀ form ∈ forms, form.start.toList.head? = some form.first) (hnodup : (forms.map first).Nodup)
    {form : MessageForm} (hform : form ∈ forms) {rest : List Char} {failure : Failure}
    (hread : form.read? rest = some failure) :
    forms.findSome? (·.readLine? (form.start.toList ++ rest)) = some failure := by
  induction forms with
  | nil => cases hform
  | cons head forms ih =>
      obtain ⟨hhead, hforms⟩ := List.forall_mem_cons.mp hfirst
      obtain ⟨hnot, htail⟩ := List.nodup_cons.mp hnodup
      rcases List.mem_cons.mp hform with rfl | hmem
      · rw [List.findSome?_cons, readLine?_append, hread]
      · have hne : head.first ≠ form.first := fun heq => hnot (List.mem_map.mpr ⟨form, hmem, heq.symm⟩)
        rw [List.findSome?_cons, readLine?_eq_none hhead (hforms form hmem) hne]
        exact ih hforms htail hmem

end MessageForm

namespace Failure

/-- The failure that a line tells of; a line in none of the forms is a remark. -/
def ofMessage (line : String) : Failure :=
  (MessageForm.all.findSome? (·.readLine? line.toList)).getD (.remark line)

theorem ofMessage_of_form {form : MessageForm} (hform : form ∈ MessageForm.all) {line : String} {rest : List Char}
    (hline : line.toList = form.start.toList ++ rest) {failure : Failure} (hread : form.read? rest = some failure) :
    ofMessage line = failure := by
  -- the kernel reads the five first characters; unfolding the texts here would decode them
  have hfirst : ∀ form ∈ MessageForm.all, form.start.toList.head? = some form.first := by decide +kernel
  have hnodup : (MessageForm.all.map MessageForm.first).Nodup := by decide +kernel
  rw [ofMessage, hline, MessageForm.findSome?_readLine? hfirst hnodup hform hread]
  rfl

theorem ofMessage_message {failure : Failure} (h : ∀ text, failure ≠ .remark text) :
    ofMessage failure.message = failure := by
  cases failure with
  | file fault path =>
      have hline : (file fault path).message.toList = MessageForm.file.start.toList ++
          (path.toList ++ ("\" " ++ fault.forFile).toList) := toList_append_four ..
      exact ofMessage_of_form (.head _) hline (MessageForm.read?_file fault path)
  | random reason =>
      have hline : (random reason).message.toList = MessageForm.random.start.toList ++ reason.toList :=
        String.toList_append ..
      exact ofMessage_of_form (.tail _ (.head _)) hline (congrArg (some <| random ·) String.ofList_toList)
  | size fault =>
      have hline : (size fault).message.toList = MessageForm.size.start.toList ++ fault.message.toList :=
        String.toList_append ..
      refine ofMessage_of_form (.tail _ (.tail _ (.head _))) hline ?_
      show (ofText? SizeFault.all SizeFault.message (String.ofList fault.message.toList)).map size = some (size fault)
      rw [String.ofList_toList, ofText?_text SizeFault.message_injective fault.mem_all]
      rfl
  | output fault =>
      have hline : (output fault).message.toList = MessageForm.output.start.toList ++ fault.forOutput.toList :=
        String.toList_append ..
      refine ofMessage_of_form (.tail _ (.tail _ (.tail _ (.head _)))) hline ?_
      show (ofText? SystemFault.all SystemFault.forOutput (String.ofList fault.forOutput.toList)).map output =
        some (output fault)
      rw [String.ofList_toList, ofText?_text SystemFault.forOutput_injective fault.mem_all]
      rfl
  | remark text => exact absurd rfl (h text)
  | noBuffer =>
      have hline : noBuffer.message.toList = MessageForm.noBuffer.start.toList ++ [] := (List.append_nil _).symm
      exact ofMessage_of_form (.tail _ (.tail _ (.tail _ (.tail _ (.head _))))) hline rfl

end Failure

/-- A path that holds the text of another message is still told from the rest of the line. -/
theorem messages_tell_apart {a b : Failure} (ha : ∀ text, a ≠ .remark text) (hb : ∀ text, b ≠ .remark text) :
    Failure.ofMessage a.message = a ∧ (a.message = b.message ↔ a = b) := by
  have hread := Failure.ofMessage_message ha
  refine ⟨hread, fun heq => ?_, congrArg Failure.message⟩
  calc a = Failure.ofMessage a.message := hread.symm
    _ = Failure.ofMessage b.message := congrArg Failure.ofMessage heq
    _ = b := Failure.ofMessage_message hb

/-- The path of the first failure ends as the message of the second does. -/
theorem quoted_message_told_apart :
    let fault := Failure.file .invalidInput "out\" not found (missing directory?)"
    Failure.ofMessage fault.message = fault ∧ fault.message ≠ (Failure.file .notFound "out").message := by
  intro fault
  obtain ⟨hread, hsame⟩ := messages_tell_apart (a := fault) (b := .file .notFound "out") (by simp [fault]) (by simp)
  exact ⟨hread, mt hsame.mp (by decide)⟩

end NoiseFile
