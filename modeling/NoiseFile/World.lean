import NoiseFile.FileSystem.Content
import NoiseFile.FileSystem.Entry
import NoiseFile.Machine

/-!
# A machine in memory

* `World` : a tree with a directory to work in, the open files, a random source, two outlets and a clock;
* `Hitch` : a failure of the storage, met by the operation of a given number on the open files;
* `Outlet` : a text sink that may have room for some bytes only;
* `World.create`, `write`, `size`, `sync`, `draw`, `print`, `complain` : the operations of a machine on it;
* `World.removeFile` : takes away a name; open files keep what it stood for.
-/

namespace NoiseFile

open FileSystem

/-! ## Parts -/

structure OpenFile where
  place : Place
  offset : Nat
  deriving DecidableEq

/-- A failure of the storage; a write brings at most `after` bytes in before it. -/
structure Hitch where
  after : Nat
  fault : SystemFault

/-- A sink of text. With a room it takes that many bytes and then refuses every further one. -/
structure Outlet where
  taken : ByteArray := .empty
  room : Option Nat := none
  refusal : SystemFault := .other

/-- Offers bytes to an outlet, which takes as many as it has room for. -/
def Outlet.offer (outlet : Outlet) (bytes : ByteArray) : Except SystemFault Unit × Outlet :=
  match outlet.room with
  | none => (.ok (), { outlet with taken := outlet.taken ++ bytes })
  | some room =>
    let after := { outlet with
      taken := outlet.taken ++ bytes.extract 0 (min room bytes.size)
      room := some (room - bytes.size) }
    (if bytes.size ≤ room then .ok () else .error outlet.refusal, after)

structure World where
  tree : Tree
  /-- The directory that relative paths begin in. -/
  home : List String
  /-- The files opened so far; a handle is an index. -/
  opened : List OpenFile := []
  source : Source
  cursor : Cursor := {}
  /-- The hitch of an operation on the open files, by the number of operations before it. -/
  hitch : Nat → Option Hitch := fun _ => none
  operations : Nat := 0
  output : Outlet := {}
  errors : Outlet := {}
  /-- The time, by the number of operations on the open files so far. -/
  clock : Nat → Instant := fun _ => {}

namespace World

/-! ## Operations -/

def isDirectory (path : String) : StateM World Bool := fun world =>
  (world.tree.isDirectory world.home path, world)

def create (path : String) : StateM World (Except SystemFault Nat) := fun world =>
  match world.tree.create world.home path with
  | .error fault => (.error fault, world)
  | .ok (tree, place) =>
    (.ok world.opened.length, { world with tree, opened := world.opened ++ [{ place, offset := 0 }] })

/-- The next operation on the open files: the hitch it meets, if any. -/
def nextHitch : StateM World (Option Hitch) := fun world =>
  (world.hitch world.operations, { world with operations := world.operations + 1 })

/-- Puts bytes into an open file at its offset, which moves behind them. -/
def put (handle : Nat) (bytes : ByteArray) : StateM World (Except SystemFault Unit) := fun world =>
  match world.opened[handle]? with
  | none => (.error .uncategorized, world)
  | some file =>
    match world.tree.writeAt file.place file.offset bytes with
    | .error fault => (.error fault, world)
    | .ok tree =>
      (.ok (), { world with
        tree, opened := world.opened.set handle { file with offset := file.offset + bytes.size } })

def write (handle : Nat) (bytes : ByteArray) : StateM World (Except SystemFault Unit) := do
  if bytes.size = 0 then return .ok ()
  match ← nextHitch with
  | none => put handle bytes
  | some hitch =>
    discard (put handle (bytes.extract 0 (min hitch.after bytes.size)))
    return .error hitch.fault

def size (handle : Nat) : StateM World (Except SystemFault UInt64) := do
  match ← nextHitch with
  | some hitch => return .error hitch.fault
  | none =>
    let world ← get
    match world.opened[handle]? with
    | none => return .error .uncategorized
    | some file => return .ok (UInt64.ofNat (world.tree.sizeAt file.place))

def sync (handle : Nat) : StateM World (Except SystemFault Unit) := do
  match ← nextHitch with
  | some hitch => return .error hitch.fault
  | none =>
    let world ← get
    match world.opened[handle]? with
    | none => return .error .uncategorized
    | some file => return world.tree.syncAt file.place

def draw (n : Nat) : StateM World (Draw n) := fun world =>
  let (drawn, cursor) := world.source.deal world.cursor n
  (drawn, { world with cursor })

def print (text : String) : StateM World (Except SystemFault Unit) := fun world =>
  let (outcome, output) := world.output.offer text.toUTF8
  (outcome, { world with output })

def complain (text : String) : StateM World Unit := fun world =>
  ((), { world with errors := (world.errors.offer text.toUTF8).2 })

def time (world : World) : Instant := world.clock world.operations

instance : Machine (StateM World) Nat where
  isDirectory := isDirectory
  create := create
  write := write
  size := size
  sync := sync
  draw := draw
  print := print
  complain := complain
  now := fun world => (world.time, world)

/-! ## Names -/

/-- Takes away the name of a file. What it stood for stays for the files that are open on it. -/
def removeFile (path : String) : StateM World (Except SystemFault Unit) := fun world =>
  match world.tree.entryOf world.home path with
  | .error fault => (.error fault, world)
  | .ok names =>
    match world.tree.node? (.named names) with
    | none => (.error .notFound, world)
    | some .directory => (.error .isADirectory, world)
    | some node =>
      let serial := Place.nameless world.tree.freshSerial
      (.ok (), { world with
        tree := (world.tree.remove (.named names)).set serial node
        opened := world.opened.map fun file =>
          if file.place = .named names then { file with place := serial } else file })

end World

end NoiseFile
