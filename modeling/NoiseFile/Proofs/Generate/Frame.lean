import NoiseFile.Proofs.Generate.Stages

/-!
# What no generation touches

* `World.Kept` : a later world of the same machine, whose outlets have not been used in between;
* `Keeps` : an action that fails or not, but leaves such a world, as every part of a generation does;
* `kept_generate` : so does a generation, whatever fails.
-/

namespace NoiseFile

/-! ## Later worlds -/

/-- A later world of the same machine, with nothing new on its outlets. -/
structure World.Kept (before after : World) : Prop where
  home : after.home = before.home
  source : after.source = before.source
  hitch : after.hitch = before.hitch
  output : after.output = before.output
  errors : after.errors = before.errors
  clock : after.clock = before.clock
  operations : before.operations ≤ after.operations
  calls : before.cursor.calls ≤ after.cursor.calls

namespace World

theorem Kept.refl (world : World) : world.Kept world := ⟨rfl, rfl, rfl, rfl, rfl, rfl, Nat.le_refl _, Nat.le_refl _⟩

theorem Kept.trans {first second third : World} (h : first.Kept second) (h' : second.Kept third) : first.Kept third :=
  ⟨h'.home.trans h.home, h'.source.trans h.source, h'.hitch.trans h.hitch, h'.output.trans h.output,
    h'.errors.trans h.errors, h'.clock.trans h.clock, Nat.le_trans h.operations h'.operations,
    Nat.le_trans h.calls h'.calls⟩

theorem Kept.faultless {before after : World} (h : before.Kept after) (hfaultless : before.Faultless) :
    after.Faultless := by
  refine ⟨fun n hn => ?_, fun n hn => ?_⟩
  · rw [h.hitch]
    exact hfaultless.hitch n (Nat.le_trans h.operations hn)
  · rw [h.source]
    exact hfaultless.cut n (Nat.le_trans h.calls hn)

/-! ## Operations -/

theorem kept_begun (world : World) : world.Kept world.begun :=
  { Kept.refl world with operations := Nat.le_succ _ }

theorem kept_draw (n : Nat) (world : World) : world.Kept (World.draw n world).2 := by
  unfold World.draw Source.deal
  cases world.source.cut world.cursor.calls with
  | none => exact { Kept.refl world with calls := Nat.le_succ _ }
  | some cut => exact { Kept.refl world with calls := Nat.le_succ _ }

theorem kept_create (path : String) (world : World) : world.Kept (World.create path world).2 := by
  unfold World.create
  cases world.tree.create world.home path with
  | error fault => exact .refl world
  | ok opened => exact { Kept.refl world with }

theorem kept_put (handle : Nat) (bytes : ByteArray) (world : World) : world.Kept (put handle bytes world).2 := by
  unfold put
  cases world.opened[handle]? with
  | none => exact .refl world
  | some file =>
      dsimp only
      cases world.tree.writeAt file.place file.offset bytes with
      | error fault => exact .refl world
      | ok tree => exact { Kept.refl world with }

theorem kept_write (handle : Nat) (bytes : ByteArray) (world : World) :
    world.Kept (World.write handle bytes world).2 := by
  by_cases hsize : bytes.size = 0
  · rw [write_empty hsize]
    exact .refl world
  · rw [write_eq hsize]
    cases world.hitch world.operations with
    | none => exact world.kept_begun.trans (kept_put handle bytes world.begun)
    | some hitch => exact world.kept_begun.trans (kept_put handle _ world.begun)

theorem size_after (handle : Nat) (world : World) : (World.size handle world).2 = world.begun := by
  unfold World.size
  rw [nextHitch_bind]
  cases world.hitch world.operations with
  | some hitch => rfl
  | none =>
      dsimp only
      rw [get_bind]
      cases world.begun.opened[handle]? <;> rfl

theorem sync_after (handle : Nat) (world : World) : (World.sync handle world).2 = world.begun := by
  unfold World.sync
  rw [nextHitch_bind]
  cases world.hitch world.operations with
  | some hitch => rfl
  | none =>
      dsimp only
      rw [get_bind]
      cases world.begun.opened[handle]? <;> rfl

end World

/-! ## Actions -/

/-- An action that leaves a later world of the same machine, whether it fails or not. -/
def Keeps {α : Type} (action : ExceptT Failure (StateM World) α) : Prop :=
  ∀ world : World, world.Kept (runFrom action world).2

section Actions
variable {α β : Type}

theorem keeps_pure (value : α) : Keeps (pure value) := fun world => .refl world

theorem keeps_throw (failure : Failure) : Keeps (throw failure : ExceptT Failure (StateM World) α) :=
  fun world => .refl world

theorem keeps_bind {action : ExceptT Failure (StateM World) α} {next : α → ExceptT Failure (StateM World) β}
    (h : Keeps action) (hnext : ∀ value, Keeps (next value)) : Keeps (action >>= next) := by
  intro world
  have hkept := h world
  rw [runFrom_bind]
  rcases hrun : runFrom action world with ⟨failure | value, after⟩
  · rw [hrun] at hkept
    exact hkept
  · rw [hrun] at hkept
    exact hkept.trans (hnext value after)

theorem keeps_throw_bind (failure : Failure) (next : α → ExceptT Failure (StateM World) β) :
    Keeps (throw failure >>= next) := fun world => .refl world

theorem keeps_drawFront (buffer : Buffer) (n : Nat) : Keeps (drawFront World.draw buffer n) := by
  unfold drawFront
  split
  · exact keeps_throw_bind _ _
  · refine keeps_bind (World.kept_draw n) fun drawn => ?_
    split
    · exact keeps_pure _
    · exact keeps_throw _

theorem keeps_writeFrom {write : ByteArray → ExceptT Failure (StateM World) Unit} (hwrite : ∀ bytes, Keeps (write bytes))
    (layout : Layout) (left : Nat) (buffer : Buffer) : Keeps (writeFrom World.draw write layout left buffer) := by
  induction left generalizing buffer with
  | zero => exact keeps_pure ()
  | succ left ih =>
      rw [writeFrom]
      exact keeps_bind (keeps_drawFront buffer _) fun filled => keeps_bind (hwrite _) fun _ => ih filled

theorem keeps_writeChunks {write : ByteArray → ExceptT Failure (StateM World) Unit}
    (hwrite : ∀ bytes, Keeps (write bytes)) (target chunk : UInt64) :
    Keeps (writeChunks World.draw write target chunk) := by
  unfold writeChunks
  split
  · exact keeps_throw _
  · split
    · exact keeps_throw _
    · exact keeps_bind (keeps_writeFrom hwrite _ _ _) fun _ => keeps_pure _

theorem keeps_accepted (result : Except SizeFault α) :
    Keeps (accepted result : ExceptT Failure (StateM World) α) := by
  intro world
  rw [runFrom_accepted]
  exact .refl world

end Actions

theorem keeps_generate (request : Request) : Keeps (generate request) := by
  unfold generate
  refine keeps_bind (keeps_accepted _) fun target => keeps_bind (keeps_accepted _) fun _ =>
    keeps_bind (fun world => .refl world) fun start => keeps_bind (fun world => ?_) fun file =>
    keeps_bind (keeps_writeChunks (fun bytes world => ?_) _ _) fun chunks => keeps_bind (fun world => ?_) fun written =>
    keeps_bind (fun world => ?_) fun _ => keeps_bind (fun world => .refl world) fun finish => keeps_pure _
  · rw [runFrom_create]
    exact World.kept_create request.outFile world
  · exact World.kept_write file.handle bytes world
  · rw [World.runFrom_size, World.size_after]
    exact world.kept_begun
  · rw [World.runFrom_close, World.sync_after]
    exact world.kept_begun

theorem kept_generate (request : Request) (world : World) : world.Kept (generateIn request world).2 :=
  keeps_generate request world

end NoiseFile
