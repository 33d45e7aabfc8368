import NoiseFile.Failure

/-!
# Running actions that can fail

* `runFrom` : an action on a state that can fail, run from a state, with one equation for each way to build an action;
* `Ends` : what is known at the end of a run (`ends_bind`).
-/

namespace NoiseFile

variable {S α β : Type}

/-- The outcome of an action that can fail, and the state after it. -/
def runFrom (action : ExceptT Failure (StateM S) α) (state : S) : Except Failure α × S :=
  Id.run (action.run.run state)

@[simp] theorem runFrom_pure (value : α) (state : S) :
    runFrom (pure value : ExceptT Failure (StateM S) α) state = (.ok value, state) := rfl

@[simp] theorem runFrom_throw (failure : Failure) (state : S) :
    runFrom (throw failure : ExceptT Failure (StateM S) α) state = (.error failure, state) := rfl

@[simp] theorem runFrom_lift (action : StateM S α) (state : S) :
    runFrom (liftM action : ExceptT Failure (StateM S) α) state = (.ok (action state).1, (action state).2) := rfl

theorem runFrom_bind (action : ExceptT Failure (StateM S) α) (next : α → ExceptT Failure (StateM S) β) (state : S) :
    runFrom (action >>= next) state = match runFrom action state with
      | (.ok value, after) => runFrom (next value) after
      | (.error failure, after) => (.error failure, after) := by
  unfold runFrom ExceptT.run StateT.run Id.run
  show StateT.bind action (ExceptT.bindCont next) state = _
  unfold StateT.bind
  simp only [bind]
  rcases action state with ⟨_ | _, after⟩ <;> rfl

theorem runFrom_map (f : α → β) (action : ExceptT Failure (StateM S) α) (state : S) :
    runFrom (f <$> action) state = ((runFrom action state).1.map f, (runFrom action state).2) := by
  rw [map_eq_pure_bind, runFrom_bind]
  rcases runFrom action state with ⟨_ | _, after⟩ <;> rfl

/-! ## Where a run ends -/

/-- What is known of a run's value and last state, or of its failure and last state. -/
def Ends (Done : α → S → Prop) (Broken : Failure → S → Prop) : Except Failure α × S → Prop
  | (.ok value, after) => Done value after
  | (.error failure, after) => Broken failure after

theorem Ends.mono {Done Done' : α → S → Prop} {Broken Broken' : Failure → S → Prop} {result : Except Failure α × S}
    (h : Ends Done Broken result) (hdone : ∀ value after, Done value after → Done' value after)
    (hbroken : ∀ failure after, Broken failure after → Broken' failure after) : Ends Done' Broken' result := by
  rcases result with ⟨failure | value, after⟩
  · exact hbroken failure after h
  · exact hdone value after h

theorem Ends.and {Done Done' : α → S → Prop} {Broken Broken' : Failure → S → Prop} {result : Except Failure α × S}
    (h : Ends Done Broken result) (h' : Ends Done' Broken' result) :
    Ends (fun value after => Done value after ∧ Done' value after)
      (fun failure after => Broken failure after ∧ Broken' failure after) result := by
  rcases result with ⟨failure | value, after⟩ <;> exact ⟨h, h'⟩

theorem ends_bind {action : ExceptT Failure (StateM S) α} {next : α → ExceptT Failure (StateM S) β} {state : S}
    {Done : β → S → Prop} {Broken : Failure → S → Prop}
    (h : Ends (fun value after => Ends Done Broken (runFrom (next value) after)) Broken (runFrom action state)) :
    Ends Done Broken (runFrom (action >>= next) state) := by
  rw [runFrom_bind]
  rcases hrun : runFrom action state with ⟨failure | value, after⟩
  · rwa [hrun] at h
  · rwa [hrun] at h

end NoiseFile
