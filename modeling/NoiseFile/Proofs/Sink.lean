import NoiseFile.World

/-!
# Sinks that take what they are offered in parts

* `Outlet.offer_append` : offering two stretches of bytes one after the other is offering both at once;
* `WritesAll`, `WritesPieces` : writing bytes, and several stretches of them, to a sink of any kind, call after call until
  nothing is left or a call fails; how that ends is settled (`WritesPieces.unique`);
* `Roomy` : a sink that takes what an outlet has room for, in parts of any size, and then refuses;
* `writesPieces_roomy` : writing stretches to such a sink ends as offering all of them to the outlet ends.
-/

namespace NoiseFile

/-! ## Offers one after the other -/

namespace Outlet

theorem offer_of_room {outlet : Outlet} {room : Nat} (h : outlet.room = some room) (bytes : ByteArray) :
    outlet.offer bytes = (if bytes.size ≤ room then .ok () else .error outlet.refusal, { outlet with
      taken := outlet.taken ++ bytes.extract 0 (min room bytes.size), room := some (room - bytes.size) }) := by
  simp only [offer, h]

theorem room_offer {outlet : Outlet} {room : Nat} (h : outlet.room = some room) (bytes : ByteArray) :
    (outlet.offer bytes).2.room = some (room - bytes.size) := by
  rw [offer_of_room h]

theorem refusal_offer (outlet : Outlet) (bytes : ByteArray) : (outlet.offer bytes).2.refusal = outlet.refusal := by
  unfold offer
  cases outlet.room <;> rfl

theorem offer_append (outlet : Outlet) (bytes more : ByteArray) :
    outlet.offer (bytes ++ more) = match outlet.offer bytes with
      | (.ok (), next) => next.offer more
      | (.error fault, next) => (.error fault, next) := by
  rcases hroom : outlet.room with _ | room
  · simp [offer, hroom, ByteArray.append_assoc]
  have hsize : (bytes ++ more).size = bytes.size + more.size := ByteArray.size_append
  by_cases hfits : bytes.size ≤ room
  · have htaken : (bytes ++ more).extract 0 (min room (bytes ++ more).size) =
        bytes.extract 0 (min room bytes.size) ++ more.extract 0 (min (room - bytes.size) more.size) := by
      have hrest : min room (bytes.size + more.size) - bytes.size = min (room - bytes.size) more.size := by omega
      rw [ByteArray.extract_append, hsize, extract_of_size_le (by omega), extract_of_size_le (by omega), hrest,
        Nat.zero_sub]
    have hleft : room - (bytes ++ more).size = room - bytes.size - more.size := by omega
    have hall : (bytes ++ more).size ≤ room ↔ more.size ≤ room - bytes.size := by omega
    rw [offer_of_room hroom, offer_of_room hroom, if_pos hfits]
    dsimp only
    rw [offer_of_room rfl]
    simp only [htaken, hleft, hall, ByteArray.append_assoc]
  · have htaken : (bytes ++ more).extract 0 (min room (bytes ++ more).size) =
        bytes.extract 0 (min room bytes.size) := by
      have hbefore : min room (bytes.size + more.size) = min room bytes.size := by omega
      have hnone : min room bytes.size - bytes.size = 0 := by omega
      rw [ByteArray.extract_append, hsize, hbefore, hnone, Nat.zero_sub, ByteArray.extract_same, ByteArray.append_empty]
    have hleft : room - (bytes ++ more).size = room - bytes.size := by omega
    have hmore : ¬(bytes ++ more).size ≤ room := by omega
    rw [offer_of_room hroom, offer_of_room hroom, if_neg hfits, if_neg hmore, htaken, hleft]

theorem offer_nothing (outlet : Outlet) {bytes : ByteArray} (h : bytes.size = 0) :
    outlet.offer bytes = (.ok (), outlet) := by
  obtain rfl : bytes = .empty := ByteArray.size_eq_zero_iff.mp h
  obtain ⟨taken, room, refusal⟩ := outlet
  cases room <;> simp [offer]

theorem offer_full {outlet : Outlet} (h : outlet.room = some 0) {bytes : ByteArray} (hsize : bytes.size ≠ 0) :
    outlet.offer bytes = (.error outlet.refusal, outlet) := by
  obtain ⟨taken, room, refusal⟩ := outlet
  obtain rfl : room = some 0 := h
  have hsome : ¬bytes.size ≤ 0 := by omega
  simp [offer, hsome]

end Outlet

/-! ## Call after call -/

/-- What is still to be written after a call for some bytes, or why that fails. A call that was interrupted is made
again; one that takes nothing is a failure. -/
def leftAfter (bytes : ByteArray) : Except SystemFault Nat → Except SystemFault ByteArray
  | .ok 0 => .error .writeZero
  | .ok n => .ok (bytes.extract n bytes.size)
  | .error .interrupted => .ok bytes
  | .error fault => .error fault

theorem leftAfter_ok {n : Nat} (h : 0 < n) (bytes : ByteArray) :
    leftAfter bytes (.ok n) = .ok (bytes.extract n bytes.size) := by
  obtain ⟨n, rfl⟩ := Nat.exists_eq_succ_of_ne_zero (Nat.ne_of_gt h)
  rfl

theorem leftAfter_error {fault : SystemFault} (h : fault ≠ .interrupted) (bytes : ByteArray) :
    leftAfter bytes (.error fault) = .error fault := by
  unfold leftAfter
  split <;> simp_all

section Writing
variable {S : Type} (write : S → ByteArray → Except SystemFault Nat × S)

/-- Writing all of some bytes to a sink, each of whose calls takes a number of them or fails. -/
inductive WritesAll : S → ByteArray → Except SystemFault Unit → S → Prop
  | done {sink : S} {bytes : ByteArray} (nothing : bytes.size = 0) : WritesAll sink bytes (.ok ()) sink
  | goOn {sink after : S} {bytes left : ByteArray} {outcome : Except SystemFault Unit} (something : bytes.size ≠ 0)
      (call : leftAfter bytes (write sink bytes).1 = .ok left) (rest : WritesAll (write sink bytes).2 left outcome after) :
      WritesAll sink bytes outcome after
  | failed {sink : S} {bytes : ByteArray} {fault : SystemFault} (something : bytes.size ≠ 0)
      (call : leftAfter bytes (write sink bytes).1 = .error fault) :
      WritesAll sink bytes (.error fault) (write sink bytes).2

/-- Writing stretches of bytes one after another, up to the first failure. -/
inductive WritesPieces : S → List ByteArray → Except SystemFault Unit → S → Prop
  | done {sink : S} : WritesPieces sink [] (.ok ()) sink
  | next {sink between after : S} {piece : ByteArray} {pieces : List ByteArray} {outcome : Except SystemFault Unit}
      (first : WritesAll write sink piece (.ok ()) between) (rest : WritesPieces between pieces outcome after) :
      WritesPieces sink (piece :: pieces) outcome after
  | failed {sink after : S} {piece : ByteArray} {pieces : List ByteArray} {fault : SystemFault}
      (first : WritesAll write sink piece (.error fault) after) :
      WritesPieces sink (piece :: pieces) (.error fault) after

variable {write}

theorem WritesAll.unique {sink after after' : S} {bytes : ByteArray} {outcome outcome' : Except SystemFault Unit}
    (h : WritesAll write sink bytes outcome after) (h' : WritesAll write sink bytes outcome' after') :
    outcome = outcome' ∧ after = after' := by
  induction h with
  | done nothing =>
      cases h' with
      | done => exact ⟨rfl, rfl⟩
      | goOn something => exact absurd nothing something
      | failed something => exact absurd nothing something
  | goOn something call rest ih =>
      cases h' with
      | done nothing => exact absurd nothing something
      | goOn _ call' rest' =>
          rw [call] at call'
          cases call'
          exact ih rest'
      | failed _ call' =>
          rw [call] at call'
          cases call'
  | failed something call =>
      cases h' with
      | done nothing => exact absurd nothing something
      | goOn _ call' =>
          rw [call] at call'
          cases call'
      | failed _ call' =>
          rw [call] at call'
          cases call'
          exact ⟨rfl, rfl⟩

theorem WritesPieces.unique {sink after after' : S} {pieces : List ByteArray} {outcome outcome' : Except SystemFault Unit}
    (h : WritesPieces write sink pieces outcome after) (h' : WritesPieces write sink pieces outcome' after') :
    outcome = outcome' ∧ after = after' := by
  induction h with
  | done =>
      cases h'
      exact ⟨rfl, rfl⟩
  | next first rest ih =>
      cases h' with
      | next first' rest' =>
          obtain ⟨-, rfl⟩ := first.unique first'
          exact ih rest'
      | failed first' => cases (first.unique first').1
  | failed first =>
      cases h' with
      | next first' => cases (first.unique first').1
      | failed first' =>
          obtain ⟨hfault, rfl⟩ := first.unique first'
          exact ⟨hfault, rfl⟩

/-! ## Sinks with room -/

/-- A sink that is seen as an outlet: a call for some bytes takes at least one and at most as many as there is room for,
and is refused once there is none. -/
structure Roomy (write : S → ByteArray → Except SystemFault Nat × S) (outlet : S → Outlet) : Prop where
  takes : ∀ sink bytes room, (outlet sink).room = some room → 0 < room → bytes.size ≠ 0 →
    ∃ n, 0 < n ∧ n ≤ min room bytes.size ∧ (write sink bytes).1 = .ok n ∧
      outlet (write sink bytes).2 = ((outlet sink).offer (bytes.extract 0 n)).2
  refuses : ∀ sink bytes, (outlet sink).room = some 0 → bytes.size ≠ 0 →
    (write sink bytes).1 = .error (outlet sink).refusal ∧ outlet (write sink bytes).2 = outlet sink

def joined (pieces : List ByteArray) : ByteArray := pieces.foldr (· ++ ·) .empty

section Roomy
variable {outlet : S → Outlet} (hroomy : Roomy write outlet)
include hroomy

theorem writesAll_roomy {sink : S} {room : Nat} (hroom : (outlet sink).room = some room)
    (hrefusal : (outlet sink).refusal ≠ .interrupted) (bytes : ByteArray) :
    ∃ after, WritesAll write sink bytes ((outlet sink).offer bytes).1 after ∧
      outlet after = ((outlet sink).offer bytes).2 := by
  induction hsize : bytes.size using Nat.strongRecOn generalizing sink room bytes with
  | ind size ih =>
      subst hsize
      by_cases hnothing : bytes.size = 0
      · rw [Outlet.offer_nothing _ hnothing]
        exact ⟨sink, .done hnothing, rfl⟩
      rcases Nat.eq_zero_or_pos room with rfl | hpos
      · obtain ⟨hcall, hafter⟩ := hroomy.refuses sink bytes hroom hnothing
        rw [Outlet.offer_full hroom hnothing]
        exact ⟨_, .failed hnothing (by rw [hcall, leftAfter_error hrefusal]), hafter⟩
      · obtain ⟨n, hn, hle, hcall, hafter⟩ := hroomy.takes sink bytes room hroom hpos hnothing
        have hpart : (bytes.extract 0 n).size = n := by
          rw [ByteArray.size_extract]
          omega
        have hleft : (bytes.extract n bytes.size).size < bytes.size := by
          rw [ByteArray.size_extract]
          omega
        have hbytes : bytes.extract 0 n ++ bytes.extract n bytes.size = bytes := by
          rw [← ByteArray.extract_eq_extract_append_extract n (Nat.zero_le n) (by omega), ByteArray.extract_zero_size]
        -- the part that the call takes fits, and the outlet goes on with what is left
        have hoffer : (outlet sink).offer (bytes.extract 0 n) = (.ok (), outlet (write sink bytes).2) := by
          rw [hafter, Outlet.offer_of_room hroom, if_pos (by omega)]
        have hall := Outlet.offer_append (outlet sink) (bytes.extract 0 n) (bytes.extract n bytes.size)
        rw [hbytes, hoffer] at hall
        have hnext : (outlet (write sink bytes).2).room = some (room - n) := by
          rw [hafter, Outlet.room_offer hroom, hpart]
        have hsame : (outlet (write sink bytes).2).refusal = (outlet sink).refusal := by
          rw [hafter, Outlet.refusal_offer]
        obtain ⟨after, hrest, heq⟩ := ih _ hleft hnext (by rwa [hsame]) _ rfl
        rw [hall]
        exact ⟨after, .goOn hnothing (by rw [hcall, leftAfter_ok hn]) hrest, heq⟩

/-- Stretches of bytes, written to a sink with room one after another, end as one offer of all of them to the outlet. -/
theorem writesPieces_roomy {sink : S} {room : Nat} (hroom : (outlet sink).room = some room)
    (hrefusal : (outlet sink).refusal ≠ .interrupted) (pieces : List ByteArray) :
    ∃ after, WritesPieces write sink pieces ((outlet sink).offer (joined pieces)).1 after ∧
      outlet after = ((outlet sink).offer (joined pieces)).2 := by
  induction pieces generalizing sink room with
  | nil =>
      have hnothing : (outlet sink).offer (joined []) = (.ok (), outlet sink) := Outlet.offer_nothing _ rfl
      rw [hnothing]
      exact ⟨sink, .done, rfl⟩
  | cons piece pieces ih =>
      have hjoined : joined (piece :: pieces) = piece ++ joined pieces := rfl
      obtain ⟨between, hfirst, hbetween⟩ := writesAll_roomy hroomy hroom hrefusal piece
      have hbetweenRoom : (outlet between).room = some (room - piece.size) := by
        rw [hbetween, Outlet.room_offer hroom]
      have hbetweenRefusal : (outlet between).refusal ≠ .interrupted := by rwa [hbetween, Outlet.refusal_offer]
      rw [hjoined, Outlet.offer_append]
      rcases hoffer : (outlet sink).offer piece with ⟨fault | _, next⟩
      · rw [hoffer] at hfirst hbetween
        exact ⟨between, .failed hfirst, hbetween⟩
      · rw [hoffer] at hfirst hbetween
        obtain ⟨after, hrest, hafter⟩ := ih hbetweenRoom hbetweenRefusal
        rw [hbetween] at hrest hafter
        exact ⟨after, .next hfirst hrest, hafter⟩

end Roomy

end Writing

end NoiseFile
