-- What a window holds. A push takes out the oldest value if there is no room, and none
-- otherwise. So after any sequence of pushes the window holds the last values of the
-- sequence, as many as it has room for.
import TopologySync.Proofs.Metric.Windows
import Mathlib.Data.List.DropRight

namespace TopologySync

theorem rtake_rtake_append {α : Type} (n : Nat) (before after : List α) :
    (before.rtake n ++ after).rtake n = (before ++ after).rtake n := by
  unfold List.rtake
  rw [← List.drop_append_of_le_length (by omega), List.drop_drop, List.length_drop]
  congr 1
  simp only [List.length_append]
  omega

theorem map_rtake {α β : Type} (f : α → β) (n : Nat) (values : List α) :
    (values.rtake n).map f = (values.map f).rtake n := by
  unfold List.rtake
  rw [List.map_drop, List.length_map]

theorem length_rtake {α : Type} (n : Nat) (values : List α) :
    (values.rtake n).length = min n values.length := by
  unfold List.rtake
  rw [List.length_drop]
  omega

namespace RollingWindow

variable {window : RollingWindow}

/-! ## One push -/

theorem isFull_iff : window.isFull = true ↔ window.values.length = window.capacity :=
  beq_iff_eq

theorem values_ne_nil_of_isFull (h : window.isFull = true) : window.values ≠ [] := by
  have hroom := window.room
  rw [isFull_iff] at h
  exact List.length_pos_iff.1 (by omega)

/-- The value that goes is the oldest one, and all others stay. -/
theorem evicted_append_kept (window : RollingWindow) :
    window.evicted?.toList ++ window.kept = window.values := by
  unfold evicted? kept
  split
  next hfull =>
    obtain ⟨old, rest, hvalues⟩ := List.exists_cons_of_ne_nil (values_ne_nil_of_isFull hfull)
    rw [hvalues]
    rfl
  next => rfl

theorem mem_of_evicted {old : Float} (h : window.evicted? = some old) : old ∈ window.values := by
  rw [← evicted_append_kept, h]
  exact List.mem_append_left _ (List.mem_singleton_self old)

theorem push_of_full (h : window.isFull = true) (x : Float) :
    ∃ old rest, window.values = old :: rest ∧ window.evicted? = some old ∧
      (window.push x).values = rest ++ [x] := by
  obtain ⟨old, rest, hvalues⟩ := List.exists_cons_of_ne_nil (values_ne_nil_of_isFull h)
  refine ⟨old, rest, hvalues, ?_, ?_⟩
  · unfold evicted?
    rw [if_pos h, hvalues]
    rfl
  · unfold push kept
    simp only [h, hvalues, if_true, List.tail_cons]

theorem push_of_not_full (h : window.isFull = false) (x : Float) :
    window.evicted? = none ∧ (window.push x).values = window.values ++ [x] := by
  constructor
  · unfold evicted?
    rw [h]
    rfl
  · unfold push kept
    simp only [h, Bool.false_eq_true, if_false]

theorem evicted_push (window : RollingWindow) (x : Float) :
    window.evicted?.toList ++ (window.push x).values = window.values ++ [x] := by
  rw [← window.evicted_append_kept, List.append_assoc]
  rfl

theorem isSome_evicted (window : RollingWindow) : window.evicted?.isSome = window.isFull := by
  cases hfull : window.isFull with
  | true =>
    obtain ⟨old, rest, -, hevicted, -⟩ := push_of_full hfull 0.0
    rw [hevicted]
    rfl
  | false =>
    rw [(push_of_not_full hfull 0.0).1]
    rfl

theorem values_push (window : RollingWindow) (x : Float) :
    (window.push x).values = (window.values ++ [x]).rtake window.capacity := by
  have hfits := window.fits
  unfold List.rtake
  rw [List.length_append, List.length_singleton]
  cases hfull : window.isFull with
  | true =>
    obtain ⟨old, rest, hvalues, -, hpush⟩ := push_of_full hfull x
    have hlength := isFull_iff.1 hfull
    rw [hpush, hvalues, ← hlength, hvalues, Nat.add_sub_cancel_left]
    rfl
  | false =>
    have hlength : window.values.length ≠ window.capacity := fun hlength => by
      rw [isFull_iff.2 hlength] at hfull
      cases hfull
    rw [(push_of_not_full hfull x).2, Nat.sub_eq_zero_of_le (by omega), List.drop_zero]

/-! ## Pushes in turn -/

/-- Takes in values in turn. -/
def pushAll (window : RollingWindow) (values : List Float) : RollingWindow :=
  values.foldl push window

@[simp]
theorem pushAll_nil (window : RollingWindow) : window.pushAll [] = window :=
  rfl

@[simp]
theorem pushAll_cons (window : RollingWindow) (x : Float) (rest : List Float) :
    window.pushAll (x :: rest) = (window.push x).pushAll rest :=
  rfl

@[simp]
theorem capacity_pushAll (window : RollingWindow) (values : List Float) :
    (window.pushAll values).capacity = window.capacity := by
  induction values generalizing window with
  | nil => rfl
  | cons x rest ih => exact ih (window.push x)

/-- A window holds the last values that were there or came. -/
theorem values_pushAll (window : RollingWindow) (values : List Float) :
    (window.pushAll values).values = (window.values ++ values).rtake window.capacity := by
  induction values generalizing window with
  | nil =>
    have hfits := window.fits
    rw [pushAll_nil, List.append_nil, List.rtake, Nat.sub_eq_zero_of_le hfits, List.drop_zero]
  | cons x rest ih =>
    have hcapacity : (window.push x).capacity = window.capacity := rfl
    rw [pushAll_cons, ih, hcapacity, values_push, rtake_rtake_append, List.append_assoc,
      List.singleton_append]

theorem values_new_pushAll (capacity : Nat) (values : List Float) :
    ((new capacity).pushAll values).values = values.rtake (max capacity 1) :=
  values_pushAll (new capacity) values

end RollingWindow

end TopologySync
