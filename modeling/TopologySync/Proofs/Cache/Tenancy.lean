-- Slots that change hands. A key that takes a slot has it until another key
-- takes it over, and gives it up when it leaves or takes another slot; what
-- was taken over from it is no longer its own to give up. Who holds a slot
-- can be told from the moves alone.
import Mathlib.Data.List.Induction
import Std.Data.ExtTreeMap
import TopologySync.Proofs.Lasting

open Std

namespace TopologySync

/-- The slot that each key took last, and the key that holds each slot. -/
@[ext]
structure Tenancy (Key Slot : Type) where
  place : Key → Option Slot
  holder : Slot → Option Key

namespace Tenancy

/-- What a change comes to for the slots. -/
inductive Move (Key Slot : Type) where
  | take (key : Key) (slot : Slot)
  | leave (key : Key)
  | stay

variable {Key Slot : Type}

/-- No key has a place, and no slot is held. -/
def empty : Tenancy Key Slot where
  place _ := none
  holder _ := none

/-! ## Moves -/

/-- Whoever holds a slot has its place there. -/
def Sound (t : Tenancy Key Slot) : Prop :=
  ∀ slot key, t.holder slot = some key → t.place key = some slot

theorem sound_empty : Sound (empty : Tenancy Key Slot) := by
  rintro slot key ⟨⟩

section Moves

variable [DecidableEq Key] [DecidableEq Slot]

/-- The slots without the one that a key has its place in, if it holds it still. -/
def vacate (t : Tenancy Key Slot) (key : Key) (slot : Slot) : Option Key :=
  if t.place key = some slot ∧ t.holder slot = some key then none else t.holder slot

theorem vacate_of_none {t : Tenancy Key Slot} {key : Key} (h : t.place key = none) (slot : Slot) :
    t.vacate key slot = t.holder slot := by
  simp [vacate, h]

theorem vacate_of_some {t : Tenancy Key Slot} {key : Key} {place : Slot}
    (h : t.place key = some place) (slot : Slot) :
    t.vacate key slot =
      if place = slot ∧ t.holder slot = some key then none else t.holder slot := by
  simp [vacate, h]

def step (t : Tenancy Key Slot) : Move Key Slot → Tenancy Key Slot
  | .take key slot => {
      place := fun other => if other = key then some slot else t.place other
      holder := fun other => if other = slot then some key else t.vacate key other }
  | .leave key => {
      place := fun other => if other = key then none else t.place other
      holder := t.vacate key }
  | .stay => t

def after (t : Tenancy Key Slot) (moves : List (Move Key Slot)) : Tenancy Key Slot :=
  moves.foldl step t

variable {t : Tenancy Key Slot}

theorem vacate_eq_some (h : t.Sound) {slot : Slot} {key other : Key} :
    t.vacate other slot = some key ↔ t.holder slot = some key ∧ other ≠ key := by
  unfold vacate
  by_cases hholder : t.holder slot = some other
  · simp [hholder, h slot other hholder]
  · simp only [hholder, and_false, if_false]
    constructor
    · intro hkey
      refine ⟨hkey, ?_⟩
      rintro rfl
      exact hholder hkey
    · exact And.left

theorem sound_step (h : t.Sound) (m : Move Key Slot) : (t.step m).Sound := by
  intro slot key hholder
  cases m with
  | take other slot' =>
    -- Another slot is held by another key, which the move does not displace.
    by_cases hslot : slot = slot'
    · simp only [step, hslot, if_true, Option.some.injEq] at hholder ⊢
      simp [hholder]
    · simp only [step, hslot, if_false, vacate_eq_some h] at hholder
      simp only [step, Ne.symm hholder.2, if_false]
      exact h slot key hholder.1
  | leave other =>
    simp only [step, vacate_eq_some h] at hholder
    simp only [step, Ne.symm hholder.2, if_false]
    exact h slot key hholder.1
  | stay => exact h slot key hholder

theorem sound_after (h : t.Sound) (moves : List (Move Key Slot)) : (t.after moves).Sound :=
  moves.foldlRecOn (motive := Sound) step h fun _ hsound m _ => sound_step hsound m

end Moves

/-! ## What the moves tell -/

section History

/-- Of all keys that took the slot, this one took it last, and since then it has
neither left nor taken another slot. -/
def Holds (moves : List (Move Key Slot)) (slot : Slot) (key : Key) : Prop :=
  ∃ earlier later, moves = earlier ++ .take key slot :: later ∧
    (∀ other, .take other slot ∉ later) ∧ .leave key ∉ later ∧
    ∀ other, other ≠ slot → .take key other ∉ later

/-- A move that ends the hold of a key on a slot, or begins it anew. -/
def Move.Ends (slot : Slot) (key : Key) : Move Key Slot → Prop
  | .take other slot' => slot' = slot ∨ other = key
  | .leave other => other = key
  | .stay => False

theorem holds_iff {moves : List (Move Key Slot)} {slot : Slot} {key : Key} :
    Holds moves slot key ↔
      Lasts (fun _ m => m = .take key slot) (Move.Ends slot key) moves := by
  constructor
  · rintro ⟨earlier, later, hsplit, hslot, hleave, hkey⟩
    refine ⟨earlier, _, later, hsplit, rfl, fun m hm hends => ?_⟩
    cases m with
    | take other slot' =>
      by_cases hsame : slot' = slot
      · exact hslot other (hsame ▸ hm)
      · rcases hends with hthis | rfl
        · exact hsame hthis
        · exact hkey slot' hsame hm
    | leave other => exact hleave (hends ▸ hm)
    | stay => exact hends
  · rintro ⟨earlier, _, later, hsplit, rfl, hsince⟩
    exact ⟨earlier, later, hsplit, fun other hm => hsince _ hm (Or.inl rfl),
      fun hm => hsince _ hm rfl, fun other _ hm => hsince _ hm (Or.inr rfl)⟩

/-- A key that holds a slot has taken it just now, or it held it before. -/
theorem holds_snoc {moves : List (Move Key Slot)} {m : Move Key Slot} {slot : Slot} {key : Key} :
    Holds (moves ++ [m]) slot key ↔
      m = .take key slot ∨ Holds moves slot key ∧ ¬ m.Ends slot key := by
  rw [holds_iff, lasts_snoc, ← holds_iff]

variable [DecidableEq Key] [DecidableEq Slot] {t : Tenancy Key Slot}

theorem holder_step (h : t.Sound) (m : Move Key Slot) (slot : Slot) (key : Key) :
    (t.step m).holder slot = some key ↔
      m = .take key slot ∨ t.holder slot = some key ∧ ¬ m.Ends slot key := by
  cases m with
  | take other slot' =>
    by_cases hslot : slot = slot'
    · simp [step, Move.Ends, hslot]
    · simp [step, Move.Ends, hslot, Ne.symm hslot, vacate_eq_some h]
  | leave other => simp [step, Move.Ends, vacate_eq_some h]
  | stay => simp [step, Move.Ends]

/-- Who holds a slot is told by the moves, or has held it before and was not moved. -/
theorem holder_after_of_sound (h : t.Sound) (moves : List (Move Key Slot)) (slot : Slot)
    (key : Key) :
    (t.after moves).holder slot = some key ↔
      Holds moves slot key ∨ t.holder slot = some key ∧ ∀ m ∈ moves, ¬ m.Ends slot key := by
  induction moves using List.reverseRecOn with
  | nil =>
    have hnone : ¬ Holds ([] : List (Move Key Slot)) slot key :=
      fun hholds => not_lasts_nil (holds_iff.1 hholds)
    simp [after, hnone]
  | append_singleton moves m ih =>
    rw [holds_snoc, after, List.foldl_append]
    refine (holder_step (sound_after h moves) m slot key).trans ?_
    rw [ih, List.forall_mem_append, List.forall_mem_singleton]
    tauto

/-- A slot is held by the key that the moves tell. -/
theorem holder_after (moves : List (Move Key Slot)) (slot : Slot) (key : Key) :
    (empty.after moves).holder slot = some key ↔ Holds moves slot key := by
  rw [holder_after_of_sound sound_empty]
  simp [empty]

/-- Moves that are made again leave every slot to whom they left it before. -/
theorem holder_after_after (h : t.Sound) (moves : List (Move Key Slot)) (slot : Slot) :
    ((t.after moves).after moves).holder slot = (t.after moves).holder slot := by
  apply Option.ext
  intro key
  rw [holder_after_of_sound (sound_after h moves), holder_after_of_sound h]
  tauto

/-- A state in which every change is a move goes the way of its moves. -/
theorem view_after {σ ω : Type} {apply : σ → ω → σ} {view : σ → Tenancy Key Slot}
    {move : ω → Move Key Slot} (h : ∀ s op, view (apply s op) = (view s).step (move op))
    (s : σ) (ops : List ω) : view (ops.foldl apply s) = (view s).after (ops.map move) := by
  induction ops generalizing s with
  | nil => rfl
  | cons op rest ih =>
    rw [List.foldl_cons, ih, h]
    rfl

end History

/-! ## Records -/

/-- The slots as records have them by key, and as an index has them. -/
def ofRecords {ρ Slot : Type} (records : ExtTreeMap String ρ) (home : ρ → Slot)
    (holder : Slot → Option String) : Tenancy String Slot where
  place key := records[key]?.map home
  holder := holder

section Tables

variable {ρ Slot : Type} [DecidableEq Slot] {records : ExtTreeMap String ρ} {home : ρ → Slot}
  {holder left taken : Slot → Option String} {key : String} {record : ρ}

/-- A record that is stored gives up the slot of the record it replaces, if that is
another one, and then takes its own. -/
theorem ofRecords_store
    (hstays : (∀ previous, records[key]? = some previous → home previous = home record) →
      ∀ slot, left slot = holder slot)
    (hmoves : ∀ previous, records[key]? = some previous → home previous ≠ home record →
      ∀ slot, left slot =
        if home previous = slot ∧ holder slot = some key then none else holder slot)
    (htaken : ∀ slot, taken slot = if home record = slot then some key else left slot) :
    ofRecords (records.insert key record) home taken =
      (ofRecords records home holder).step (.take key (home record)) := by
  refine Tenancy.ext (funext fun other => ?_) (funext fun slot => ?_)
  · by_cases hkey : other = key
    · simp [ofRecords, step, hkey]
    · simp [ofRecords, step, ExtTreeMap.getElem?_insert, hkey, Ne.symm hkey]
  · by_cases hslot : slot = home record
    · simp [ofRecords, step, htaken, hslot]
    · have hvacated : left slot = (ofRecords records home holder).vacate key slot := by
        rcases hknown : records[key]? with _ | previous
        · have hplace : (ofRecords records home holder).place key = none := by
            simp [ofRecords, hknown]
          rw [vacate_of_none hplace]
          exact hstays (by simp [hknown]) slot
        · have hplace : (ofRecords records home holder).place key = some (home previous) := by
            simp [ofRecords, hknown]
          rw [vacate_of_some hplace]
          by_cases hsame : home previous = home record
          · rw [hstays (by simp [hknown, hsame]) slot, hsame, if_neg (fun h => hslot h.1.symm)]
            rfl
          · exact hmoves previous hknown hsame slot
      simp only [step, hslot, if_false, ← hvacated]
      simp [ofRecords, htaken, Ne.symm hslot]

theorem ofRecords_remove (hknown : records[key]? = some record)
    (hleft : ∀ slot, left slot =
      if home record = slot ∧ holder slot = some key then none else holder slot) :
    ofRecords (records.erase key) home left =
      (ofRecords records home holder).step (.leave key) := by
  refine Tenancy.ext (funext fun other => ?_) (funext fun slot => ?_)
  · by_cases hkey : other = key
    · simp [ofRecords, step, hkey]
    · simp [ofRecords, step, ExtTreeMap.getElem?_erase, hkey, Ne.symm hkey]
  · simp [ofRecords, step, vacate, hleft, hknown]

/-- A record that is not there has nothing to leave. -/
theorem ofRecords_unknown (hknown : records[key]? = none) :
    (ofRecords records home holder).step (.leave key) = ofRecords records home holder := by
  refine Tenancy.ext (funext fun other => ?_) (funext fun slot => ?_)
  · by_cases hkey : other = key
    · simp [ofRecords, step, hkey, hknown]
    · simp [ofRecords, step, hkey]
  · simp [ofRecords, step, vacate, hknown]

omit [DecidableEq Slot] in
/-- Where whoever holds a slot has its place there, there is a record to show for it. -/
theorem record_of_holder (h : (ofRecords records home holder).Sound) {slot : Slot}
    (hholder : holder slot = some key) :
    ∃ record, records[key]? = some record ∧ home record = slot :=
  Option.map_eq_some_iff.1 (h slot key hholder)

end Tables

end Tenancy

end TopologySync
