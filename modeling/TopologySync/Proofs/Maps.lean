-- Facts about ordered maps that the laws of cache and graph rest on: what
-- a write that changes nothing comes to, and what a list of values or of
-- entries holds.
import Std.Data.DTreeMap.Internal.WF.Lemmas
import Std.Data.ExtTreeMap
import Std.Data.ExtTreeSet

namespace TopologySync.Maps

open Std

variable {α β : Type} [Ord α] [TransOrd α] [LawfulEqOrd α]

/-! ## Writes -/

theorem modify_eq_insert {m : ExtTreeMap α β} {k : α} {x : β} (f : β → β)
    (h : m[k]? = some x) : m.modify k f = m.insert k (f x) := by
  apply ExtTreeMap.ext_getElem?
  intro k'
  rw [ExtTreeMap.getElem?_modify, ExtTreeMap.getElem?_insert, h]
  rfl

theorem modify_of_notMem {m : ExtTreeMap α β} {k : α} (f : β → β) (h : k ∉ m) :
    m.modify k f = m := by
  apply ExtTreeMap.ext_getElem?
  intro k'
  rw [ExtTreeMap.getElem?_modify]
  split
  · rename_i hk
    rw [← LawfulEqCmp.eq_of_compare hk, ExtTreeMap.getElem?_eq_none h]
    rfl
  · rfl

/-- Writing what is there changes nothing. -/
theorem insert_self {m : ExtTreeMap α β} {k : α} {x : β} (h : m[k]? = some x) :
    m.insert k x = m := by
  apply ExtTreeMap.ext_getElem?
  intro k'
  rw [ExtTreeMap.getElem?_insert]
  split
  · rename_i hk
    rw [← LawfulEqCmp.eq_of_compare hk]
    exact h.symm
  · rfl

theorem insert_insert (m : ExtTreeMap α β) (k : α) (x y : β) :
    (m.insert k x).insert k y = m.insert k y := by
  apply ExtTreeMap.ext_getElem?
  intro k'
  simp only [ExtTreeMap.getElem?_insert]
  split <;> rfl

theorem insert_erase (m : ExtTreeMap α β) (k : α) (x : β) :
    (m.erase k).insert k x = m.insert k x := by
  apply ExtTreeMap.ext_getElem?
  intro k'
  simp only [ExtTreeMap.getElem?_insert, ExtTreeMap.getElem?_erase]
  split <;> rfl

theorem erase_insert (m : ExtTreeMap α β) (k : α) (x : β) :
    (m.insert k x).erase k = m.erase k := by
  apply ExtTreeMap.ext_getElem?
  intro k'
  simp only [ExtTreeMap.getElem?_erase, ExtTreeMap.getElem?_insert]
  split <;> rfl

theorem insertIfNew_of_mem {m : ExtTreeMap α β} {k : α} (x : β) (h : k ∈ m) :
    m.insertIfNew k x = m := by
  apply ExtTreeMap.ext_getElem?
  intro k'
  simp [ExtTreeMap.getElem?_insertIfNew, h]

theorem insertIfNew_of_notMem {m : ExtTreeMap α β} {k : α} (x : β) (h : k ∉ m) :
    m.insertIfNew k x = m.insert k x := by
  apply ExtTreeMap.ext_getElem?
  intro k'
  simp only [ExtTreeMap.getElem?_insertIfNew, ExtTreeMap.getElem?_insert, h,
    not_false_eq_true, and_true]

/-- Writes under different keys may change places. -/
theorem insert_comm (m : ExtTreeMap α β) {k k' : α} (x x' : β) (h : k ≠ k') :
    (m.insert k x).insert k' x' = (m.insert k' x').insert k x := by
  apply ExtTreeMap.ext_getElem?
  intro key
  simp only [ExtTreeMap.getElem?_insert]
  split
  · rename_i hk'
    rw [← Std.compare_eq_iff_eq.1 hk', if_neg (fun hk => h (Std.compare_eq_iff_eq.1 hk))]
  · rfl

/-- First writes under different keys may change places, and so may two of
the same value. -/
theorem insertIfNew_comm (m : ExtTreeMap α β) {k k' : α} {x x' : β} (h : k = k' → x = x') :
    (m.insertIfNew k x).insertIfNew k' x' = (m.insertIfNew k' x').insertIfNew k x := by
  by_cases hk : k = k'
  · cases h hk
    cases hk
    rfl
  · have hother : ∀ {k k' : α} (x : β), k ≠ k' → (k' ∈ m.insertIfNew k x ↔ k' ∈ m) := by
      intro k k' x hne
      simp [hne]
    apply ExtTreeMap.ext_getElem?
    intro key
    rw [ExtTreeMap.getElem?_insertIfNew, ExtTreeMap.getElem?_insertIfNew,
      ExtTreeMap.getElem?_insertIfNew, ExtTreeMap.getElem?_insertIfNew]
    simp only [hother x hk, hother x' (Ne.symm hk)]
    split
    · rename_i hk'
      rw [← Std.compare_eq_iff_eq.1 hk'.1, if_neg (fun hkey => hk (Std.compare_eq_iff_eq.1 hkey.1))]
    · rfl

theorem insertIfNew_insert_comm (m : ExtTreeMap α β) {k k' : α} (x x' : β) (h : k ≠ k') :
    (m.insertIfNew k x).insert k' x' = (m.insert k' x').insertIfNew k x := by
  by_cases hk : k ∈ m
  · have hk' : k ∈ m.insert k' x' := ExtTreeMap.mem_insert.2 (Or.inr hk)
    rw [insertIfNew_of_mem x hk, insertIfNew_of_mem x hk']
  · have hk' : k ∉ m.insert k' x' := by simp [hk, Ne.symm h]
    rw [insertIfNew_of_notMem x hk, insertIfNew_of_notMem x hk', insert_comm m x x' h]

omit [LawfulEqOrd α] in
theorem mem_iff_exists {m : ExtTreeMap α β} {k : α} : k ∈ m ↔ ∃ x, m[k]? = some x := by
  rw [ExtTreeMap.mem_iff_isSome_getElem?, Option.isSome_iff_exists]

/-- A map in which records stand under their own keys takes another record
under its own key. -/
theorem own_key_insert {own : β → α} {m : ExtTreeMap α β}
    (h : ∀ k x, m[k]? = some x → own x = k) {k' : α} {x' : β} (hown : own x' = k')
    (k : α) (x : β) (hx : (m.insert k' x')[k]? = some x) : own x = k := by
  rw [ExtTreeMap.getElem?_insert] at hx
  split at hx
  · rename_i hk
    cases hx
    rw [hown, Std.compare_eq_iff_eq.1 hk]
  · exact h k x hx

omit [LawfulEqOrd α] in
theorem own_key_erase {own : β → α} {m : ExtTreeMap α β}
    (h : ∀ k x, m[k]? = some x → own x = k) (k' k : α) (x : β)
    (hx : (m.erase k')[k]? = some x) : own x = k := by
  rw [ExtTreeMap.getElem?_erase] at hx
  split at hx
  · cases hx
  · exact h k x hx

/-! ## Passes of writes -/

/-- Records in turn, each written to its own slot over what stands there. -/
def writeAll {γ : Type} (slot : γ → α) (write : γ → Option β → β) (m : ExtTreeMap α β)
    (records : List γ) : ExtTreeMap α β :=
  records.foldl (fun m x => m.insert (slot x) (write x m[slot x]?)) m

section Passes

variable {γ : Type} (slot : γ → α) (write : γ → Option β → β)

/-- What a pass leaves in a slot is what its last record for the slot writes there,
where a record leaves no trace of those before it. -/
theorem getElem?_writeAll
    (h : ∀ x y v, slot x = slot y → write x (some (write y v)) = write x v)
    (records : List γ) (k : α) :
    ((∀ x ∈ records, slot x ≠ k) ∧
        ∀ m : ExtTreeMap α β, (writeAll slot write m records)[k]? = m[k]?) ∨
      ∃ x ∈ records, slot x = k ∧
        ∀ m : ExtTreeMap α β, (writeAll slot write m records)[k]? = some (write x m[k]?) := by
  induction records with
  | nil => exact Or.inl ⟨by simp, fun m => rfl⟩
  | cons first rest ih =>
    have hcons : ∀ m : ExtTreeMap α β, writeAll slot write m (first :: rest) =
        writeAll slot write (m.insert (slot first) (write first m[slot first]?)) rest :=
      fun m => rfl
    rcases ih with ⟨hnone, hrest⟩ | ⟨x, hx, hslot, hrest⟩
    · by_cases hfirst : slot first = k
      · subst hfirst
        exact Or.inr ⟨first, by simp, rfl, fun m => by simp [hcons, hrest]⟩
      · refine Or.inl ⟨by simpa [hfirst] using hnone, fun m => ?_⟩
        simp [hcons, hrest, ExtTreeMap.getElem?_insert, hfirst]
    · refine Or.inr ⟨x, by simp [hx], hslot, fun m => ?_⟩
      rw [hcons, hrest]
      by_cases hfirst : slot first = k
      · subst hfirst
        simp [h x first _ hslot]
      · simp [ExtTreeMap.getElem?_insert, hfirst]

variable {slot write}

/-- A pass changes nothing where its slots are as it left them once. -/
theorem writeAll_settled
    (h : ∀ x y v, slot x = slot y → write x (some (write y v)) = write x v)
    {records : List γ} {m m' : ExtTreeMap α β}
    (hm : ∀ x ∈ records, m'[slot x]? = (writeAll slot write m records)[slot x]?) :
    writeAll slot write m' records = m' := by
  apply ExtTreeMap.ext_getElem?
  intro k
  rcases getElem?_writeAll slot write h records k with ⟨-, hpass⟩ | ⟨x, hx, rfl, hpass⟩
  · exact hpass m'
  · rw [hpass, hm x hx, hpass, h x x _ rfl]

end Passes

/-! ## Parts of a map -/

theorem filter_insert (f : α → β → Bool) (m : ExtTreeMap α β) (k : α) (x : β) :
    (m.insert k x).filter f =
      if f k x then (m.filter f).insert k x else (m.filter f).erase k := by
  apply ExtTreeMap.ext_getElem?
  intro k'
  by_cases hk : k = k'
  · subst hk
    split <;> simp_all
  · split <;> simp [ExtTreeMap.getElem?_insert, ExtTreeMap.getElem?_erase, hk]

theorem filter_erase (f : α → β → Bool) (m : ExtTreeMap α β) (k : α) :
    (m.erase k).filter f = (m.filter f).erase k := by
  apply ExtTreeMap.ext_getElem?
  intro k'
  by_cases hk : k = k'
  · simp [hk]
  · simp [ExtTreeMap.getElem?_erase, hk]

theorem erase_of_notMem {m : ExtTreeMap α β} {k : α} (h : k ∉ m) : m.erase k = m := by
  apply ExtTreeMap.ext_getElem?
  intro k'
  rw [ExtTreeMap.getElem?_erase]
  split
  · rename_i hk
    rw [← LawfulEqCmp.eq_of_compare hk]
    exact (ExtTreeMap.getElem?_eq_none h).symm
  · rfl

omit [LawfulEqOrd α] in
theorem size_erase_of_mem {m : ExtTreeMap α β} {k : α} (h : k ∈ m) :
    (m.erase k).size = m.size - 1 := by
  rw [ExtTreeMap.size_erase, if_pos (ExtTreeMap.mem_iff_contains.1 h)]

omit [LawfulEqOrd α] in
theorem size_insert_of_mem {m : ExtTreeMap α β} {k : α} (x : β) (h : k ∈ m) :
    (m.insert k x).size = m.size := by
  rw [ExtTreeMap.size_insert, if_pos (ExtTreeMap.mem_iff_contains.1 h)]

omit [LawfulEqOrd α] in
theorem size_insert_of_notMem {m : ExtTreeMap α β} {k : α} (x : β) (h : k ∉ m) :
    (m.insert k x).size = m.size + 1 := by
  rw [ExtTreeMap.size_insert, if_neg (fun hk => h (ExtTreeMap.mem_iff_contains.2 hk))]

omit [LawfulEqOrd α] in
theorem size_pos_of_mem {m : ExtTreeMap α β} {k : α} (h : k ∈ m) : 0 < m.size := by
  rw [Nat.pos_iff_ne_zero, Ne, ← ExtTreeMap.eq_empty_iff_size_eq_zero]
  rintro rfl
  exact ExtTreeMap.not_mem_empty h

/-- The members of a map of one entry are the same. -/
theorem eq_of_mem_of_size_eq_one {m : ExtTreeMap α β} {k k' : α} (hsize : m.size = 1)
    (hk : k ∈ m) (hk' : k' ∈ m) : k = k' := by
  refine Classical.byContradiction fun hne => ?_
  have hleft : k' ∈ m.erase k := by simp [hk', hne]
  have hpos := size_pos_of_mem hleft
  rw [size_erase_of_mem hk, hsize] at hpos
  exact Nat.lt_irrefl 0 hpos

/-! ## Lists -/

omit [LawfulEqOrd α] in
theorem values_eq_map_toList (m : ExtTreeMap α β) : m.values = m.toList.map Prod.snd := by
  obtain ⟨⟨m⟩⟩ := m
  induction m using Quotient.ind with | _ m
  change DTreeMap.Internal.Impl.values m.inner =
    (DTreeMap.Internal.Impl.Const.toList m.inner).map Prod.snd
  rw [DTreeMap.Internal.Impl.values_eq_map_snd,
    DTreeMap.Internal.Impl.Const.toList_eq_toListModel_map, List.map_map]
  rfl

theorem mem_values {m : ExtTreeMap α β} {x : β} :
    x ∈ m.values ↔ ∃ k : α, m[k]? = some x := by
  rw [values_eq_map_toList, List.mem_map]
  constructor
  · rintro ⟨⟨k, y⟩, hmem, rfl⟩
    exact ⟨k, ExtTreeMap.mem_toList_iff_getElem?_eq_some.1 hmem⟩
  · rintro ⟨k, h⟩
    exact ⟨(k, x), ExtTreeMap.mem_toList_iff_getElem?_eq_some.2 h, rfl⟩

/-- A map that is listed key by key has the keys of the list. -/
theorem getElem?_ofList_map [BEq α] [LawfulBEqOrd α] (keys : ExtTreeSet α) (f : α → β) (k : α) :
    (ExtTreeMap.ofList (keys.toList.map (fun k => (k, f k))))[k]? =
      if k ∈ keys then some (f k) else none := by
  split
  · rename_i hk
    apply ExtTreeMap.getElem?_ofList_of_mem ReflCmp.compare_self
    · rw [List.pairwise_map]
      exact ExtTreeSet.distinct_toList
    · rw [List.mem_map]
      exact ⟨k, ExtTreeSet.mem_toList.2 hk, rfl⟩
  · rename_i hk
    apply ExtTreeMap.getElem?_ofList_of_contains_eq_false
    simpa using hk

end TopologySync.Maps
