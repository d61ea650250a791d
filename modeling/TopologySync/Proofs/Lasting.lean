-- What a history began and did not end. To tell whether it lasts, it is
-- enough to know whether it lasted before the last entry, and that entry.
import Mathlib.Data.List.Basic

namespace TopologySync

variable {α : Type}

/-- An entry of the history began something, and no later entry ended it. -/
def Lasts (begins : List α → α → Prop) (ends : α → Prop) (history : List α) : Prop :=
  ∃ earlier entry later, history = earlier ++ entry :: later ∧ begins earlier entry ∧
    ∀ next ∈ later, ¬ ends next

variable {begins : List α → α → Prop} {ends : α → Prop}

theorem not_lasts_nil : ¬ Lasts begins ends [] := by
  rintro ⟨earlier, entry, later, hsplit, -⟩
  simp at hsplit

/-- It was begun just now, or it lasted before and was not ended. -/
theorem lasts_snoc {history : List α} {entry : α} :
    Lasts begins ends (history ++ [entry]) ↔
      begins history entry ∨ Lasts begins ends history ∧ ¬ ends entry := by
  constructor
  · rintro ⟨earlier, first, later, hsplit, hbegins, hsince⟩
    -- Either the last entry is the one that began it, or it comes later.
    rcases List.eq_nil_or_concat' later with rfl | ⟨before, last, rfl⟩
    · obtain ⟨rfl, hlast⟩ := List.append_inj' hsplit rfl
      rw [List.singleton_inj.1 hlast]
      exact Or.inl hbegins
    · rw [← List.cons_append, ← List.append_assoc] at hsplit
      obtain ⟨rfl, hlast⟩ := List.append_inj' hsplit rfl
      rw [List.singleton_inj.1 hlast]
      exact Or.inr ⟨⟨earlier, first, before, rfl, hbegins,
        fun next hnext => hsince next (by simp [hnext])⟩, hsince last (by simp)⟩
  · rintro (hbegins | ⟨⟨earlier, first, later, rfl, hbegins, hsince⟩, hlast⟩)
    · exact ⟨history, entry, [], rfl, hbegins, by simp⟩
    · refine ⟨earlier, first, later ++ [entry], by simp, hbegins, fun next hnext => ?_⟩
      rcases List.mem_append.1 hnext with hbefore | hthis
      · exact hsince next hbefore
      · rw [List.mem_singleton.1 hthis]
        exact hlast

end TopologySync
