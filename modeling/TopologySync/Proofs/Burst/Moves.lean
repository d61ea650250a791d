-- What the moves of a channel keep. A run takes events and finishes bursts,
-- and apart from a request to quit nothing else happens to it.
import TopologySync.Burst.Channel

namespace TopologySync

variable {ν : Type} [Normalizing ν]

/-! ## One run -/

namespace Run

variable {run : Run ν}

theorem keeps_expire (P : Run ν → Prop) (hfinish : ∀ next, P (run.finish next).1)
    (h : P run) : P run.expire.1 := by
  unfold expire
  split
  · exact hfinish .idle
  · exact h

theorem keeps_close (P : Run ν → Prop) (hfinish : ∀ next, P (run.finish next).1)
    (h : P run) : P run.close.1 := by
  unfold close
  split
  · exact h
  · exact hfinish .ended

omit [Normalizing ν] in
theorem hasEnded_receive (run : Run ν) (event : Event) :
    (run.receive event).1.hasEnded = run.hasEnded := by
  unfold receive hasEnded
  rcases hphase : run.phase with _ | ⟨events, owed⟩ | _
  · rfl
  · rfl
  · simp [hphase]

theorem hasEnded_expire (run : Run ν) : run.expire.1.hasEnded = run.hasEnded := by
  unfold expire isLocked finish hasEnded
  rcases hphase : run.phase with _ | ⟨events, owed⟩ | _
  · simp [hphase]
  · rfl
  · simp [hphase]

end Run

/-! ## Moves in turn -/

namespace Channel

/-- What every move but a request to quit keeps is kept by all moves. -/
theorem keeps_after (P : Channel ν → Prop)
    (hstep : ∀ (c : Channel ν) move, P c → move ≠ .quit → P (c.step move)) {c : Channel ν}
    (h : P c) {moves : List Move} (hquit : .quit ∉ moves) : P (c.after moves) := by
  induction moves generalizing c with
  | nil => exact h
  | cons move rest ih =>
    have hmove : move ≠ .quit := fun hmove => hquit (by simp [hmove])
    exact ih (hstep c move h hmove) (fun hrest => hquit (List.mem_cons_of_mem move hrest))

/-- What a run keeps when it takes an event or finishes a burst is kept by
every move but a request to quit. -/
theorem run_step_keeps (P : Run ν → Prop)
    (hreceive : ∀ (run : Run ν) event, P run → P (run.receive event).1)
    (hfinish : ∀ (run : Run ν) next, P run → P (run.finish next).1) (c : Channel ν)
    (move : Move) (h : P c.run) (hquit : move ≠ .quit) : P (c.step move).run := by
  cases move with
  | send event =>
    simp only [step]
    split <;> exact h
  | close => exact h
  | take =>
    simp only [step]
    split
    · exact h
    · unfold take
      split
      · exact hreceive c.run _ h
      · split
        · exact Run.keeps_close P (fun next => hfinish c.run next h) h
        · exact h
  | expire => exact Run.keeps_expire P (fun next => hfinish c.run next h) h
  | quit => exact absurd rfl hquit

end Channel

end TopologySync
