-- The law of replays. A stream is taken line by line, and no line has a say in
-- what becomes of the others: a line that is no text ends the replay where it
-- stands, and so does the first event that nobody listens for.
import TopologySync.Replay

namespace TopologySync.Replay

/-! ## Lines of a stream -/

/-- All lines of the stream have come to their end. -/
def Whole (stream : Bytes) : Prop :=
  stream = [] ∨ stream.getLast? = some lineFeed

theorem lines_ne_nil {stream : Bytes} (h : stream ≠ []) : lines stream ≠ [] := by
  cases stream with
  | nil => exact absurd rfl h
  | cons b rest =>
    rw [lines]
    split
    · exact List.cons_ne_nil _ _
    · cases lines rest <;> exact List.cons_ne_nil _ _

theorem startLine_append {b : UInt8} {first : List Bytes} (h : first ≠ []) (second : List Bytes) :
    startLine b (first ++ second) = startLine b first ++ second := by
  cases first with
  | nil => exact absurd rfl h
  | cons line rest => rfl

/-- Behind whole lines a new line starts. -/
theorem lines_append {a : Bytes} (h : Whole a) (b : Bytes) :
    lines (a ++ b) = lines a ++ lines b := by
  induction a with
  | nil => rfl
  | cons x rest ih =>
    rcases h with hnone | hlast
    · cases hnone
    have hrest : Whole rest := by
      cases rest with
      | nil => exact Or.inl rfl
      | cons y more => exact Or.inr (by rwa [List.getLast?_cons_cons] at hlast)
    rw [List.cons_append, lines, lines, ih hrest]
    split
    · rfl
    next hx =>
      apply startLine_append
      apply lines_ne_nil
      rintro rfl
      exact hx (by simpa using hlast)

theorem lines_line {line : Bytes} (h : lineFeed ∉ line) (b : Bytes) :
    lines (line ++ lineFeed :: b) = line :: lines b := by
  induction line with
  | nil => simp [lines]
  | cons x rest ih =>
    obtain ⟨hx, hrest⟩ := List.ne_and_not_mem_of_not_mem_cons h
    rw [List.cons_append, lines, if_neg (Ne.symm hx), ih hrest]
    rfl

/-- The last line needs no line feed behind it, unless it is empty. -/
theorem lines_last {line : Bytes} (h : lineFeed ∉ line) (hline : line ≠ []) :
    lines line = [line] := by
  induction line with
  | nil => exact absurd rfl hline
  | cons x rest ih =>
    obtain ⟨hx, hrest⟩ := List.ne_and_not_mem_of_not_mem_cons h
    rw [lines, if_neg (Ne.symm hx)]
    cases rest with
    | nil => rfl
    | cons y more => rw [ih hrest (List.cons_ne_nil _ _)]; rfl

/-! ## What a line holds -/

/-- What a line comes to, whatever stands on the others. -/
inductive Content where
  | unreadable
  | remark
  | event (event : Event)
  | malformed
deriving DecidableEq

/-- Looks at one line. -/
def content (line : Bytes) : Content :=
  match lineText? line with
  | none => .unreadable
  | some text => match Event.ofLine text with
    | .ok none => .remark
    | .ok (some event) => .event event
    | .error _ => .malformed

/-- The event that a line comes to. -/
def Content.event? : Content → Option Event
  | .event e => some e
  | _ => none

/-- The text is blank, or a comment. -/
def IsRemark (text : List Char) : Prop :=
  Text.trim text = [] ∨ ∃ comment, Text.trim text = '#' :: comment

theorem ofLine_eq_none_iff (text : List Char) : Event.ofLine text = .ok none ↔ IsRemark text := by
  unfold Event.ofLine IsRemark
  split
  next hblank => simp [hblank]
  next comment hcomment => simp [hcomment]
  next hsome hother =>
    have hnone : ∀ decoded : Except Json.Problem Event, decoded.map some ≠ .ok none := by
      rintro (_ | _) <;> exact nofun
    refine iff_of_false (hnone _) ?_
    rintro (hblank | ⟨comment, hcomment⟩)
    · exact hsome hblank
    · exact hother comment hcomment

theorem content_eq_remark_iff (line : Bytes) :
    content line = .remark ↔ ∃ text, lineText? line = some text ∧ IsRemark text := by
  unfold content
  rcases lineText? line with _ | text
  · simp
  · simp only [Option.some.injEq, exists_eq_left', ← ofLine_eq_none_iff]
    rcases Event.ofLine text with e | _ | event <;> simp

/-- A replay takes a line by what it comes to. -/
theorem forwardLines_cons (heard : Bool) (number : Nat) (line : Bytes) (rest : List Bytes) :
    let more := forwardLines heard (number + 1) rest
    forwardLines heard number (line :: rest) = match content line with
      | .unreadable => { ending := .unreadable }
      | .remark => more
      | .event event =>
        if heard then { more with events := event :: more.events, stats := more.stats.forward }
        else { ending := .unheard number }
      | .malformed =>
        { more with skipped := number :: more.skipped, stats := more.stats.skip } := by
  rw [forwardLines, content]
  rcases lineText? line with _ | text
  · rfl
  · rcases hline : Event.ofLine text with e | _ | event <;> simp only [hline]

/-! ## Replays with a listener -/

/-- The lines before the first one that is no text. -/
def readable (lines : List Bytes) : List Bytes :=
  lines.takeWhile (content · ≠ .unreadable)

theorem readable_append {first : List Bytes} (h : ∀ line ∈ first, content line ≠ .unreadable)
    (second : List Bytes) : readable (first ++ second) = first ++ readable second :=
  List.takeWhile_append_of_pos (by simpa using h)

theorem readable_eq_self {lines : List Bytes} (h : ∀ line ∈ lines, content line ≠ .unreadable) :
    readable lines = lines := by
  rw [← List.append_nil lines, readable_append h []]
  rfl

/-- Behind a line that is no text nothing is read. -/
theorem readable_cut {first : List Bytes} (h : .unreadable ∈ first.map content)
    (second : List Bytes) : readable (first ++ second) = readable first := by
  induction first with
  | nil => cases h
  | cons line rest ih =>
    by_cases hline : content line = .unreadable
    · simp [readable, hline]
    · have hrest : .unreadable ∈ rest.map content := by
        rw [List.map_cons, List.mem_cons] at h
        exact h.resolve_left (Ne.symm hline)
      have hsame := ih hrest
      unfold readable at hsame ⊢
      rw [List.cons_append, List.takeWhile_cons_of_pos (by simpa using hline),
        List.takeWhile_cons_of_pos (by simpa using hline), hsame]

/-- What is sent and counted is what the readable lines come to, each by itself, and a
replay breaks off if and only if a line is no text. -/
structure Tells (outcome : Outcome) (lines : List Bytes) : Prop where
  events : outcome.events = (readable lines).filterMap (Content.event? ∘ content)
  forwarded : outcome.stats.forwarded = outcome.events.length
  skipped : outcome.stats.skipped = (readable lines).countP (content · = .malformed)
  ending : outcome.ending = .unreadable ↔ .unreadable ∈ lines.map content

theorem forwardLines_tells (number : Nat) (lines : List Bytes) :
    Tells (forwardLines true number lines) lines := by
  induction lines generalizing number with
  | nil => exact ⟨rfl, rfl, rfl, by simp [forwardLines]⟩
  | cons line rest ih =>
    obtain ⟨hevents, hforwarded, hskipped, hending⟩ := ih (number + 1)
    rw [forwardLines_cons]
    rcases hline : content line with _ | _ | event | _
    · exact ⟨by simp [readable, hline], rfl, by simp [readable, hline], by simp [hline]⟩
    · exact ⟨by simpa [readable, hline, Content.event?] using hevents, hforwarded,
        by simpa [readable, hline] using hskipped, by simpa [hline] using hending⟩
    · exact ⟨by simpa [readable, hline, Content.event?] using hevents,
        congrArg (· + 1) hforwarded,
        by simpa [readable, hline, Stats.forward] using hskipped, by simpa [hline] using hending⟩
    · exact ⟨by simpa [readable, hline, Content.event?] using hevents, hforwarded,
        by simpa [readable, hline, Stats.skip] using hskipped, by simpa [hline] using hending⟩

theorem result?_eq_none_iff {outcome : Outcome} :
    outcome.result? = none ↔ outcome.ending = .unreadable := by
  unfold Outcome.result?
  split <;> simp_all

theorem result?_eq_some {outcome : Outcome} {stats : Stats} (h : outcome.result? = some stats) :
    outcome.stats = stats ∧ outcome.ending ≠ .unreadable := by
  unfold Outcome.result? at h
  split at h
  · cases h
  · exact ⟨Option.some.inj h, ‹_›⟩

namespace Tells

variable {first second both : Outcome} {before after : List Bytes}

/-- A replay that comes to its end has read all lines. -/
theorem sound (h : Tells first before) (hend : first.ending ≠ .unreadable) :
    ∀ line ∈ before, content line ≠ .unreadable :=
  fun _ hline hbad => hend (h.ending.2 (hbad ▸ List.mem_map_of_mem hline))

/-- Lines that end well are followed as if they were not there. -/
theorem append (h : Tells first before) (h' : Tells second after)
    (hboth : Tells both (before ++ after)) (hend : first.ending ≠ .unreadable) :
    both.events = first.events ++ second.events ∧
      both.result? = second.result?.map (first.stats + ·) := by
  have hsound := h.sound hend
  have hevents : both.events = first.events ++ second.events := by
    rw [hboth.events, h.events, h'.events, readable_append hsound, List.filterMap_append,
      readable_eq_self hsound]
  have hstats : both.stats = first.stats + second.stats := by
    have hforwarded : both.stats.forwarded = first.stats.forwarded + second.stats.forwarded := by
      rw [hboth.forwarded, h.forwarded, h'.forwarded, hevents, List.length_append]
    have hskipped : both.stats.skipped = first.stats.skipped + second.stats.skipped := by
      rw [hboth.skipped, h.skipped, h'.skipped, readable_append hsound, List.countP_append,
        readable_eq_self hsound]
    exact Stats.ext hforwarded hskipped
  have hending : both.ending = .unreadable ↔ second.ending = .unreadable := by
    rw [hboth.ending, h'.ending, List.map_append, List.mem_append, ← h.ending,
      or_iff_right hend]
  refine ⟨hevents, ?_⟩
  unfold Outcome.result?
  rw [hstats]
  by_cases hbroken : second.ending = .unreadable
  · rw [if_pos (hending.2 hbroken), if_pos hbroken, Option.map_none]
  · rw [if_neg (mt hending.1 hbroken), if_neg hbroken, Option.map_some]

/-- All lines of a replay that comes to its end are accounted for. -/
theorem finished (h : Tells first before) (hend : first.ending ≠ .unreadable) :
    first.events = before.filterMap (Content.event? ∘ content) ∧
      first.stats.forwarded = first.events.length ∧
      first.stats.skipped = before.countP (content · = .malformed) ∧
      ∀ line ∈ before, content line ≠ .malformed → (content line).event? = none →
        ∃ text, lineText? line = some text ∧ IsRemark text := by
  have hsound := h.sound hend
  have hall := readable_eq_self hsound
  refine ⟨hall ▸ h.events, h.forwarded, hall ▸ h.skipped, fun line hmem hwell hnone => ?_⟩
  rw [← content_eq_remark_iff]
  rcases hline : content line with _ | _ | event | _
  · exact absurd hline (hsound line hmem)
  · rfl
  · rw [hline] at hnone
    cases hnone
  · exact absurd hline hwell

/-- Behind a line that is no text nothing counts. -/
theorem cut (h : Tells first before) (hboth : Tells both (before ++ after))
    (hend : first.ending = .unreadable) :
    both.events = first.events ∧ both.ending = .unreadable := by
  have hbad := h.ending.1 hend
  constructor
  · rw [hboth.events, h.events, readable_cut hbad]
  · rw [hboth.ending, List.map_append]
    exact List.mem_append_left _ hbad

end Tells

/-! ## Replays without a listener -/

/-- Nothing is taken, and the first event ends the replay. -/
theorem forwardLines_unheard (number : Nat) (before : List Bytes) :
    (forwardLines false number before).events = [] ∧
      (forwardLines false number before).stats.forwarded = 0 := by
  induction before generalizing number with
  | nil => exact ⟨rfl, rfl⟩
  | cons line rest ih =>
    rw [forwardLines_cons]
    cases content line with
    | unreadable | event => exact ⟨rfl, rfl⟩
    | remark | malformed => exact ih (number + 1)

theorem forwardLines_unheard_cut (number : Nat) (before : List Bytes) {line : Bytes}
    {event : Event} (h : content line = .event event) (after : List Bytes) :
    forwardLines false number (before ++ line :: after) =
      forwardLines false number (before ++ [line]) := by
  induction before generalizing number with
  | nil =>
    rw [List.nil_append, List.nil_append, forwardLines_cons, forwardLines_cons, h]
    rfl
  | cons first rest ih =>
    rw [List.cons_append, List.cons_append, forwardLines_cons, forwardLines_cons, ih (number + 1)]

/-- Nothing behind the first event counts, not even the line feed of its own line. -/
theorem forward_unheard_cut {a line : Bytes} {event : Event} (h : Whole a) (hfeed : lineFeed ∉ line)
    (hline : content line = .event event) (b : Bytes) :
    forward false (a ++ line ++ lineFeed :: b) = forward false (a ++ line) := by
  have hfull : line ≠ [] := by
    rintro rfl
    have hblank : content [] = .remark :=
      (content_eq_remark_iff []).2 ⟨[], rfl, Or.inl rfl⟩
    cases hblank.symm.trans hline
  unfold forward
  rw [List.append_assoc, lines_append h, lines_append h, lines_line hfeed, lines_last hfeed hfull]
  exact forwardLines_unheard_cut 1 (lines a) hline (lines b)

/-! ## The law -/

/-- If the replay of whole lines comes to its end, what follows them is replayed as on its own, and
the two count together. If it breaks off, nothing follows. An event is sent for each line that holds
one, and each line that does not read as one is counted. If no one listens, nothing behind the first
event counts, not even the line feed of its own line. -/
theorem each_line_is_replayed_on_its_own (a b : Bytes) (h : Whole a) :
    let first := forward true a
    let second := forward true b
    let both := forward true (a ++ b)
    (∀ stats, first.result? = some stats →
      both.events = first.events ++ second.events ∧
        both.result? = second.result?.map (stats + ·)) ∧
    (first.result? = none → both.events = first.events ∧ both.result? = none) ∧
    (∀ stats, second.result? = some stats →
      second.events = (lines b).filterMap (Content.event? ∘ content) ∧
      stats.forwarded = second.events.length ∧
      stats.skipped = (lines b).countP (content · = .malformed) ∧
      ∀ line ∈ lines b, content line ≠ .malformed → (content line).event? = none →
        ∃ text, lineText? line = some text ∧ IsRemark text) ∧
    (forward false b).events = [] ∧ (forward false b).stats.forwarded = 0 ∧
    ∀ line event, lineFeed ∉ line → content line = .event event →
      forward false (a ++ line ++ lineFeed :: b) = forward false (a ++ line) := by
  intro first second both
  have hfirst : Tells first (lines a) := forwardLines_tells 1 (lines a)
  have hsecond : Tells second (lines b) := forwardLines_tells 1 (lines b)
  have hboth : Tells both (lines a ++ lines b) := lines_append h b ▸ forwardLines_tells 1 _
  refine ⟨fun stats hstats => ?_, fun hbroken => ?_, fun stats hstats => ?_,
    (forwardLines_unheard 1 (lines b)).1, (forwardLines_unheard 1 (lines b)).2,
    fun line event hfeed hline => forward_unheard_cut h hfeed hline b⟩
  · obtain ⟨rfl, hend⟩ := result?_eq_some hstats
    exact hfirst.append hsecond hboth hend
  · rw [result?_eq_none_iff] at hbroken ⊢
    exact hfirst.cut hboth hbroken
  · obtain ⟨rfl, hend⟩ := result?_eq_some hstats
    exact hsecond.finished hend

/-- A delete with a return before its line feed, a line that does not parse and a comment, and
behind them a delete on the last line before one that is no text. -/
theorem each_line_is_replayed_on_its_own_broken_stream :
    let deleted := Json.bytesOf "\x7b\"type\":\"delete_node\",\"key\":\"a\"\x7d"
    let a := deleted ++ [carriageReturn] ++ Json.bytesOf "\noops\n # note\n"
    let b := deleted ++ Json.bytesOf "\n" ++ [0xff]
    (forward true a).result? = some ⟨1, 1⟩ ∧
      (forward true b).events = [.deleteNode "a"] ∧ (forward true b).result? = none ∧
      (forward true (a ++ b)).events = [.deleteNode "a", .deleteNode "a"] ∧
      (forward true (a ++ b)).result? = none := by
  intro deleted a b
  have ha : (forward true a).events = [.deleteNode "a"] ∧
      (forward true a).result? = some ⟨1, 1⟩ := by decide +kernel
  have hb : (forward true b).events = [.deleteNode "a"] ∧ (forward true b).result? = none := by
    decide +kernel
  obtain ⟨hevents, hresult⟩ :=
    (each_line_is_replayed_on_its_own a b (Or.inr (by decide +kernel))).1 ⟨1, 1⟩ ha.2
  refine ⟨ha.2, hb.1, hb.2, ?_, ?_⟩
  · rw [hevents, ha.1, hb.1]
    rfl
  · rw [hresult, hb.2]
    rfl

end TopologySync.Replay
