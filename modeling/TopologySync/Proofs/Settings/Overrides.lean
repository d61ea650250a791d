-- The law of overrides. The daemon runs with what its document says and with what the command
-- line has instead, and only if that may be run with. The document itself never learns what
-- the command line had, not even where it was missing and had to be written first.
import TopologySync.Daemon.Startup
import TopologySync.Proofs.Settings.Documents

namespace TopologySync

open DocumentStore
open Settings (documentKey render decoder loadOrInit)

/-! ## Settings to run with -/

theorem Settings.invalidField?_eq_none_iff {settings : Settings} :
    settings.invalidField? = none ↔ 0 < settings.holdTime ∧ 0 < settings.window := by
  unfold invalidField?
  rw [UInt64.pos_iff_ne_zero, UInt64.pos_iff_ne_zero]
  split
  next hhold => simp [hhold]
  next hhold =>
    split
    next hwindow => simp [hwindow]
    next hwindow => simp [hhold, hwindow]

theorem Settings.invalidField?_eq_some_iff {settings : Settings} {field : SettingsField} :
    settings.invalidField? = some field ↔ settings.holdTime = 0 ∧ field = .holdTime ∨
      settings.holdTime ≠ 0 ∧ settings.window = 0 ∧ field = .window := by
  unfold invalidField?
  split
  next hhold => simp [hhold, eq_comm]
  next hhold =>
    split
    next hwindow => simp [hhold, hwindow, eq_comm]
    next hwindow => simp [hhold, hwindow]

namespace Arguments

variable {arguments : Arguments} {stored settings : Settings} {e : StartupError}

/-- The settings are those of a document, except for what a command line has instead. -/
structure Overrides (arguments : Arguments) (stored settings : Settings) : Prop where
  holdTime : settings.holdTime = arguments.holdTime.getD stored.holdTime
  strategy : settings.strategy = arguments.strategy.getD stored.strategy
  window : settings.window = stored.window
  logFilter : settings.logFilter = stored.logFilter

/-- What is wrong with the settings of a document under a command line: a hold time of zero, or
else a window of zero. -/
inductive Refused (arguments : Arguments) (stored : Settings) : StartupError → Prop where
  | holdTime (h : arguments.holdTime.getD stored.holdTime = 0) :
    Refused arguments stored (.invalid .holdTime)
  | window (h : arguments.holdTime.getD stored.holdTime ≠ 0) (hwindow : stored.window = 0) :
    Refused arguments stored (.invalid .window)

theorem overrides_iff :
    arguments.Overrides stored settings ↔ settings = arguments.override stored := by
  constructor
  · rcases settings with ⟨holdTime, strategy, window, logFilter⟩
    rintro ⟨rfl, rfl, rfl, rfl⟩
    rfl
  · rintro rfl
    exact ⟨holdTime_override arguments stored, strategy_override arguments stored,
      window_override arguments stored, logFilter_override arguments stored⟩

theorem settle_eq_ok_iff : arguments.settle stored = .ok settings ↔
    arguments.Overrides stored settings ∧ 0 < settings.holdTime ∧ 0 < settings.window := by
  unfold settle
  dsimp only
  rw [overrides_iff]
  split
  next field hfield =>
    refine ⟨nofun, ?_⟩
    rintro ⟨rfl, hvalid⟩
    rw [Settings.invalidField?_eq_none_iff.2 hvalid] at hfield
    cases hfield
  next hvalid =>
    rw [Except.ok.injEq, eq_comm]
    refine ⟨fun h => ⟨h, ?_⟩, And.left⟩
    rw [h]
    exact Settings.invalidField?_eq_none_iff.1 hvalid

theorem settle_eq_error_iff : arguments.settle stored = .error e ↔ arguments.Refused stored e := by
  have hsettle : arguments.settle stored = .error e ↔
      ∃ field, (arguments.override stored).invalidField? = some field ∧ e = .invalid field := by
    unfold settle
    dsimp only
    split
    next field hfield => simp [hfield, eq_comm]
    next hvalid => simp [hvalid]
  simp only [hsettle, Settings.invalidField?_eq_some_iff, holdTime_override, window_override]
  constructor
  · rintro ⟨_, ⟨hhold, rfl⟩ | ⟨hhold, hwindow, rfl⟩, rfl⟩
    · exact .holdTime hhold
    · exact .window hhold hwindow
  · rintro (hhold | ⟨hhold, hwindow⟩)
    · exact ⟨.holdTime, .inl ⟨hhold, rfl⟩, rfl⟩
    · exact ⟨.window, .inr ⟨hhold, hwindow, rfl⟩, rfl⟩

/-- The settings to run with, where a document says what they are. -/
def ofDocument (arguments : Arguments) (document : Bytes) : Except StartupError Settings :=
  match Json.decode decoder document with
  | .ok stored => arguments.settle stored
  | .error problem => .error (.loading (.undecodable problem))

theorem ofDocument_eq_ok_iff {document : Bytes} : arguments.ofDocument document = .ok settings ↔
    ∃ stored, Json.decode decoder document = .ok stored ∧
      arguments.Overrides stored settings ∧ 0 < settings.holdTime ∧ 0 < settings.window := by
  unfold ofDocument
  cases Json.decode decoder document with
  | ok stored => simp [settle_eq_ok_iff]
  | error problem => simp

theorem ofDocument_eq_error_iff {document : Bytes} : arguments.ofDocument document = .error e ↔
    (∃ problem, Json.decode decoder document = .error problem ∧
      e = .loading (.undecodable problem)) ∨
    ∃ stored, Json.decode decoder document = .ok stored ∧ arguments.Refused stored e := by
  unfold ofDocument
  cases Json.decode decoder document with
  | ok stored => simp [settle_eq_error_iff]
  | error problem => simp [eq_comm]

/-! ## The document -/

section Store

variable {σ : Type} [DocumentStore σ] {store : σ}

/-- The command line is looked at when the store is done with. -/
theorem settings_eq (arguments : Arguments) (store : σ) :
    arguments.settings store =
      (match (loadOrInit store documentKey).1 with
        | .ok stored => arguments.settle stored
        | .error cause => .error (.loading cause),
      (loadOrInit store documentKey).2) := by
  unfold settings
  rcases loadOrInit store documentKey with ⟨_ | _, store'⟩ <;> rfl

/-- All that is ever written is the defaults, where there is no document. -/
theorem settings_watched (arguments : Arguments) (store : σ) :
    let watched := (arguments.settings ({ store } : Watched σ)).2
    watched.store = (arguments.settings store).2 ∧
      (Vacant store documentKey → watched.written = [(documentKey, render {})]) ∧
      (¬Vacant store documentKey → watched.written = []) := by
  rw [settings_eq, settings_eq]
  obtain ⟨-, hstore, hvacant, hoccupied⟩ :=
    Settings.loadOrInit_watched ({ store } : Watched σ) documentKey
  exact ⟨hstore, hvacant, hoccupied⟩

/-- A store reads a document under the key, and its settings are loaded from it. -/
structure Loads (store : σ) (document : Bytes) : Prop where
  some : document ≠ []
  loaded : (loadOrInit store documentKey).1 =
    (Json.decode decoder document).mapError .undecodable
  kept : (read (loadOrInit store documentKey).2 documentKey).1 = .ok document

/-- Whatever the command line, the outcome is up to the document. -/
theorem Loads.outcome {document : Bytes} (h : Loads store document) (arguments : Arguments) :
    (arguments.settings store).1 = arguments.ofDocument document := by
  rw [settings_eq, h.loaded]
  unfold ofDocument
  cases Json.decode decoder document <;> rfl

variable [Keeps σ]

theorem loads_of_document {document : Bytes} (h : (read store documentKey).1 = .ok document)
    (hsome : document ≠ []) : Loads store document := by
  have hload := Settings.loadOrInit_occupied (occupied_of_document h hsome)
  refine ⟨hsome, ?_, ?_⟩
  · rw [hload, h]
    rfl
  · rw [hload, Keeps.read_same store documentKey documentKey, h]

/-- Defaults that could be written are loaded as they were written. -/
theorem loads_defaults (hvacant : Vacant store documentKey)
    (hwrites : (Settings.save (read store documentKey).2 documentKey {}).1 = .ok ()) :
    Loads store (render {}) := by
  have hload := Settings.loadOrInit_vacant hvacant
  refine ⟨Settings.render_ne_nil {}, ?_, ?_⟩
  · rw [hload, hwrites, Settings.decode_render]
    rfl
  · have hreads : ¬Fails (read store documentKey).2 documentKey := by
      rintro ⟨e, herror, he⟩
      rw [Keeps.read_same store documentKey documentKey] at herror
      rcases hvacant with hnone | hnone <;> cases hnone.symm.trans herror
      exact he rfl
    rw [hload]
    exact Settings.read_saved hreads hwrites

/-- The document is there for the next command line. -/
theorem Loads.again {document : Bytes} (h : Loads store document) (arguments : Arguments) :
    (read (arguments.settings store).2 documentKey).1 = .ok document ∧
      Loads (arguments.settings store).2 document := by
  have hread : (read (arguments.settings store).2 documentKey).1 = .ok document := by
    rw [settings_eq]
    exact h.kept
  exact ⟨hread, loads_of_document hread h.some⟩

/-- A store that can be read and written has a document that its settings are loaded from: the one
that was there, or else the defaults. -/
theorem exists_loads (hreads : ¬Fails store documentKey)
    (hwrites : Vacant store documentKey →
      (Settings.save (read store documentKey).2 documentKey {}).1 = .ok ()) :
    ∃ document, Loads store document ∧
      (Vacant store documentKey → document = render {}) ∧
      (¬Vacant store documentKey → (read store documentKey).1 = .ok document) := by
  by_cases hvacant : Vacant store documentKey
  · exact ⟨render {}, loads_defaults hvacant (hwrites hvacant), fun _ => rfl, (absurd hvacant ·)⟩
  · rcases hread : (read store documentKey).1 with e | document
    · have he : e ≠ .notFound := by
        rintro rfl
        exact hvacant (.inl hread)
      exact absurd ⟨e, hread, he⟩ hreads
    · have hsome : document ≠ [] := by
        rintro rfl
        exact hvacant (.inr hread)
      exact ⟨document, loads_of_document hread hsome, (absurd · hvacant), fun _ => rfl⟩

/-! ## The law -/

/-- Let a store keep its documents, tell whether it has one of the settings, and take the defaults
where it has none. Whatever the command line, its document stays, or else the defaults are written.
The outcome is what this document says, with what the command line has instead of its hold time or
strategy, if neither the hold time nor the window is zero then. -/
theorem overrides_are_used_and_never_stored (arguments : Arguments) (store : σ)
    (hreads : ¬Fails store documentKey)
    (hwrites : Vacant store documentKey →
      (Settings.save (read store documentKey).2 documentKey {}).1 = .ok ()) :
    let outcome := (arguments.settings store).1
    let store' := (arguments.settings store).2
    let watched := (arguments.settings ({ store } : Watched σ)).2
    ∃ document,
      (read store' documentKey).1 = .ok document ∧
      (Vacant store documentKey → document = render {} ∧
        Json.decode decoder document = .ok {} ∧ watched.written = [(documentKey, document)]) ∧
      (¬Vacant store documentKey → (read store documentKey).1 = .ok document ∧
        SameDocuments store store' ∧ watched.written = []) ∧
      (∀ members cs stored, Json.Layout (.value (Json.ofMembers members)) cs →
        Json.Shows members (Settings.entries stored) → document = Json.utf8 cs →
        Json.decode decoder document = .ok stored) ∧
      (∀ settings, outcome = .ok settings ↔
        ∃ stored, Json.decode decoder document = .ok stored ∧
          arguments.Overrides stored settings ∧ 0 < settings.holdTime ∧ 0 < settings.window) ∧
      (∀ e, outcome = .error e ↔
        (∃ problem, Json.decode decoder document = .error problem ∧
          e = .loading (.undecodable problem)) ∨
        ∃ stored, Json.decode decoder document = .ok stored ∧ arguments.Refused stored e) ∧
      ∀ arguments' : Arguments,
        (arguments'.settings store').1 = (arguments'.settings store).1 := by
  intro outcome store' watched
  obtain ⟨-, hdefaults, hnothing⟩ := settings_watched arguments store
  obtain ⟨document, hloads, hvacant, hoccupied⟩ := exists_loads hreads hwrites
  obtain ⟨hread, hagain⟩ := hloads.again arguments
  have houtcome : outcome = arguments.ofDocument document := hloads.outcome arguments
  refine ⟨document, hread, fun h => ?_, fun h => ⟨hoccupied h, ?_, hnothing h⟩, ?_, ?_, ?_, ?_⟩
  · obtain rfl := hvacant h
    exact ⟨rfl, Settings.decode_render {}, hdefaults h⟩
  · have hstore : store' = (read store documentKey).2 := by
      unfold store'
      rw [settings_eq, Settings.loadOrInit_occupied h]
    rw [hstore]
    exact Keeps.read_same store documentKey
  · rintro members cs stored hlayout hshows rfl
    rw [Json.decode_layout hlayout, Settings.decoder_shows hshows]
  · intro settings
    rw [houtcome, ofDocument_eq_ok_iff]
  · intro e
    rw [houtcome, ofDocument_eq_error_iff]
  · intro arguments'
    exact (hagain.outcome arguments').trans (hloads.outcome arguments').symm

end Store

/-- A stored hold time of zero is refused, unless the command line has another one. It stays stored
either way, and so does the strategy that the command line has another one for. -/
theorem an_override_repairs_a_hold_time :
    let document := Json.bytesOf "\x7b\"hold_time_ms\":0,\"normalization\":\"z_score\"\x7d"
    let store := MemoryStore.ofDocument documentKey document
    let repaired := ({ holdTime := some 250, strategy := some .robust } : Arguments).settings store
    (({} : Arguments).settings store).1 = .error (.invalid .holdTime) ∧
      repaired.1 = .ok { holdTime := 250, strategy := .robust } ∧
      (read repaired.2 documentKey).1 = .ok document := by
  intro document store repaired
  have hread : (read store documentKey).1 = .ok document := rfl
  have hreads : ¬Fails store documentKey := by
    rintro ⟨e, herror, -⟩
    cases hread.symm.trans herror
  have hoccupied : ¬Vacant store documentKey := occupied_of_document hread (by decide)
  have hdecode : Json.decode decoder document = .ok { holdTime := 0, strategy := .zScore } := by
    have hsome : (Json.decode decoder document).toOption =
        some { holdTime := 0, strategy := .zScore } := by
      decide +kernel
    cases h : Json.decode decoder document with
    | ok stored => rw [h] at hsome; exact congrArg _ (Option.some.inj hsome)
    | error problem => rw [h] at hsome; cases hsome
  refine ⟨?_, ?_⟩
  · obtain ⟨known, -, -, hkept, -, -, herror, -⟩ :=
      overrides_are_used_and_never_stored {} store hreads (absurd · hoccupied)
    obtain rfl : document = known := Except.ok.inj (hread.symm.trans (hkept hoccupied).1)
    exact (herror _).2 (.inr ⟨_, hdecode, .holdTime rfl⟩)
  · obtain ⟨known, hafter, -, hkept, -, hok, -, -⟩ :=
      overrides_are_used_and_never_stored { holdTime := some 250, strategy := some .robust } store
        hreads (absurd · hoccupied)
    obtain rfl : document = known := Except.ok.inj (hread.symm.trans (hkept hoccupied).1)
    exact ⟨(hok _).2 ⟨_, hdecode, ⟨rfl, rfl, rfl, rfl⟩, by decide, by decide⟩, hafter⟩

end Arguments

end TopologySync
