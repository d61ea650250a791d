-- The law of stored settings. What is written of settings reads as these settings again, and
-- nothing is written over a document unless it is missing or empty.
import TopologySync.Proofs.Json.Reading
import TopologySync.Proofs.Json.Records
import TopologySync.Proofs.Json.Writing
import TopologySync.Proofs.Settings.Stores

namespace TopologySync

open Json (Entry Told Shows Writes)

namespace Settings

/-! ## Documents -/

theorem strategy_toldBy {strategy : Strategy} {name : String} (json : Json)
    (h : (Entry.text name strategy.name).toldBy json) : strategyDecoder json = .ok strategy := by
  cases h
  cases strategy <;> rfl

/-- The members of a document that tell settings. -/
def entries (settings : Settings) : List Entry :=
  [(Entry.natural "hold_time_ms" settings.holdTime).spared (settings.holdTime = 1000),
    (Entry.text "normalization" settings.strategy.name).spared (settings.strategy = .minMax),
    (Entry.natural "threshold_window" settings.window).spared (settings.window = 16),
    (Entry.text "log_filter" settings.logFilter).spared (settings.logFilter = "info")]

theorem decoder_shows {settings : Settings} {members : List (String × Json)}
    (h : Shows members settings.entries) : decoder (Json.ofMembers members) = .ok settings :=
  Json.record_told (.optional Entry.uint64_toldBy <| .optional strategy_toldBy <|
    .optional Entry.uint64_toldBy <| .optional Entry.text_toldBy .nil) h

/-- The members that a document of settings is written with. -/
def members (settings : Settings) : List (String × Json) :=
  [("hold_time_ms", Json.ofNatural settings.holdTime),
    ("normalization", Json.ofText settings.strategy.name),
    ("threshold_window", Json.ofNatural settings.window),
    ("log_filter", Json.ofText settings.logFilter)]

theorem members_show (settings : Settings) : Shows settings.members settings.entries := by
  constructor <;>
    simp [members, entries, Entry.natural, Entry.text, Entry.spared]

theorem writes_render (settings : Settings) :
    Writes (.value (Json.ofMembers settings.members)) settings.render := by
  have hkey (name : String) :
      Writes (.value (Json.ofText name)) (Json.bytesOf "\n  " ++ Json.quoted name) :=
    (Json.writes_text name).indented (by decide)
  have hvalue {json : Json} {value : Bytes} (h : Writes (.value json) value) :
      Writes (.value json) (Json.bytesOf " " ++ value) :=
    h.indented (by decide)
  have hcolon : Json.bytesOf ": " = Json.Byte.colon :: Json.bytesOf " " := rfl
  have hwrites := Writes.object <|
    .members (hkey "hold_time_ms") (hvalue (Json.writes_natural settings.holdTime)) <|
    .members (hkey "normalization") (hvalue (Json.writes_text settings.strategy.name)) <|
    .members (hkey "threshold_window") (hvalue (Json.writes_natural settings.window)) <|
    .member (hkey "log_filter")
      ((hvalue (Json.writes_text settings.logFilter)).trailed (by decide : Json.Blanks "\n".toList))
  simpa [render, memberLine, hcolon, members] using hwrites

theorem render_ne_nil (settings : Settings) : settings.render ≠ [] := by
  simp [render]

/-- What is written of settings reads as these settings. -/
theorem decode_render (settings : Settings) :
    Json.decode decoder settings.render = .ok settings := by
  obtain ⟨cs, hlayout, hbytes⟩ := settings.writes_render
  rw [hbytes, Json.decode_layout hlayout, decoder_shows settings.members_show]

end Settings

/-! ## Loading or else writing the defaults -/

/-- A store with a list of what was to be written to it, whether or not it was taken. -/
structure Watched (σ : Type) where
  store : σ
  written : List (String × Bytes) := []

instance {σ : Type} [DocumentStore σ] : DocumentStore (Watched σ) where
  read watched key :=
    let (outcome, store) := DocumentStore.read watched.store key
    (outcome, { watched with store })
  write watched key document :=
    let (outcome, store) := DocumentStore.write watched.store key document
    (outcome, { store, written := watched.written ++ [(key, document)] })

namespace Settings

open DocumentStore

variable {σ : Type} [DocumentStore σ] {store : σ} {key : String}

/-- What a document or an error of its store amounts to, where there is one. -/
def ofOccupied : Except SettingsError Bytes → Except SettingsError Settings
  | .ok document => (Json.decode decoder document).mapError .undecodable
  | .error e => .error e

/-- Where no settings are, the defaults are written, and are taken if they could be written. -/
theorem loadOrInit_vacant (h : Vacant store key) :
    loadOrInit store key = ((save (read store key).2 key {}).1.map (fun _ => {}),
      (save (read store key).2 key {}).2) := by
  have hnone : ofRead (read store key).1 = .ok none := by
    rcases h with h | h <;> rw [h] <;> rfl
  simp only [loadOrInit, load, hnone]
  rcases save (read store key).2 key {} with ⟨_ | _, after⟩ <;> rfl

/-- A document that is there is taken as it is, and so is an error. Nothing is written. -/
theorem loadOrInit_occupied (h : ¬Vacant store key) :
    loadOrInit store key = (ofOccupied (read store key).1, (read store key).2) := by
  rw [loadOrInit, load]
  rw [Vacant, not_or] at h
  obtain ⟨hmissing, hempty⟩ := h
  rcases hread : (read store key).1 with e | document
  · have he : e ≠ .notFound := by
      rintro rfl
      exact hmissing hread
    have herror : ofRead (.error e) = .error e := by
      cases e <;> first | rfl | exact absurd rfl he
    simp only [hread, herror]
    rfl
  · have hdocument : document.isEmpty = false := by
      cases document with
      | nil => exact absurd hread hempty
      | cons b rest => rfl
    simp only [hread, ofRead, ofDocument, hdocument, ofOccupied]
    cases Json.decode decoder document <;> rfl

/-- Watching changes nothing, and the defaults are all that is ever written. -/
theorem loadOrInit_watched (watched : Watched σ) (key : String) :
    (loadOrInit watched key).1 = (loadOrInit watched.store key).1 ∧
      (loadOrInit watched key).2.store = (loadOrInit watched.store key).2 ∧
      (Vacant watched.store key →
        (loadOrInit watched key).2.written = watched.written ++ [(key, render {})]) ∧
      (¬Vacant watched.store key → (loadOrInit watched key).2.written = watched.written) := by
  by_cases h : Vacant watched.store key
  · have hwatched : Vacant watched key := h
    rw [loadOrInit_vacant h, loadOrInit_vacant hwatched]
    exact ⟨rfl, rfl, fun _ => rfl, fun hnot => absurd h hnot⟩
  · have hwatched : ¬Vacant watched key := h
    rw [loadOrInit_occupied h, loadOrInit_occupied hwatched]
    exact ⟨rfl, rfl, fun hvacant => absurd hvacant h, fun _ => rfl⟩

theorem load_rendered {settings : Settings} (h : (read store key).1 = .ok settings.render) :
    (load store key).1 = .ok (some settings) := by
  have hsome : settings.render.isEmpty = false := by simpa using settings.render_ne_nil
  show ofRead (read store key).1 = _
  rw [h, ofRead, ofDocument, hsome, decode_render]
  rfl

/-- Rendered settings are taken for what they are. -/
theorem loadOrInit_rendered {settings : Settings}
    (h : (read store key).1 = .ok settings.render) :
    ¬Vacant store key ∧ (loadOrInit store key).1 = .ok settings := by
  have hoccupied : ¬Vacant store key := occupied_of_document h settings.render_ne_nil
  refine ⟨hoccupied, ?_⟩
  rw [loadOrInit_occupied hoccupied, h]
  simp only [ofOccupied, decode_render]
  rfl

variable [Keeps σ]

/-- Settings that were saved are there to be read. -/
theorem read_saved {settings : Settings} (hreads : ¬Fails store key)
    (hsave : (save store key settings).1 = .ok ()) :
    (read (save store key settings).2 key).1 = .ok settings.render :=
  Keeps.read_written store key settings.render hreads hsave

/-- What is there is taken for what it is, and nothing is written over it. -/
theorem loadOrInit_kept (h : ¬Vacant store key) :
    let first := loadOrInit { store : Watched σ } key
    first.1 = ofOccupied (read store key).1 ∧ first.2.written = [] ∧
      SameDocuments store first.2.store := by
  intro first
  obtain ⟨hfirst, hstore, -, hnothing⟩ := loadOrInit_watched { store : Watched σ } key
  rw [loadOrInit_occupied h] at hfirst hstore
  exact ⟨hfirst, hnothing h, hstore ▸ Keeps.read_same store key⟩

/-- Once settings were loaded, loading them again gives the same and writes nothing. -/
theorem loadOrInit_again {settings : Settings} (h : (loadOrInit store key).1 = .ok settings) :
    ¬Vacant (loadOrInit store key).2 key ∧
      (loadOrInit (loadOrInit store key).2 key).1 = .ok settings := by
  have hsame : (read (read store key).2 key).1 = (read store key).1 := Keeps.read_same store key key
  by_cases hvacant : Vacant store key
  · have hreads : ¬Fails (read store key).2 key := by
      rintro ⟨e, herror, he⟩
      rw [hsame] at herror
      rcases hvacant with hnone | hnone <;> cases hnone.symm.trans herror
      exact he rfl
    rw [loadOrInit_vacant hvacant] at h ⊢
    rcases hsave : (save (read store key).2 key {}).1 with e | _
    · rw [hsave] at h
      cases h
    · rw [hsave] at h
      cases h
      exact loadOrInit_rendered (read_saved hreads hsave)
  · have hagain : ¬Vacant (read store key).2 key := by
      rwa [Vacant, hsame, ← Vacant]
    rw [loadOrInit_occupied hvacant] at h ⊢
    exact ⟨hagain, by rw [loadOrInit_occupied hagain, hsame]; exact h⟩

/-! ## The law -/

/-- Let a store keep its documents. Settings that were saved load again as they were. If there is no
document, the defaults are written once, and otherwise nothing is written and all documents stay.
After a success the same settings are loaded again, and nothing more is written. -/
theorem stored_settings_load_and_are_never_written_over (store : σ) (key : String) :
    (∀ settings, ¬Fails store key → (save store key settings).1 = .ok () →
      (load (save store key settings).2 key).1 = .ok (some settings)) ∧
    let first := loadOrInit { store : Watched σ } key
    first.1 = (loadOrInit store key).1 ∧ first.2.store = (loadOrInit store key).2 ∧
    (Vacant store key → first.2.written = [(key, render {})] ∧
      first.1 = (save (read store key).2 key {}).1.map (fun _ => {})) ∧
    (∀ document, (read store key).1 = .ok document → document ≠ [] →
      first.1 = (Json.decode decoder document).mapError .undecodable ∧
        first.2.written = [] ∧ SameDocuments store first.2.store) ∧
    (∀ e, (read store key).1 = .error e → e ≠ .notFound →
      first.1 = .error e ∧ first.2.written = [] ∧ SameDocuments store first.2.store) ∧
    ∀ settings, first.1 = .ok settings →
      let second := loadOrInit first.2 key
      second.1 = .ok settings ∧ second.2.written = first.2.written := by
  refine ⟨fun settings hreads hsave => load_rendered (read_saved hreads hsave), ?_⟩
  intro first
  obtain ⟨hfirst, hstore, hvacant, -⟩ := loadOrInit_watched { store : Watched σ } key
  refine ⟨hfirst, hstore, fun h => ⟨hvacant h, hfirst.trans ?_⟩, fun document hread hsome => ?_,
    fun e hread he => ?_, fun settings hsettings => ?_⟩
  · rw [loadOrInit_vacant h]
  · have hkept := loadOrInit_kept (occupied_of_document hread hsome)
    rwa [hread] at hkept
  · have hkept := loadOrInit_kept (occupied_of_error hread he)
    rwa [hread] at hkept
  · obtain ⟨hagain, hsame⟩ := loadOrInit_again (hfirst.symm.trans hsettings)
    obtain ⟨hsecond, -, -, hnothing⟩ := loadOrInit_watched first.2 key
    rw [← hstore] at hagain hsame
    exact ⟨hsecond.trans hsame, hnothing hagain⟩

/-- Settings that were saved, a malformed document, and defaults that are written to an empty
store. -/
theorem stored_settings_load_from_memory :
    let settings : Settings :=
      { holdTime := 18446744073709551615, strategy := .robust, window := 0, logFilter := "\"é\n" }
    let malformed := MemoryStore.ofDocument documentKey (Json.bytesOf "oops")
    (load (save ({} : MemoryStore) documentKey settings).2 documentKey).1 = .ok (some settings) ∧
      (loadOrInit (⟨malformed, []⟩ : Watched MemoryStore) documentKey).2.written = [] ∧
      (loadOrInit (⟨{}, []⟩ : Watched MemoryStore) documentKey).2.written =
        [(documentKey, render {})] := by
  intro settings malformed
  have hreads : ¬Fails ({} : MemoryStore) documentKey := by
    rintro ⟨e, herror, he⟩
    cases herror
    exact he rfl
  refine ⟨?_, ?_, ?_⟩
  · exact (stored_settings_load_and_are_never_written_over ({} : MemoryStore) documentKey).1
      settings hreads rfl
  · obtain ⟨-, -, -, -, hdocument, -⟩ :=
      stored_settings_load_and_are_never_written_over malformed documentKey
    exact (hdocument (Json.bytesOf "oops") rfl (by decide)).2.1
  · obtain ⟨-, -, -, hvacant, -⟩ :=
      stored_settings_load_and_are_never_written_over ({} : MemoryStore) documentKey
    exact (hvacant (Or.inl rfl)).1

end Settings

end TopologySync
