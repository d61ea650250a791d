-- Where settings are kept: a store of raw documents by key, and what is
-- loaded from it and saved to it. The settings are read and written
-- here; a store only keeps bytes.
import TopologySync.Json.Value
import TopologySync.Settings.Basic

namespace TopologySync

/-- Why settings cannot be loaded, saved or run with. -/
inductive SettingsError where
  /-- The store has no document of this key. -/
  | notFound
  /-- The files of the store cannot be read or written. -/
  | unreachable
  /-- The document holds no settings. -/
  | undecodable (problem : Json.Problem)
  /-- A setting may not be run with. -/
  | invalid (field : SettingsField)
  /-- The store refuses, for a reason of its own. -/
  | refused (reason : String)
deriving DecidableEq

/-- What is said of an error, where the words are not those of the system
or of the reader of documents. -/
def SettingsError.message? : SettingsError → Option String
  | notFound => some "not found"
  | unreachable => none
  | undecodable _ => none
  | invalid field => some ("invalid " ++ field.name ++ ": must be greater than zero")
  | refused reason => some ("other: " ++ reason)

/-- A store of raw documents by key. -/
class DocumentStore (σ : Type) where
  read : σ → String → Except SettingsError Bytes × σ
  write : σ → String → Bytes → Except SettingsError Unit × σ

namespace Settings

/-- The settings as they may be run with. -/
def validate (settings : Settings) : Except SettingsError Unit :=
  match settings.invalidField? with
  | some field => .error (.invalid field)
  | none => .ok ()

/-- What a document holds. An empty document holds nothing. -/
def ofDocument (document : Bytes) : Except SettingsError (Option Settings) :=
  if document.isEmpty then .ok none
  else match Json.decode decoder document with
    | .ok settings => .ok (some settings)
    | .error problem => .error (.undecodable problem)

/-- What the outcome of reading a document amounts to. A document that is
not there holds nothing. -/
def ofRead : Except SettingsError Bytes → Except SettingsError (Option Settings)
  | .ok document => ofDocument document
  | .error .notFound => .ok none
  | .error e => .error e

variable {σ : Type} [DocumentStore σ]

/-- Loads the settings of a key, if there are any. -/
def load (store : σ) (key : String) : Except SettingsError (Option Settings) × σ :=
  let (document, store) := DocumentStore.read store key
  (ofRead document, store)

/-- Saves settings under a key. -/
def save (store : σ) (key : String) (settings : Settings) : Except SettingsError Unit × σ :=
  DocumentStore.write store key settings.render

/-- Loads the settings of a key. If there are none, the defaults are saved
and taken. -/
def loadOrInit (store : σ) (key : String) : Except SettingsError Settings × σ :=
  match load store key with
  | (.error e, store) => (.error e, store)
  | (.ok (some settings), store) => (.ok settings, store)
  | (.ok none, store) => match save store key {} with
    | (.ok (), store) => (.ok {}, store)
    | (.error e, store) => (.error e, store)

end Settings

/-! ## A store in memory -/

instance : LawfulBEq Bytes :=
  inferInstance

/-- A store in memory that counts its uses and may be told to refuse. -/
structure MemoryStore where
  documents : Std.ExtTreeMap String Bytes := ∅
  reads : Nat := 0
  writes : Nat := 0
  refusesReads : Bool := false
  refusesWrites : Bool := false
deriving DecidableEq

namespace MemoryStore

/-- A store with one document. -/
def ofDocument (key : String) (document : Bytes) : MemoryStore :=
  { documents := Std.ExtTreeMap.ofList [(key, document)] }

def read (store : MemoryStore) (key : String) : Except SettingsError Bytes × MemoryStore :=
  let outcome := if store.refusesReads then .error (.refused "simulated load failure")
    else match store.documents[key]? with
      | some document => .ok document
      | none => .error .notFound
  (outcome, { store with reads := store.reads + 1 })

def write (store : MemoryStore) (key : String) (document : Bytes) :
    Except SettingsError Unit × MemoryStore :=
  let store := { store with writes := store.writes + 1 }
  if store.refusesWrites then (.error (.refused "simulated save failure"), store)
  else (.ok (), { store with documents := store.documents.insert key document })

instance : DocumentStore MemoryStore where
  read := read
  write := write

end MemoryStore

end TopologySync
