-- The settings that the daemon runs with: those of the store, with what
-- the command line has instead, and only if they may be run with.
import TopologySync.Daemon.Arguments
import TopologySync.Settings.Store

namespace TopologySync

/-- Why there are no settings to run with. -/
inductive StartupError where
  /-- They cannot be loaded. -/
  | loading (cause : SettingsError)
  /-- A setting may not be run with. -/
  | invalid (field : SettingsField)
deriving DecidableEq

namespace StartupError

/-- The error of the settings behind it. -/
def cause : StartupError → SettingsError
  | loading cause => cause
  | invalid field => .invalid field

/-- The settings were not even loaded. -/
def isLoading : StartupError → Bool
  | loading _ => true
  | invalid _ => false

end StartupError

namespace Arguments

/-- Puts what a command line has instead into settings. -/
def override (arguments : Arguments) (settings : Settings) : Settings :=
  { settings with
    holdTime := arguments.holdTime.getD settings.holdTime
    strategy := arguments.strategy.getD settings.strategy }

section

variable (arguments : Arguments) (settings : Settings)

@[simp] theorem holdTime_override :
    (arguments.override settings).holdTime = arguments.holdTime.getD settings.holdTime :=
  rfl

@[simp] theorem strategy_override :
    (arguments.override settings).strategy = arguments.strategy.getD settings.strategy :=
  rfl

@[simp] theorem window_override : (arguments.override settings).window = settings.window :=
  rfl

@[simp] theorem logFilter_override :
    (arguments.override settings).logFilter = settings.logFilter :=
  rfl

end

/-- Settings with what a command line has instead, if they may be run with. -/
def settle (arguments : Arguments) (settings : Settings) : Except StartupError Settings :=
  let settings := arguments.override settings
  match settings.invalidField? with
  | some field => .error (.invalid field)
  | none => .ok settings

/-- Loads the settings to run with. What the command line has instead is
not saved. -/
def settings {σ : Type} [DocumentStore σ] (arguments : Arguments) (store : σ) :
    Except StartupError Settings × σ :=
  match Settings.loadOrInit store Settings.documentKey with
  | (.error cause, store) => (.error (.loading cause), store)
  | (.ok settings, store) => (arguments.settle settings, store)

end Arguments

end TopologySync
