-- The settings document of the daemon: what it holds, what may not be
-- run with, and how it is written.
import TopologySync.Json.Decoder
import TopologySync.Json.Writer
import TopologySync.Metric.Scaling

namespace TopologySync

/-- The settings of the daemon. What a document leaves out has its default. -/
structure Settings where
  /-- How long a burst of events must be quiet to end, in milliseconds. -/
  holdTime : UInt64 := 1000
  strategy : Strategy := .minMax
  /-- The capacity of the threshold windows. -/
  window : UInt64 := 16
  logFilter : String := "info"
deriving DecidableEq

/-- A setting that may not be zero. -/
inductive SettingsField where
  | holdTime
  | window
deriving DecidableEq, Repr

def SettingsField.name : SettingsField → String
  | holdTime => "hold_time_ms"
  | window => "threshold_window"

namespace Settings

/-- The key that the settings are stored under. -/
def documentKey : String := "sync"

/-- The whole seconds of the hold time. -/
def holdSeconds (settings : Settings) : UInt64 :=
  settings.holdTime / 1000

/-- The milliseconds of the hold time past its whole seconds. -/
def holdMilliseconds (settings : Settings) : UInt64 :=
  settings.holdTime % 1000

/-- The first setting that may not be run with. -/
def invalidField? (settings : Settings) : Option SettingsField :=
  if settings.holdTime = 0 then some .holdTime
  else if settings.window = 0 then some .window
  else none

/-! ## The document -/

open Json (Decoder)
open Json.Field (optional)

/-- A strategy by its spelling. -/
def strategyDecoder : Decoder Strategy :=
  Decoder.choice Strategy.ofName?

def decoder : Decoder Settings :=
  Decoder.record
    (.cons (optional "hold_time_ms" Decoder.uint64 1000) <|
     .cons (optional "normalization" strategyDecoder .minMax) <|
     .cons (optional "threshold_window" Decoder.uint64 16) <|
     .cons (optional "log_filter" Decoder.text "info") .nil)
    Settings.mk

/-- One member of the document on a line of its own. -/
def memberLine (name : String) (value : Bytes) : Bytes :=
  Json.bytesOf "\n  " ++ Json.quoted name ++ Json.bytesOf ": " ++ value

/-- The settings as a document, with a line for each member. -/
def render (settings : Settings) : Bytes :=
  [Json.Byte.openObject]
    ++ memberLine "hold_time_ms" (Json.decimal settings.holdTime.toNat) ++ [Json.Byte.comma]
    ++ memberLine "normalization" (Json.quoted settings.strategy.name) ++ [Json.Byte.comma]
    ++ memberLine "threshold_window" (Json.decimal settings.window.toNat) ++ [Json.Byte.comma]
    ++ memberLine "log_filter" (Json.quoted settings.logFilter)
    ++ Json.bytesOf "\n" ++ [Json.Byte.closeObject]

end Settings

end TopologySync
