import ProxyConfig.Files.Access
import ProxyConfig.Settings

/-! # The settings file

Settings stand in the file `leafconf.toml` of a directory. A directory without that file has the
default settings.
-/

namespace ProxyConfig

/-- Why a settings file cannot be used. -/
inductive SettingsError where
  | access (error : AccessError)
  | malformed
deriving DecidableEq

namespace Settings

variable {m : Type → Type} [Monad m] [FileSystem m]

/-- The name of the settings file. -/
def fileName : String := "leafconf.toml"

/-- Reads the settings off a file. -/
def read (path : String) : m (Except SettingsError Settings) := do
  match ← FileSystem.readText path with
  | .error e => return .error (.access e)
  | .ok text =>
    match parse? text.toList with
    | none => return .error .malformed
    | some settings => return .ok settings

/-- Reads the settings of a directory. -/
def load (directory : String) : m (Except SettingsError Settings) := do
  let path := joinPath directory fileName
  if ← FileSystem.exists? path then read path else return .ok {}

/-- Reads the settings of a directory; a file that cannot be used counts as missing. -/
def loadOrDefault (directory : String) : m Settings := do
  match ← load directory with
  | .ok settings => return settings
  | .error _ => return {}

end Settings

end ProxyConfig
