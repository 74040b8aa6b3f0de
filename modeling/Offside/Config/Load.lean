import Offside.Config.Toml
import Offside.Files.World

/-!
# Loading settings

Settings are kept in two files, one for the user and one for the project, the
latter winning. A file that cannot be read sets nothing, and that is not worth
a word; a file that is no valid file of settings sets nothing either, not even
what stands before its fault, and that is logged as a warning.
-/

namespace Offside

/-- **The environment as far as it matters**: where the user's settings are
kept. -/
structure Environment where
  /-- The directory for settings, if one is named. -/
  configHome : Option String
  /-- The directory of the user, if there is one. -/
  home : Option String
  deriving Repr, DecidableEq

/-- The directory of a project's settings. -/
def settingsDirectory : Path := ⟨".codeconv"⟩

/-- The name of a file of settings. -/
def settingsFile : Path := ⟨"config.toml"⟩

/-- **The file of the user's settings.** A directory for settings counts even if
its name is empty, a directory of the user does not. -/
def Environment.globalSettings? (e : Environment) : Option Path :=
  let base := match e.configHome with
    | some directory => some (Path.mk directory)
    | none => (e.home.filter (· ≠ "")).map fun home => (Path.mk home).join ⟨".config"⟩
  base.map fun base => (base.join ⟨"codeconv"⟩).join settingsFile

/-- **The file of a project's settings**, from the root of the project. -/
def projectSettings (root : Path) : Path := (root.join settingsDirectory).join settingsFile

variable {m : Type → Type} [Monad m] [MonadFiles m]

/-- **The layer in a file**; the layer that sets nothing if there is none. -/
def loadLayer (p : Path) : m Layer := do
  match ← MonadFiles.readText p with
  | .error _ => return .unset
  | .ok text =>
    match Layer.ofText text with
    | some layer =>
      MonadFiles.log (.loadedConfig p.text)
      return layer
    | none =>
      MonadFiles.log (.ignoredConfig p.text)
      return .unset

/-- **The layers of the user and of the project**, merged. -/
def loadLayers (global : Option Path) (root : Path) : m Layer := do
  let user ← match global with
    | some p => loadLayer p
    | none => pure .unset
  let project ← loadLayer (projectSettings root)
  return user.merge project

end Offside
