import Hearth.Settings.Decode
import Hearth.Settings.Include

/-!
# Loading settings

Settings are read from a file in the directory of the house; the paths in them start there too.
-/

namespace Hearth.Settings

/-- The settings with the paths in them as seen from outside the directory. -/
def anchor (dir : String) (s : Settings) : Settings :=
  { s with
    scripts := s.scripts.map (Path.join dir)
    stateFile := s.stateFile.map (Path.join dir) }

/-- The settings in a file of a directory. -/
def load (files : Files) (environment : List (String × String)) (dir file : String) :
    Except Error Settings := do
  let sources ← Sources.ofDirectory files environment dir
  let settings ← ofYaml (← sources.load file)
  return settings.anchor dir

end Hearth.Settings
