/-!
# The command line

The options of the program. Each long option takes its value as the next argument or behind an
equals sign; what is no option is the path of a script.
-/

namespace Hearth

/-- The options of the program. -/
structure Command where
  /-- The directory with the settings and the secrets. -/
  dir : String
  /-- The file with the settings, as seen from the directory. -/
  file : String
  /-- Are statements read from standard input after the scripts have run? -/
  interactive : Bool
  /-- The scripts to be run after those of the settings. -/
  scripts : List String
  deriving Repr, DecidableEq, Inhabited

namespace Command

/-- The options when none are given; a directory may be set by the environment. -/
def standard (dir? : Option String) : Command := ⟨dir?.getD ".", "hearth.yaml", false, []⟩

/-- How the program is used. -/
def usage : String :=
  "usage: hearth [--config-dir DIR] [--config FILE] [-i | --interactive] [SCRIPT…]"

/-- The refusal of an argument. -/
def unexpected (arg : String) : String := "unexpected argument '" ++ arg ++ "' found"

/-- The refusal of an option without its value. -/
def valueMissing (option : String) : String := "a value is required for '" ++ option ++ "'"

/-- Sets an option that has a value. -/
def setOption (c : Command) (option value : String) : Except String Command :=
  match option with
  | "--config-dir" => .ok { c with dir := value }
  | "--config" => .ok { c with file := value }
  | _ => .error (unexpected option)

/-- Reads arguments in order. Behind two dashes everything is a script. -/
def read (c : Command) : List String → Except String Command
  | [] => .ok c
  | "--" :: rest => .ok { c with scripts := c.scripts ++ rest }
  | "-i" :: rest | "--interactive" :: rest => { c with interactive := true }.read rest
  | ["--config-dir"] => .error (valueMissing "--config-dir")
  | ["--config"] => .error (valueMissing "--config")
  | "--config-dir" :: dir :: rest => { c with dir }.read rest
  | "--config" :: file :: rest => { c with file }.read rest
  | arg :: rest =>
    if !arg.startsWith "-" || arg == "-" then { c with scripts := c.scripts ++ [arg] }.read rest
    else
      match arg.splitOn "=" with
      | option :: value :: more =>
        match c.setOption option (String.intercalate "=" (value :: more)) with
        | .ok c => c.read rest
        | .error e => .error e
      | _ => .error (unexpected arg)

end Command

end Hearth
