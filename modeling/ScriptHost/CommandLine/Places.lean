import ScriptHost.Address
import ScriptHost.CommandLine.Arguments
import ScriptHost.Config

/-!
# Places

The paths that a run of the program can ask for before it knows what the script wants: those
that its words name, those of its settings, and the place of the user's own configuration.
-/

namespace ScriptHost

/-- The files that settings name. -/
def Config.paths (c : Config) : List String := c.references ++ c.logging.file.toList

namespace CommandLine

/-- The files that the words name: the configuration, the script and the module. -/
def Arguments.paths (args : Arguments) : List String :=
  let script := match args.command with
    | .run path => [path]
    | .engines => []
  let module := match Address.parse args.options.address with
    | .ok a => [a.module]
    | .error _ => []
  args.options.config.toList ++ script ++ module

/-- The place of the user's own configuration. The directory for configurations counts if its
path leads from the root; else it is in the home directory. -/
def userConfig? (configHome home : Option String) : Option String :=
  let directory := match configHome.filter (·.startsWith "/") with
    | some path => some path
    | none => (home.filter (· ≠ "")).map (· ++ "/.config")
  directory.map (· ++ "/scriptrun/scriptrun.toml")

end CommandLine

end ScriptHost
