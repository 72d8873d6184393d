import TwitchBot.EnvFile

/-!
Translation of the options and the start of `main.cpp`, and of
`overlay_process_environment` of `config.cpp`. The files and the variables of
the process are functions; a file that cannot be opened is `none`. What goes to
the standard output is left out.
-/

namespace TwitchBot

structure Options where
  envFile : Bytes := bytes ".env"
  configFile : Bytes := []
  checkConfig : Bool := false
  help : Bool := false
  deriving DecidableEq

def requiresPath (argument : Bytes) : Except Bytes Options := .error (argument ++ bytes " requires a path")

/-- The loop of `parse_options`, from some argument on. -/
def parseArguments : List Bytes → Options → Except Bytes Options
  | [], options => .ok options
  | argument :: arguments, options =>
    if argument = bytes "--env" then
      match arguments with
      | [] => requiresPath argument
      | path :: arguments => parseArguments arguments { options with envFile := path }
    else if argument = bytes "--config" then
      match arguments with
      | [] => requiresPath argument
      | path :: arguments => parseArguments arguments { options with configFile := path }
    else if argument = bytes "--check-config" then parseArguments arguments { options with checkConfig := true }
    else if argument = bytes "--help" ∨ argument = bytes "-h" then
      parseArguments arguments { options with help := true }
    else .error (bytes "Unknown argument: " ++ argument)

/-- The first argument is the name of the program. -/
def parseOptions (arguments : List Bytes) : Except Bytes Options := parseArguments (arguments.drop 1) {}

/-- What a process finds: the content of files, and its environment. -/
structure Process where
  files : Bytes → Option Bytes
  getenv : Bytes → Option Bytes

def readFile (process : Process) (path : Bytes) : Except Bytes Bytes :=
  match process.files path with
  | none => .error (bytes "Could not open configuration file: " ++ path)
  | some contents => .ok contents

def overlayKeys : List Bytes :=
  [bytes "TWITCH_BOT_USERNAME", bytes "TWITCH_OAUTH_TOKEN", bytes "TWITCH_CHANNELS", bytes "TWITCH_CONFIG_FILE",
    bytes "TWITCH_LOG_RAW_IRC"]

/-- One round of the loop over the keys. -/
def overlay (getenv : Bytes → Option Bytes) (base : Environment) (key : Bytes) : Environment :=
  match getenv key with
  | none => base
  | some value => base.insert key value

def overlayProcessEnvironment (getenv : Bytes → Option Bytes) (base : Environment) : Environment :=
  overlayKeys.foldl (overlay getenv) base

/-- The path of the bot configuration. -/
def configPath (options : Options) (environment : Environment) : Bytes :=
  if options.configFile ≠ [] then options.configFile
  else match environment.lookup (bytes "TWITCH_CONFIG_FILE") with
    | none => bytes "config/bot.json"
    | some path => if path ≠ [] then path else bytes "config/bot.json"

/-- The configuration that `main` reads; an exception is its text. -/
def loadConfig (parseJson : JsonParser) (process : Process) (options : Options) : Except Bytes RuntimeConfig := do
  let base ← (loadEnvFile (process.files options.envFile)).mapError bytes
  let environment := overlayProcessEnvironment process.getenv base
  let contents ← readFile process (configPath options environment)
  (parseRuntimeConfig parseJson environment contents).mapError bytes

/-- How `main` goes on: it returns 0 behind the usage text or the check of the
configuration, returns 1 if it fails to start, or runs its event loop. -/
inductive Startup
  | usage
  | startupFailed (what : Bytes)
  | configurationValid (config : RuntimeConfig)
  | run (config : RuntimeConfig)
  deriving DecidableEq

def main (parseJson : JsonParser) (process : Process) (arguments : List Bytes) : Startup :=
  match parseOptions arguments with
  | .error what => .startupFailed what
  | .ok options =>
    if options.help then .usage
    else match loadConfig parseJson process options with
      | .error what => .startupFailed what
      | .ok config => if options.checkConfig then .configurationValid config else .run config

end TwitchBot
