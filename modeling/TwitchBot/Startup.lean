import TwitchBot.Library.ExceptRun
import TwitchBot.Library.LastWins
import TwitchBot.ConfigValid
import TwitchBot.Main

namespace TwitchBot

open ExceptRun LastWins

/-- The options that a command line can give. -/
inductive Flag
  | env (path : Bytes)
  | config (path : Bytes)
  | checkConfig
  | help
  | shortHelp
  deriving DecidableEq

namespace Flag

/-- The arguments that give an option. -/
def words : Flag → List Bytes
  | env path => [bytes "--env", path]
  | config path => [bytes "--config", path]
  | checkConfig => [bytes "--check-config"]
  | help => [bytes "--help"]
  | shortHelp => [bytes "-h"]

def envPath : Flag → Option Bytes
  | env path => some path
  | _ => none

def configPath : Flag → Option Bytes
  | config path => some path
  | _ => none

/-- What a command line means: the last path of each kind counts, and so does
each of the other options wherever it is given. -/
def denoted (flags : List Flag) : Options where
  envFile := (flags.filterMap envPath).getLast?.getD (bytes ".env")
  configFile := (flags.filterMap configPath).getLast?.getD []
  checkConfig := decide (checkConfig ∈ flags)
  help := decide (help ∈ flags) || decide (shortHelp ∈ flags)

/-- What the round of the loop that reads an option does. -/
def set (options : Options) : Flag → Options
  | env path => { options with envFile := path }
  | config path => { options with configFile := path }
  | checkConfig => { options with checkConfig := true }
  | help | shortHelp => { options with help := true }

theorem denoted_concat (flags : List Flag) (flag : Flag) : denoted (flags ++ [flag]) = set (denoted flags) flag := by
  cases flag <;> simp [denoted, set, envPath, configPath]

theorem denoted_eq (flags : List Flag) : denoted flags = flags.foldl set {} := by
  induction flags using List.reverseRecOn with
  | nil => rfl
  | append_singleton flags flag ih => rw [denoted_concat, ih, List.foldl_append, List.foldl_cons, List.foldl_nil]

end Flag

/-- Arguments that no option starts with, and what `parse_options` says of them. -/
inductive Unreadable : List Bytes → Bytes → Prop
  | env : Unreadable [bytes "--env"] (bytes "--env requires a path")
  | config : Unreadable [bytes "--config"] (bytes "--config requires a path")
  | unknown {argument : Bytes} {more : List Bytes} : (∀ flag : Flag, flag.words.head? ≠ some argument) →
    Unreadable (argument :: more) (bytes "Unknown argument: " ++ argument)

theorem unreadable_of_unknown {argument : Bytes} (notEnv : argument ≠ bytes "--env")
    (notConfig : argument ≠ bytes "--config") (notCheck : argument ≠ bytes "--check-config")
    (notHelp : ¬(argument = bytes "--help" ∨ argument = bytes "-h")) (more : List Bytes) :
    Unreadable (argument :: more) (bytes "Unknown argument: " ++ argument) := by
  refine .unknown (fun flag same => ?_)
  cases flag with
  | env path => exact notEnv (Option.some.inj same).symm
  | config path => exact notConfig (Option.some.inj same).symm
  | checkConfig => exact notCheck (Option.some.inj same).symm
  | help => exact notHelp (Or.inl (Option.some.inj same).symm)
  | shortHelp => exact notHelp (Or.inr (Option.some.inj same).symm)

theorem parseArguments_flag (flag : Flag) (rest : List Bytes) (options : Options) :
    parseArguments (flag.words ++ rest) options = parseArguments rest (Flag.set options flag) := by
  cases flag with
  | env path => rfl
  | config path => rfl
  | checkConfig => cases rest <;> rfl
  | help => cases rest <;> rfl
  | shortHelp => cases rest <;> rfl

theorem parseArguments_flags (flags : List Flag) (rest : List Bytes) (options : Options) :
    parseArguments (flags.flatMap Flag.words ++ rest) options =
      parseArguments rest (flags.foldl Flag.set options) := by
  induction flags generalizing options with
  | nil => rfl
  | cons flag flags ih =>
    rw [List.flatMap_cons, List.append_assoc, parseArguments_flag, ih, List.foldl_cons]

theorem Unreadable.thrown {rest : List Bytes} {what : Bytes} (unreadable : Unreadable rest what) (options : Options) :
    parseArguments rest options = .error what := by
  cases unreadable with
  | env => rfl
  | config => rfl
  | @unknown argument more unknown =>
    have notEnv : argument ≠ bytes "--env" := fun same => unknown (.env []) (congrArg some same.symm)
    have notConfig : argument ≠ bytes "--config" := fun same => unknown (.config []) (congrArg some same.symm)
    have notCheck : argument ≠ bytes "--check-config" := fun same => unknown .checkConfig (congrArg some same.symm)
    have notHelp : ¬(argument = bytes "--help" ∨ argument = bytes "-h") := by
      rintro (same | same)
      · exact unknown .help (congrArg some same.symm)
      · exact unknown .shortHelp (congrArg some same.symm)
    unfold parseArguments
    rw [if_neg notEnv, if_neg notConfig, if_neg notCheck, if_neg notHelp]

/-- Arguments are some options, and then nothing or what no option starts with. -/
def Splits (arguments : List Bytes) : Prop :=
  ∃ (flags : List Flag) (rest : List Bytes), arguments = flags.flatMap Flag.words ++ rest ∧
    (rest = [] ∨ ∃ what, Unreadable rest what)

theorem Splits.cons {arguments : List Bytes} (splits : Splits arguments) (flag : Flag) :
    Splits (flag.words ++ arguments) := by
  obtain ⟨flags, rest, rfl, ends⟩ := splits
  exact ⟨flag :: flags, rest, by rw [List.flatMap_cons, List.append_assoc], ends⟩

theorem Splits.of_unreadable {rest : List Bytes} {what : Bytes} (unreadable : Unreadable rest what) : Splits rest :=
  ⟨[], rest, rfl, Or.inr ⟨what, unreadable⟩⟩

theorem splits (arguments : List Bytes) (options : Options) : Splits arguments := by
  fun_induction parseArguments arguments options with
  | case1 options => exact ⟨[], [], rfl, Or.inl rfl⟩
  | case2 options => exact .of_unreadable .env
  | case3 options path arguments ih => exact ih.cons (.env path)
  | case4 options _ => exact .of_unreadable .config
  | case5 options path arguments _ ih => exact ih.cons (.config path)
  | case6 arguments options _ _ ih => exact ih.cons .checkConfig
  | case7 argument arguments options _ _ _ isHelp ih =>
    rcases isHelp with rfl | rfl
    · exact ih.cons .help
    · exact ih.cons .shortHelp
  | case8 argument arguments options notEnv notConfig notCheck notHelp =>
    exact .of_unreadable (unreadable_of_unknown notEnv notConfig notCheck notHelp arguments)

/-- The command lines that `parse_options` accepts are the sequences of options,
read for what they mean; of any other it names the first argument that is no
option, or the option at its end that lacks a path. -/
theorem parseOptions_exact (program : Bytes) (arguments : List Bytes) :
    (∀ options, parseOptions (program :: arguments) = .ok options ↔
        ∃ flags : List Flag, arguments = flags.flatMap Flag.words ∧ options = Flag.denoted flags) ∧
      (∀ what, parseOptions (program :: arguments) = .error what ↔
        ∃ (flags : List Flag) (rest : List Bytes), arguments = flags.flatMap Flag.words ++ rest ∧
          Unreadable rest what) := by
  have reads (flags : List Flag) : parseOptions (program :: flags.flatMap Flag.words) = .ok (Flag.denoted flags) := by
    have read := parseArguments_flags flags [] {}
    rw [List.append_nil] at read
    rw [Flag.denoted_eq]
    exact read
  have throws {flags : List Flag} {rest : List Bytes} {what : Bytes} (unreadable : Unreadable rest what) :
      parseOptions (program :: (flags.flatMap Flag.words ++ rest)) = .error what :=
    (parseArguments_flags flags rest {}).trans (unreadable.thrown _)
  obtain ⟨flags, rest, rfl, ends⟩ := splits arguments {}
  refine ⟨fun options => ⟨fun read => ?_, ?_⟩, fun what => ⟨fun thrown => ?_, ?_⟩⟩
  · rcases ends with rfl | ⟨what, unreadable⟩
    · rw [List.append_nil, reads] at read
      exact ⟨flags, List.append_nil _, (Except.ok.inj read).symm⟩
    · rw [throws unreadable] at read
      cases read
  · rintro ⟨others, same, rfl⟩
    rw [same, reads]
  · rcases ends with rfl | ⟨other, unreadable⟩
    · rw [List.append_nil, reads] at thrown
      cases thrown
    · rw [throws unreadable] at thrown
      cases Except.error.inj thrown
      exact ⟨flags, rest, rfl, unreadable⟩
  · rintro ⟨others, left, same, unreadable⟩
    rw [same, throws unreadable]

/-- The variables that a process has, as assignments. -/
def exported (getenv : Bytes → Option Bytes) (keys : List Bytes) : List (Bytes × Bytes) :=
  keys.filterMap (fun key => (getenv key).map (key, ·))

theorem lastValue_exported (getenv : Bytes → Option Bytes) (keys : List Bytes) (key : Bytes) :
    lastValue (exported getenv keys) key = if key ∈ keys then getenv key else none := by
  induction keys using List.reverseRecOn with
  | nil => rfl
  | append_singleton keys last ih =>
    have split : exported getenv (keys ++ [last]) =
        exported getenv keys ++ ((getenv last).map (last, ·)).toList := by
      cases found : getenv last <;> simp [exported, found]
    rw [split]
    cases found : getenv last with
    | none =>
      rw [Option.map_none, Option.toList_none, List.append_nil, ih]
      by_cases same : key = last
      · simp [same, found]
      · simp [same]
    | some value =>
      rw [Option.map_some, Option.toList_some, lastValue_concat, ih]
      by_cases same : last = key
      · subst same
        simp [found]
      · simp [same, Ne.symm same]

theorem foldl_overlay (getenv : Bytes → Option Bytes) (keys : List Bytes) (base : Environment) :
    keys.foldl (overlay getenv) base = assignAll (exported getenv keys) base := by
  induction keys generalizing base with
  | nil => rfl
  | cons key keys ih =>
    rw [List.foldl_cons, ih, overlay]
    cases found : getenv key <;> simp [exported, found, assignAll_cons]

/-- A variable of the process comes before an entry of the file. -/
theorem overlayProcessEnvironment_lookup (getenv : Bytes → Option Bytes) (base : Environment) {key : Bytes}
    (member : key ∈ overlayKeys) :
    (overlayProcessEnvironment getenv base).lookup key = (getenv key).or (base.lookup key) := by
  rw [overlayProcessEnvironment, foldl_overlay, assignAll_lookup, lastValue_exported, if_pos member]

/-- Of an environment, `parse_runtime_config` reads four variables. -/
theorem parseRuntimeConfig_congr (parseJson : JsonParser) (botJson : Bytes) {environment other : Environment}
    (same : ∀ key ∈ overlayKeys, environment.lookup key = other.lookup key) :
    parseRuntimeConfig parseJson environment botJson = parseRuntimeConfig parseJson other botJson := by
  simp only [parseRuntimeConfig, requireEnvironment, readLogRawIrc,
    same (bytes "TWITCH_BOT_USERNAME") (by decide), same (bytes "TWITCH_OAUTH_TOKEN") (by decide),
    same (bytes "TWITCH_CHANNELS") (by decide), same (bytes "TWITCH_LOG_RAW_IRC") (by decide)]

theorem configPath_congr (options : Options) {environment other : Environment}
    (same : ∀ key ∈ overlayKeys, environment.lookup key = other.lookup key) :
    configPath options environment = configPath options other := by
  simp only [configPath, same (bytes "TWITCH_CONFIG_FILE") (by decide)]

/-- The value of a setting: that of the process, or else that of the file. -/
def Process.setting (process : Process) (base : Environment) (key : Bytes) : Option Bytes :=
  (process.getenv key).or (base.lookup key)

/-- It does not matter where the settings come from: two processes with the same
arguments, for which the five settings have the same values, each from the
process or else from its `.env` file, and which find the same text in the
configuration file, start in the same way. -/
theorem settings_decide (parseJson : JsonParser) {arguments : List Bytes} {options : Options}
    (parsed : parseOptions arguments = .ok options) {process other : Process} {base base' : Environment}
    (loaded : loadEnvFile (process.files options.envFile) = .ok base)
    (loaded' : loadEnvFile (other.files options.envFile) = .ok base')
    (settings : ∀ key ∈ overlayKeys, process.setting base key = other.setting base' key)
    (contents : process.files (configPath options (overlayProcessEnvironment process.getenv base)) =
      other.files (configPath options (overlayProcessEnvironment process.getenv base))) :
    main parseJson process arguments = main parseJson other arguments := by
  have same : ∀ key ∈ overlayKeys, (overlayProcessEnvironment process.getenv base).lookup key =
      (overlayProcessEnvironment other.getenv base').lookup key := by
    intro key member
    rw [overlayProcessEnvironment_lookup _ _ member, overlayProcessEnvironment_lookup _ _ member]
    exact settings key member
  have config : loadConfig parseJson process options = loadConfig parseJson other options := by
    simp only [loadConfig, loaded, loaded', Except.mapError, ok_bind, readFile, contents,
      ← configPath_congr options same, parseRuntimeConfig_congr parseJson _ same]
  simp only [main, parsed, config]

/-- A process that has all its settings from its own environment. -/
def exportingProcess : Process where
  files path := if path = bytes "config/bot.json" then some (bytes "{}") else none
  getenv key := validEnvironment.lookup key

/-- A process that has its channels from a file. -/
def readingProcess : Process where
  files path :=
    if path = bytes ".env" then some (bytes "TWITCH_CHANNELS=\"#One, two,ONE\"") else exportingProcess.files path
  getenv key := if key = bytes "TWITCH_CHANNELS" then none else exportingProcess.getenv key

theorem settings_decide_channels :
    main parseEmptyObject readingProcess [bytes "twitch-chatbot"] =
      main parseEmptyObject exportingProcess [bytes "twitch-chatbot"] :=
  settings_decide parseEmptyObject (show parseOptions [bytes "twitch-chatbot"] = .ok {} from rfl)
    (show loadEnvFile (readingProcess.files (bytes ".env")) =
      .ok ((∅ : Environment).insert (bytes "TWITCH_CHANNELS") (bytes "#One, two,ONE")) from rfl)
    (show loadEnvFile (exportingProcess.files (bytes ".env")) = .ok ∅ from rfl) (by decide +kernel) (by decide +kernel)

end TwitchBot
