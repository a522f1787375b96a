import BlockSafe.Command.Run

/-!
# The command line

Looks up everything that a command line can refer to, runs it, and writes what it says.  No client
of a provider is built in, so every generation ends at the first client that it asks for.
-/

namespace BlockSafe

/-- The parts of a word that may be a path: the word itself, and what follows an equals sign. -/
def pathsIn (word : Text) : List Text :=
  word :: match Text.cut? ['='] word with
    | some (_, value) => [value]
    | none => []

/-- The file at a path, if there is one that holds a text. -/
def readFile? (path : Text) : IO (Option (Text × FileContent)) := do
  try
    let s ← IO.FS.readFile (String.ofList path)
    return some (path, .text s.toList)
  catch _ => return none

/-- The variables that the settings can refer to. -/
def variablesOf (settings : Settings) : List Text :=
  let general := texts ["ENABLED_PROVIDERS", "PROVIDER", "REQUEST_TIMEOUT", "EMPTY_RETRIES",
    "VALIDATION_RETRIES", "MAX_CURRENT_CODE_CHARS", "MODEL", "API_KEY"]
  let own := settings.providers.flatMap fun (name, config) =>
    let key := Environment.key (Text.upper name)
    [key ++ "_MODEL".toList, key ++ "_ALLOWED_MODELS".toList]
      ++ config.apiKeyEnv.toList ++ config.modelEnv.toList
  general.map Environment.key ++ own

/-- A variable, if it is set. -/
def lookUp (name : Text) : IO (Option (Text × Text)) := do
  return (← IO.getEnv (String.ofList name)).map fun value => (name, value.toList)

/-- The settings of every configuration in a folder, before the environment has its say. -/
def settingsIn (folder : Folder) : List Settings :=
  builtinSettings :: folder.filterMap fun (_, content) =>
    (content.asData?.map Settings.ofData).bind Except.toOption

/-- What a command line is read in. -/
def surroundings (args : List Text) : IO Surroundings := do
  let paths := distinct (standardConfig :: args.flatMap pathsIn)
  let folder ← paths.filterMapM readFile?
  let env ← ((settingsIn folder).flatMap variablesOf).filterMapM lookUp
  let input ← if args.any fun word => (pathsIn word).contains ['-'] then
      (← IO.getStdin).readToEnd
    else pure ""
  return ⟨folder, env, input.toList⟩

/-- Providers without any client. -/
def noClients : Fleet :=
  ⟨[], .unbuildable (.exception "ImportError" false (.ok "no client is installed")), [], []⟩

end BlockSafe

open BlockSafe in
/-- Runs the command line. -/
def main (args : List String) : IO UInt32 := do
  let words := texts args
  let around ← surroundings words
  let done := runCommand .standard around
    (fun settings => chatGateway .standard settings around.env) noClients words
  (← IO.getStdout).putStr (String.ofList done.output)
  (← IO.getStderr).putStr (String.ofList done.errors)
  return done.status.toUInt32
