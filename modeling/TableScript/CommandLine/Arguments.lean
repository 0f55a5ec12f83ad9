/-!
# Arguments

The grammar of the command line: options for every command, the name of a command, and its own options and
operands in any order. An option is written as `--name value`, `--name=value`, `-n value`, `-nvalue` or
`-n=value`; options without values may share one dash. After `--` everything is an operand. A value that is
an argument of its own does not begin with a dash.

Options that belong to every command may come before and after its name. Of two values the one after it
counts. Apart from that, only the option for data may come twice.
-/

namespace TableScript.CommandLine

/-- An option. -/
inductive Flag where
  | verbose
  | quiet
  | config
  | data
  | outDir
  | noMerge
  | prompt
  | save
deriving DecidableEq

namespace Flag

/-- The name of the option after two dashes. -/
def long : Flag → String
  | verbose => "verbose"
  | quiet => "quiet"
  | config => "config"
  | data => "data"
  | outDir => "out-dir"
  | noMerge => "no-merge"
  | prompt => "prompt"
  | save => "save"

/-- The name of the option after one dash. -/
def short? : Flag → Option Char
  | verbose => some 'v'
  | quiet => some 'q'
  | data => some 'd'
  | _ => none

/-- The option has a value. -/
def takesValue : Flag → Bool
  | verbose | quiet | noMerge => false
  | _ => true

/-- The value is a path, which is not empty. -/
def isPath : Flag → Bool
  | config | outDir | save => true
  | _ => false

/-- The option may come more than once. -/
def isRepeatable (flag : Flag) : Bool := flag = data

/-- The options of every command. -/
def forAll : List Flag := [verbose, quiet, config]

end Flag

/-- An option with its value; one that takes no value has an empty one. -/
abbrev Setting := Flag × String

/-- A word of the command line, read. -/
inductive Word where
  /-- Options, all of which are complete. -/
  | settings (settings : List Setting)
  /-- Options, the last of which takes the next argument as its value. -/
  | awaiting (settings : List Setting) (flag : Flag)
  | operand (text : String)
  /-- Everything that follows is an operand. -/
  | endOfOptions

/-- Options that share one dash. -/
def readShort (flags : List Flag) : List Char → Option Word
  | [] => some (.settings [])
  | c :: rest =>
    match flags.find? fun flag => flag.short? = some c with
    | none => none
    | some flag =>
      if flag.takesValue then
        match rest with
        | [] => some (.awaiting [] flag)
        | '=' :: value => some (.settings [(flag, String.ofList value)])
        | value => some (.settings [(flag, String.ofList value)])
      else
        match readShort flags rest with
        | some (.settings settings) => some (.settings ((flag, "") :: settings))
        | some (.awaiting settings last) => some (.awaiting ((flag, "") :: settings) last)
        | other => other

/-- An option after two dashes. -/
def readLong (flags : List Flag) (cs : List Char) : Option Word :=
  let name := String.ofList (cs.takeWhile (· ≠ '='))
  match flags.find? fun flag => flag.long = name with
  | none => none
  | some flag =>
    match cs.dropWhile (· ≠ '=') with
    | [] => if flag.takesValue then some (.awaiting [] flag) else some (.settings [(flag, "")])
    | _ :: value => if flag.takesValue then some (.settings [(flag, String.ofList value)]) else none

/-- Read an argument, of a command with these options. -/
def readWord (flags : List Flag) (argument : String) : Option Word :=
  match argument.toList with
  | ['-', '-'] => some .endOfOptions
  | '-' :: '-' :: cs => readLong flags cs
  | '-' :: c :: cs => readShort flags (c :: cs)
  | _ => some (.operand argument)

/-- The argument can be the value of the option before it. -/
def isValue (argument : String) : Bool := !argument.startsWith "-" || argument = "-"

/-- The arguments of a command, whose operands and options are kept in order. -/
def readArguments (flags : List Flag) : List String → Option (List Setting × List String)
  | [] => some ([], [])
  | argument :: rest =>
    match readWord flags argument with
    | none => none
    | some .endOfOptions => some ([], rest)
    | some (.operand text) =>
      (readArguments flags rest).map fun (settings, operands) => (settings, text :: operands)
    | some (.settings now) =>
      (readArguments flags rest).map fun (settings, operands) => (now ++ settings, operands)
    | some (.awaiting now flag) =>
      match rest with
      | [] => none
      | value :: rest =>
        if isValue value then
          (readArguments flags rest).map fun (settings, operands) => (now ++ (flag, value) :: settings, operands)
        else none

/-- The options in front of the name of a command, the name, and what follows it. -/
def readFront : List String → Option (List Setting × String × List String)
  | [] => none
  | argument :: rest =>
    match readWord Flag.forAll argument with
    | none | some .endOfOptions => none
    | some (.operand name) => some ([], name, rest)
    | some (.settings now) =>
      (readFront rest).map fun (settings, name, rest) => (now ++ settings, name, rest)
    | some (.awaiting now flag) =>
      match rest with
      | [] => none
      | value :: rest =>
        if isValue value then
          (readFront rest).map fun (settings, name, rest) => (now ++ (flag, value) :: settings, name, rest)
        else none

/-! ## Commands -/

/-- What is asked for. -/
inductive Command where
  | list
  | run (analysis : String) (data : List String) (outDir : Option String) (noMerge : Bool)
  | code (analysis : String) (data : List String) (noMerge : Bool)
  | exec (code : String) (data : List String) (prompt : String) (save outDir : Option String)
  | files (path : String)

/-- The options of every command, and the command. -/
structure Invocation where
  verbose : Bool
  quiet : Bool
  config : Option String
  command : Command

/-- The options of the command of this name, besides those of every command. -/
def ownFlags? (name : String) : Option (List Flag) :=
  if name = "list" || name = "files" then some []
  else if name = "run" then some [.data, .outDir, .noMerge]
  else if name = "code" then some [.data, .noMerge]
  else if name = "exec" then some [.data, .prompt, .save, .outDir]
  else none

/-- No option comes twice that must not, and no path is empty. -/
def areValid : List Setting → Bool
  | [] => true
  | (flag, value) :: rest =>
    (flag.isRepeatable || rest.all (·.1 ≠ flag)) && !(flag.isPath && value.isEmpty) && areValid rest

/-- The value of an option. -/
def valueOf? (settings : List Setting) (flag : Flag) : Option String :=
  (settings.find? (·.1 = flag)).map (·.2)

/-- The values of an option, in order. -/
def valuesOf (settings : List Setting) (flag : Flag) : List String :=
  (settings.filter (·.1 = flag)).map (·.2)

/-- The option is given. -/
def isGiven (settings : List Setting) (flag : Flag) : Bool := (valueOf? settings flag).isSome

/-- The path that an operand names. -/
def path? (operand : String) : Option String := if operand.isEmpty then none else some operand

/-- The command of this name, with its options and operands. -/
def command? (name : String) (settings : List Setting) (operands : List String) : Option Command :=
  let data := valuesOf settings .data
  match name, operands with
  | "list", [] => some .list
  | "run", [analysis] => (path? analysis).map fun path =>
    .run path data (valueOf? settings .outDir) (isGiven settings .noMerge)
  | "code", [analysis] => (path? analysis).map fun path => .code path data (isGiven settings .noMerge)
  | "exec", [code] => some (.exec code data ((valueOf? settings .prompt).getD "exec")
      (valueOf? settings .save) (valueOf? settings .outDir))
  | "files", [] => some (.files ".")
  | "files", [path] => (path? path).map .files
  | _, _ => none

/-- The invocation that arguments say, if they follow the grammar. -/
def Invocation.ofArguments? (arguments : List String) : Option Invocation := do
  let (front, name, rest) ← readFront arguments
  let own ← ownFlags? name
  let (settings, operands) ← readArguments (Flag.forAll ++ own) rest
  if !areValid front || !areValid settings then none
  let command ← command? name settings operands
  return {
    verbose := isGiven (front ++ settings) .verbose
    quiet := isGiven (front ++ settings) .quiet
    config := (valueOf? settings .config).or (valueOf? front .config)
    command }

end TableScript.CommandLine
