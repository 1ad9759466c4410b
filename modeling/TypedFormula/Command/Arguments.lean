import TypedFormula.Command

/-!
# Arguments of the command

The words behind the name of the program make a request: the verb, options, and the formula, in
any order but for the verb, which is the first word that is no option. An option has its value
behind an equals sign or in the next word; behind `--` there are no options. The path of a file is
all that the words tell of it, so that a request is complete only when the file was read.

Of words that make no request only the reason is known here; how it is worded is no part of what
the command promises.
-/

namespace TypedFormula

/-- Why words make no request. -/
inductive UsageError where
  /-- There is no verb. -/
  | missingVerb
  /-- A word is no verb. -/
  | unknownVerb (word : String)
  /-- There is no such option. -/
  | unknownOption (word : String)
  /-- An option has no value. -/
  | missingValue (option : String)
  /-- An option that does not take a value has one. -/
  | uselessValue (option : String)
  /-- An option for one value comes again. -/
  | repeatedOption (option : String)
  /-- There is no formula. -/
  | missingFormula
  /-- A word is too much. -/
  | extraWord (word : String)
deriving DecidableEq, Repr

/-- The options and the other words of a command line. -/
structure CommandLine where
  /-- The values of `--var`. -/
  given : List String
  /-- The values of `--unset`. -/
  unset : List String
  /-- The value of `--bindings`. -/
  path : Option String
  /-- Whether there is `--json`. -/
  json : Bool
  /-- The words that are no options. -/
  words : List String
deriving DecidableEq

namespace CommandLine

/-- The command line without words. -/
def empty : CommandLine := ⟨[], [], none, false, []⟩

/-- Whether a word asks for more messages: `--verbose`, or a dash before letters `v`. -/
def isVerbosity (word : String) : Bool :=
  match word.toList with
  | '-' :: 'v' :: more => more.all (· == 'v')
  | _ => word == "--verbose"

/-- Whether an option takes a value. -/
def takesValue (option : String) : Bool :=
  option == "--var" || option == "--unset" || option == "--bindings"

/-- A command line with one more option that takes a value. -/
def addValue (line : CommandLine) (option value : String) : Except UsageError CommandLine :=
  if option = "--var" then .ok { line with given := line.given ++ [value] }
  else if option = "--unset" then .ok { line with unset := line.unset ++ [value] }
  else if line.path.isSome then .error (.repeatedOption option)
  else .ok { line with path := some value }

/-- An option and its value, if it stands behind an equals sign. -/
def splitOption (word : String) : String × Option String :=
  match splitAtFirst? '=' word.toList with
  | none => (word, none)
  | some (option, value) => (String.ofList option, some (String.ofList value))

/-- A command line with more words. -/
def add (line : CommandLine) : List String → Except UsageError CommandLine
  | [] => .ok line
  | word :: rest =>
    if word = "--" then .ok { line with words := line.words ++ rest }
    else if isVerbosity word then add line rest
    else if word.startsWith "-" && word != "-" then
      match splitOption word with
      | (option, some value) =>
        if takesValue option then
          match addValue line option value with
          | .error e => .error e
          | .ok line => add line rest
        else if option = "--json" then .error (.uselessValue option)
        else .error (.unknownOption word)
      | (option, none) =>
        if option = "--json" then add { line with json := true } rest
        else if takesValue option then
          match rest with
          | [] => .error (.missingValue option)
          | value :: more =>
            match addValue line option value with
            | .error e => .error e
            | .ok line => add line more
        else .error (.unknownOption word)
    else add { line with words := line.words ++ [word] } rest

/-- The sources of variables, where the file was read. -/
def sources (line : CommandLine) (file : Option SourceFile) : VariableSources :=
  ⟨file, line.given, line.unset⟩

/-- Refuses the options that a verb does not have. -/
def refuseOptions (line : CommandLine) (json bindings : Bool) : Except UsageError Unit :=
  if line.json && !json then .error (.unknownOption "--json")
  else if bindings then .ok ()
  else if !line.given.isEmpty then .error (.unknownOption "--var")
  else if !line.unset.isEmpty then .error (.unknownOption "--unset")
  else if line.path.isSome then .error (.unknownOption "--bindings")
  else .ok ()

/-- The only word behind a verb as a formula. -/
def formula : List String → Except UsageError String
  | [] => .error .missingFormula
  | [word] => .ok word
  | _ :: word :: _ => .error (.extraWord word)

/-- The request of a command line, where the file was read. -/
def request (line : CommandLine) (file : Option SourceFile) : Except UsageError Request :=
  match line.words with
  | [] => .error .missingVerb
  | verb :: words =>
    if verb = "eval" then do
      refuseOptions line true true
      return .eval (← formula words) (line.sources file) line.json
    else if verb = "check" then do
      refuseOptions line false true
      return .check (← formula words) (line.sources file)
    else if verb = "functions" then
      match words with
      | [] => (refuseOptions line false false).map fun _ => .functions
      | word :: _ => .error (.extraWord word)
    else .error (.unknownVerb verb)

end CommandLine

end TypedFormula
