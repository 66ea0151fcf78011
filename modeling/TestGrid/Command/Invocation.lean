import TestGrid.Command.Arguments
import TestGrid.Command.Explain

/-!
# Invocations

What the arguments of the program and its environment ask for: one of the
commands with its options, help, or nothing that is understood. An option beats
its environment variable, and an empty variable counts as none. Help is given
whatever else is missing, but not if the options themselves are improper. Words
in the place of a command are read as options once more, for they can ask for
help behind `--` too.
-/

namespace TestGrid.Command

open Files

/-- The values of environment variables. -/
abbrev Environment := Roster Text Text

/-- The value of the environment variable of a setting, unless it is empty. -/
def Environment.valueOf? (env : Environment) (s : Setting) : Option Text :=
  (env.get? s.variableName.toList).filter (!·.isEmpty)

/-- What the program is asked for. -/
inductive Invocation where
  | generate (o : GenerateOptions)
  | explain (o : ExplainOptions)
  | information
  | help
  /-- Nothing that is understood. -/
  | misuse
  deriving DecidableEq, Repr

namespace Invocation

/-- The long option for help, which all commands have. -/
def helpOption : Text × OptionName := ("--help".toList, .help)

/-- The options on the inputs of a plan. -/
def inputOptions : OptionTable where
  long := [("--candidates".toList, .candidates), ("--rules".toList, .rules),
    ("--include-case-specific".toList, .withFallback),
    ("--no-include-case-specific".toList, .withoutFallback), helpOption]
  short := [('c', .candidates), ('r', .rules)]

/-- The options of the command that generates a grid. -/
def generateTable : OptionTable where
  long := inputOptions.long ++ [("--output".toList, .output), ("--verbose".toList, .verbose),
    ("--log-file".toList, .logFile), ("--performance".toList, .performance)]
  short := inputOptions.short ++ [('o', .output), ('v', .verbose)]

/-- The options of a command that has but one. -/
def helpTable : OptionTable := ⟨[helpOption], []⟩

/-- The words for yes and no; no word at all is a no. -/
def answers : List (String × Bool) :=
  [("1", true), ("true", true), ("t", true), ("yes", true), ("y", true), ("on", true),
    ("0", false), ("false", false), ("f", false), ("no", false), ("n", false), ("off", false),
    ("", false)]

/-- What a text answers, blanks around it and the case of its letters apart. -/
def readAnswer (t : Text) : Option Bool :=
  answers.lookup (String.ofList (t.trim.map Char.toLower))

/-- Whether literals may stand in for candidates: as the last option says, else
    as the environment does, else they may. Nothing if the environment does not
    answer. -/
def readFallback (env : Environment) (g : Given) : Option Bool :=
  match g.lastOf? [.withFallback, .withoutFallback] with
  | some o => some (o = .withFallback)
  | none =>
    match env.valueOf? .fallback with
    | some t => readAnswer t
    | none => some true

/-- The candidates that are given. -/
def candidates? (env : Environment) (g : Given) : Option Text :=
  g.value? .candidates <|> env.valueOf? .candidates

/-- The path that is given for a setting. -/
def path? (env : Environment) (g : Given) (o : OptionName) (s : Setting) : Option Path :=
  (g.value? o <|> env.valueOf? s).map Path.ofText

/-- Whether one of the given paths has a null character. -/
def hasImpossiblePath (g : Given) : Bool :=
  ([.rules, .output, .logFile].filterMap g.value?).any (·.contains '\x00')

/-- An invocation of the command that generates a grid. -/
def ofGenerate (env : Environment) (g : Given) : Invocation :=
  match readFallback env g, g.positional with
  | some fallback, [] =>
    .generate {
      settings := {
        candidates := candidates? env g
        rules := path? env g .rules .rules
        output := path? env g .output .output
        fallback }
      verbose := g.has .verbose
      logFile := (g.value? .logFile).map Path.ofText
      performance := g.has .performance }
  | _, _ => .misuse

/-- An invocation of the command that explains a component. -/
def ofExplain (env : Environment) (g : Given) : Invocation :=
  match readFallback env g, g.positional with
  | some fallback, [component] =>
    .explain {
      component
      candidates := candidates? env g
      rules := path? env g .rules .rules
      fallback }
  | _, _ => .misuse

/-- An invocation of the command that shows information. -/
def ofInformation (g : Given) : Invocation := if g.positional.isEmpty then .information else .misuse

/-- An invocation of a command with the given options, which may ask for help
    and must not name paths that lead nowhere. -/
def orHelp (table : OptionTable) (args : List Text) (f : Given → Invocation) : Invocation :=
  match table.read args with
  | none => .misuse
  | some g =>
    if g.has .help then .help
    else if hasImpossiblePath g then .misuse
    else f g

/-- An invocation of the command of a name, if there is one. -/
def ofCommand? (env : Environment) (name : Text) (args : List Text) : Option Invocation :=
  match String.ofList name with
  | "generate" => some (orHelp generateTable args (ofGenerate env))
  | "explain" => some (orHelp inputOptions args (ofExplain env))
  | "info" => some (orHelp helpTable args ofInformation)
  | _ => none

/-- What stands in front of the name of a command: whether help is asked for,
    and the name with the arguments behind it. Nothing if an option is
    improper. -/
def readFront : List Text → Option (Bool × List Text)
  | [] => some (false, [])
  | arg :: args =>
    match helpTable.readArgument arg with
    | .options _ => (readFront args).map fun (_, rest) => (true, rest)
    | .endOfOptions => some (false, args)
    | .positional => some (false, arg :: args)
    | .awaiting .. | .improper => none

/-- What words ask for of which the first names no command: help, if they are
    options that ask for it. -/
def ofUnknown (words : List Text) : Invocation :=
  match readFront words with
  | some (true, _) => .help
  | _ => .misuse

/-- What the arguments of the program ask for. -/
def ofArguments (env : Environment) (args : List Text) : Invocation :=
  match readFront args with
  | none => .misuse
  | some (true, _) => .help
  | some (false, []) => .misuse
  | some (false, name :: args) => (ofCommand? env name args).getD (ofUnknown (name :: args))

end Invocation

/-- Does what the program is asked for; the status with which it ends. -/
def Invocation.run : Invocation → Work Nat
  | generate o => Command.generate o
  | explain o => Command.explain o
  | information => do
    Work.show Report.grammar
    return 0
  | help => return 0
  | misuse => return 2

/-- The status with which the program ends: that of the run, or 1 if a fault came
    in its way that is not answered for. -/
def exitStatus : Except Fault Nat → Nat
  | .ok status => status
  | .error _ => 1

end TestGrid.Command
