import TestGrid.Text.Basic

/-!
# Arguments

The arguments of a command are options and positional arguments, in any order.
A long option, `--name`, takes its value behind an equals sign or from the next
argument; a short one, `-n`, from the characters behind it or from the next
argument, and short options without values may stand together behind one
hyphen. A value may start with a hyphen. A lone hyphen is no option, and behind
`--` nothing is.

* `OptionTable.read`: the options with their values and the positional
  arguments, or nothing if an option is not known, lacks its value or has one
  that it does not take.
-/

namespace TestGrid.Command

/-- The options of all commands. -/
inductive OptionName where
  | candidates
  | rules
  | output
  | logFile
  | withFallback
  | withoutFallback
  | verbose
  | performance
  | help
  deriving DecidableEq, Repr

/-- Whether an option takes a value. -/
def OptionName.takesValue : OptionName → Bool
  | candidates | rules | output | logFile => true
  | withFallback | withoutFallback | verbose | performance | help => false

/-- The options of a command as they are written. -/
structure OptionTable where
  /-- The options with two hyphens. -/
  long : List (Text × OptionName)
  /-- The options with one hyphen and one character. -/
  short : List (Char × OptionName)

/-- What a command is given. -/
structure Given where
  /-- The options with their values, in order; an option that takes no value has
      an empty one. -/
  options : List (OptionName × Text) := []
  positional : List Text := []
  deriving DecidableEq, Repr

namespace Given

/-- Whether an option is given. -/
def has (g : Given) (o : OptionName) : Bool := g.options.any (·.1 = o)

/-- The value of an option, the last one if it is given repeatedly. -/
def value? (g : Given) (o : OptionName) : Option Text :=
  (g.options.reverse.find? (·.1 = o)).map Prod.snd

/-- The last option of those that are given among some options. -/
def lastOf? (g : Given) (os : List OptionName) : Option OptionName :=
  (g.options.reverse.find? fun e => os.contains e.1).map Prod.fst

/-- Puts options in front. -/
def withOptions (os : List (OptionName × Text)) (g : Given) : Given :=
  { g with options := os ++ g.options }

/-- Puts a positional argument in front. -/
def withPositional (a : Text) (g : Given) : Given := { g with positional := a :: g.positional }

end Given

/-- What one argument says. -/
inductive Argument where
  | positional
  /-- No options follow. -/
  | endOfOptions
  /-- Options, all with their values. -/
  | options (os : List (OptionName × Text))
  /-- Options, the last of which takes the next argument as its value. -/
  | awaiting (os : List (OptionName × Text)) (last : OptionName)
  /-- No proper argument. -/
  | improper
  deriving DecidableEq, Repr

namespace OptionTable

/-- Reads the characters behind one hyphen. -/
def readShort (t : OptionTable) : Text → Argument
  | [] => .options []
  | c :: r =>
    match t.short.lookup c with
    | none => .improper
    | some o =>
      if o.takesValue then if r.isEmpty then .awaiting [] o else .options [(o, r)]
      else match t.readShort r with
        | .options os => .options ((o, []) :: os)
        | .awaiting os last => .awaiting ((o, []) :: os) last
        | a => a

/-- Reads an argument with two hyphens. -/
def readLong (t : OptionTable) (arg : Text) : Argument :=
  let (name, value) := match arg.cut '=' with
    | some (name, value) => (name, some value)
    | none => (arg, none)
  match t.long.lookup name, value with
  | none, _ => .improper
  | some o, some v => if o.takesValue then .options [(o, v)] else .improper
  | some o, none => if o.takesValue then .awaiting [] o else .options [(o, [])]

/-- Reads an argument. -/
def readArgument (t : OptionTable) (arg : Text) : Argument :=
  match arg with
  | ['-', '-'] => .endOfOptions
  | '-' :: '-' :: _ => t.readLong arg
  | '-' :: c :: r => t.readShort (c :: r)
  | _ => .positional

/-- Reads the arguments of a command. -/
def read (t : OptionTable) : List Text → Option Given
  | [] => some {}
  | arg :: args =>
    match t.readArgument arg with
    | .improper => none
    | .endOfOptions => some { positional := args }
    | .positional => (t.read args).map (·.withPositional arg)
    | .options os => (t.read args).map (·.withOptions os)
    | .awaiting os last =>
      match args with
      | [] => none
      | v :: args => (t.read args).map (·.withOptions (os ++ [(last, v)]))

end OptionTable

end TestGrid.Command
