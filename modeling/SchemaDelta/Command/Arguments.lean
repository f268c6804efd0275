import SchemaDelta.Text.Pieces

/-!
# Command line arguments

The arguments are one input path and options, each with a value and each at most once. A value
follows its option as the next argument, after an equals sign, or, for the one-letter name, at once.
What follows two dashes is no option.
-/

namespace SchemaDelta.Command

/-- The options of the command line. -/
inductive Setting where
  | output
  | release
  | scope
  | logLevel
deriving DecidableEq

namespace Setting

/-- The option with the given long name. -/
def long? : String → Option Setting
  | "output" => some output
  | "db-version" => some release
  | "scope" => some scope
  | "log-level" => some logLevel
  | _ => none

/-- The option with the given letter. -/
def short? : Char → Option Setting
  | 'o' => some output
  | 's' => some scope
  | _ => none

end Setting

/-- What an argument is by its form. -/
inductive ArgumentForm where
  | plain
  | endOfOptions
  | awaiting (o : Setting)
  | assigned (o : Setting) (value : List Char)
  | unknown

/-- The form of an argument that begins with two dashes, which are left out. -/
def longForm (s : List Char) : ArgumentForm :=
  match Setting.long? (String.ofList (s.takeWhile (· ≠ '='))), s.dropWhile (· ≠ '=') with
  | some o, [] => .awaiting o
  | some o, _ :: value => .assigned o value
  | none, _ => .unknown

/-- The form of an argument that begins with a dash and a letter. -/
def shortForm (letter : Char) (s : List Char) : ArgumentForm :=
  match Setting.short? letter, s with
  | some o, [] => .awaiting o
  | some o, '=' :: value => .assigned o value
  | some o, value => .assigned o value
  | none, _ => .unknown

/-- The form of an argument. A dash alone is plain. -/
def formOf (arg : String) : ArgumentForm :=
  match arg.toList with
  | ['-', '-'] => .endOfOptions
  | '-' :: '-' :: s => longForm s
  | '-' :: c :: s => shortForm c s
  | _ => .plain

/-- The argument can be the value of the option before it. -/
def isValue (arg : String) : Bool :=
  match formOf arg with
  | .plain => true
  | _ => false

/-- The plain arguments, and the options with their values. -/
structure Parts where
  plain : List String := []
  options : List (Setting × String) := []

/-- One more plain argument in front. -/
def Parts.addPlain (p : Parts) (arg : String) : Parts :=
  { p with plain := arg :: p.plain }

/-- One more option in front. -/
def Parts.addOption (p : Parts) (o : Setting) (value : String) : Parts :=
  { p with options := (o, value) :: p.options }

/-- The parts of a list of arguments, if all options are known and have values. -/
def Parts.read? : List String → Option Parts
  | [] => some {}
  | arg :: rest =>
    match formOf arg with
    | .plain => (Parts.read? rest).map fun p => p.addPlain arg
    | .endOfOptions => some { plain := rest }
    | .assigned o value => (Parts.read? rest).map fun p => p.addOption o (String.ofList value)
    | .awaiting o =>
      match rest with
      | value :: rest =>
        if isValue value then (Parts.read? rest).map fun p => p.addOption o value else none
      | [] => none
    | .unknown => none

/-- The arguments of a call. -/
structure Arguments where
  input : String
  output : Option String
  release : Option String
  scope : String

/-- The arguments of a call, if they can be used: one input path, and no option twice. A release
that is not given is the default one, and a scope that is not given is the model. -/
def Arguments.read? (args : List String) (defaultRelease : Option String) : Option Arguments :=
  (Parts.read? args).bind fun p =>
    match p.plain with
    | [input] =>
      if (p.options.map Prod.fst).Nodup then
        some
          { input := input
            output := p.options.lookup .output
            release := p.options.lookup .release <|> defaultRelease
            scope := (p.options.lookup .scope).getD "model" }
      else none
    | _ => none

end SchemaDelta.Command
