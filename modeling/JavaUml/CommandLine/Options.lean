import JavaUml.Text.Category
import JavaUml.Text.Cut
import JavaUml.Text.Quoted

/-!
# Options of the command line

Arguments are options or positional.  An option may be written with a prefix of
its name that no other option shares, and single letters may follow one dash
together.  Positional arguments have to stand in one run.
-/

namespace JavaUml.CommandLine

/-- An option. -/
inductive Flag where
  | help
  | sequence
  | components
  | config
  | noRender
  | verbose
  deriving DecidableEq, Repr

/-- The spellings of the options, in the order in which messages list them. -/
def spellings : List (String × Flag) :=
  [("-h", .help), ("--help", .help), ("-sequence", .sequence), ("--sequence", .sequence),
   ("--components", .components), ("--config", .config), ("--no-render", .noRender),
   ("-v", .verbose), ("--verbose", .verbose)]

/-- An option as messages name it. -/
def Flag.name (flag : Flag) : String :=
  "/".intercalate ((spellings.filter fun entry => entry.2 = flag).map Prod.fst)

/-- Whether an option takes a value. -/
def Flag.takesValue (flag : Flag) : Bool :=
  flag = .config

/-- Why the program does not run with its arguments. -/
inductive Refusal where
  | help
  | ambiguous (written : String) (matching : List String)
  | ignoredValue (flag : Flag) (value : String)
  | missingValue (flag : Flag)
  | unrecognized (arguments : List String)
  | sequenceArguments
  | plainArguments
  deriving DecidableEq, Repr

/-- The message of a refusal. -/
def Refusal.message : Refusal → String
  | help => ""
  | ambiguous written matching =>
      "ambiguous option: " ++ written ++ " could match " ++ ", ".intercalate matching
  | ignoredValue flag value =>
      "argument " ++ flag.name ++ ": ignored explicit argument " ++ Text.quoted value
  | missingValue flag => "argument " ++ flag.name ++ ": expected one argument"
  | unrecognized arguments => "unrecognized arguments: " ++ " ".intercalate arguments
  | sequenceArguments => "-sequence needs <source-dir> <type> <method> [output-base]"
  | plainArguments => "expected <source-dir> [output-base]"

/-- What an argument is. -/
inductive Shape where
  | positional
  /-- The mark behind which all arguments are positional. -/
  | divider
  /-- An option with its spelling and the value written with it. -/
  | option (flag : Flag) (spelling : String) (value : Option String)
  /-- Something written like an option that is none. -/
  | unknown
  deriving DecidableEq, Repr

/-- Whether a character is a decimal digit of any script. -/
def isDecimal (c : Char) : Bool :=
  (Text.decimalValue? c).isSome

/-- A text without the line end that it may have. -/
def withoutLineEnd (text : List Char) : List Char :=
  if text.getLast? = some '\n' then text.dropLast else text

/-- Whether a text is a negative number, alone on its line. -/
def isNegativeNumber (text : List Char) : Bool :=
  match withoutLineEnd text with
  | '-' :: rest =>
      let whole := rest.takeWhile isDecimal
      match rest.dropWhile isDecimal with
      | [] => !whole.isEmpty
      | '.' :: part => !part.isEmpty && part.all isDecimal
      | _ => false
  | _ => false

/-- An argument as an option and the value behind an equals sign. -/
def cutValue (argument : String) : String × Option String :=
  let chars := argument.toList
  (String.ofList (Text.beforeFirst '=' chars), (Text.afterFirst? '=' chars).map String.ofList)

/-- The options that an argument may abbreviate: with two dashes by the start of
a name, with one dash also by a letter that a value follows. -/
def abbreviated (argument : String) : List (Flag × String × Option String) :=
  if argument.startsWith "--" then
    let (start, value) := cutValue argument
    (spellings.filter fun entry => entry.1.startsWith start).map fun entry =>
      (entry.2, entry.1, value)
  else
    let letter := String.ofList (argument.toList.take 2)
    let behind := String.ofList (argument.toList.drop 2)
    spellings.filterMap fun entry =>
      if entry.1 = letter then some (entry.2, entry.1, some behind)
      else if entry.1.startsWith argument then some (entry.2, entry.1, none)
      else none

/-- What an argument is, if it is not the divider. -/
def shapeOf (argument : String) : Except Refusal Shape :=
  let chars := argument.toList
  if chars.head? ≠ some '-' then .ok .positional
  else
    match spellings.lookup argument with
    | some flag => .ok (.option flag argument none)
    | none =>
        if chars.length = 1 then .ok .positional
        else
          let (start, value) := cutValue argument
          match value, spellings.lookup start with
          | some value, some flag => .ok (.option flag start (some value))
          | _, _ =>
              match abbreviated argument with
              | [(flag, spelling, value)] => .ok (.option flag spelling value)
              | [] =>
                  if isNegativeNumber chars || chars.contains ' ' then .ok .positional
                  else .ok .unknown
              | several => .error (.ambiguous argument (several.map fun entry => entry.2.1))

/-- The arguments with what they are. -/
def shapes : List String → Except Refusal (List (String × Shape))
  | [] => .ok []
  | argument :: rest =>
      if argument = "--" then
        .ok ((argument, .divider) :: rest.map fun argument => (argument, .positional))
      else do
        let shape ← shapeOf argument
        return (argument, shape) :: (← shapes rest)

/-- What the command line asks for. -/
structure Options where
  sequence : Bool
  components : Bool
  config : String
  noRender : Bool
  verbose : Bool
  arguments : List String
  deriving DecidableEq, Repr

/-- What is asked for without arguments. -/
def Options.none : Options :=
  ⟨false, false, "", false, false, []⟩

/-- Set an option that takes no value. -/
def Options.set (options : Options) : Flag → Options
  | .sequence => { options with sequence := true }
  | .components => { options with components := true }
  | .noRender => { options with noRender := true }
  | .verbose => { options with verbose := true }
  | .config => options
  | .help => options

/-- The options of an argument whose value is written with it.  Letters behind
one dash are options of their own, as far as there are such. -/
def joined : Nat → Flag → String → String → Except Refusal (List Flag × Option String)
  | 0, flag, _, value => .error (.ignoredValue flag value)
  | steps + 1, flag, spelling, value =>
      if flag.takesValue then .ok ([flag], some value)
      else
        match spelling.startsWith "--", value.toList with
        | false, c :: rest =>
            let next := String.ofList ['-', c]
            match spellings.lookup next, rest with
            | some other, [] =>
                if other.takesValue then .error (.missingValue other) else .ok ([flag, other], .none)
            | some other, rest => do
                let (flags, last) ← joined steps other next (String.ofList rest)
                return (flag :: flags, last)
            | .none, _ => .error (.ignoredValue flag value)
        | _, _ => .error (.ignoredValue flag value)

/-- The state of reading arguments. -/
structure Progress where
  options : Options
  /-- Whether the run of positional arguments is over. -/
  isFilled : Bool
  extra : List String

/-- The positional arguments of a run; its first divider is left out. -/
def withoutDivider (run : List String) : List String :=
  run.erase "--"

/-- Whether an argument is no option. -/
def isPlain (entry : String × Shape) : Bool :=
  entry.2 = .positional || entry.2 = .divider

/-- Apply options and the value of the last one. -/
def applyFlags (progress : Progress) (flags : List Flag) (value : Option String) :
    Except Refusal Progress :=
  if flags.contains .help then .error .help
  else
    let options := flags.foldl Options.set progress.options
    let options := match value with
      | some path => { options with config := path }
      | none => options
    .ok { progress with options := options }

/-- Read arguments.  Each step takes one at least. -/
def readArguments : Nat → Progress → List (String × Shape) → Except Refusal Progress
  | 0, progress, _ => .ok progress
  | _ + 1, progress, [] => .ok progress
  | steps + 1, progress, (argument, shape) :: rest =>
      match shape with
      | .unknown => readArguments steps { progress with extra := progress.extra ++ [argument] } rest
      | .option flag spelling (some value) => do
          let (flags, last) ← joined (value.length + 1) flag spelling value
          readArguments steps (← applyFlags progress flags last) rest
      | .option flag _ none =>
          if flag.takesValue then
            match rest with
            | (value, .positional) :: rest => do
                readArguments steps (← applyFlags progress [flag] (some value)) rest
            | _ => .error (.missingValue flag)
          else do readArguments steps (← applyFlags progress [flag] none) rest
      | _ =>
          let run := ((argument, shape) :: rest).takeWhile isPlain
          let behind := ((argument, shape) :: rest).dropWhile isPlain
          let written := run.map Prod.fst
          let progress :=
            if progress.isFilled then { progress with extra := progress.extra ++ written }
            else
              { progress with
                options := { progress.options with arguments := withoutDivider written }
                isFilled := true }
          readArguments steps progress behind

/-- Whether the number of positional arguments fits. -/
def Options.check (options : Options) : Except Refusal Options :=
  let count := options.arguments.length
  if options.sequence then
    if 3 ≤ count ∧ count ≤ 4 then .ok options else .error .sequenceArguments
  else if 1 ≤ count ∧ count ≤ 2 then .ok options
  else .error .plainArguments

/-- What a command line asks for. -/
def parse (arguments : List String) : Except Refusal Options := do
  let shaped ← shapes arguments
  let progress ← readArguments (shaped.length + 1) ⟨.none, false, []⟩ shaped
  if progress.extra.isEmpty then progress.options.check
  else .error (.unrecognized progress.extra)

end JavaUml.CommandLine
