import LittleComputer.Journal
import LittleComputer.Text.Numeral
import LittleComputer.Text.Quoted

/-!
# Arguments

A command line is read in two passes.  The first sorts each argument into a `Token`: an option, an
operand or something that looks like an option and is none.  Long options may be shortened as long
as only one begins that way, and values may be attached by an equals sign.  The second pass
(`interpret`) goes through the tokens from left to right.

The order decides which problem is reported: an ambiguous option before anything else, then the
first bad value on the way, unless `--help` or `--version` is reached before it; a missing image
after that, and arguments that nothing wants last.  A separator that is attached as a value is no
bad value: it leaves the option without one (`Setting.blank`), which matters only when the value is
asked for.
-/

namespace LittleComputer.CommandLine

/-- The options. -/
inductive Flag where
  | help | startAtOrigin | maxSteps | strictInput | logLevel | version
  deriving DecidableEq, Repr

namespace Flag

/-- The ways to write the options in full. -/
def spellings : List (String × Flag) :=
  [("-h", help), ("--help", help), ("--start-at-origin", startAtOrigin),
   ("--max-steps", maxSteps), ("--strict-input", strictInput), ("--log-level", logLevel),
   ("--version", version)]

/-- The option that is written in full like this. -/
def ofSpelling? (s : String) : Option Flag := (spellings.find? (·.1 == s)).map Prod.snd

/-- All ways to write an option. -/
def display (flag : Flag) : String :=
  "/".intercalate ((spellings.filter (·.2 == flag)).map Prod.fst)

end Flag

/-- What is wrong with a command line. -/
inductive UsageError where
  /-- Several options begin like this. -/
  | ambiguous (argument : String) (candidates : List String)
  /-- An option that takes no value has one. -/
  | ignoredValue (flag : Flag) (value : String)
  /-- An option lacks its value. -/
  | missingValue (flag : Flag)
  /-- The step limit is no integer. -/
  | badStepLimit (value : String)
  /-- There is no such level. -/
  | badLevel (value : String)
  /-- No image is named. -/
  | missingImage
  /-- Nothing wants these arguments. -/
  | unrecognized (arguments : List String)
  deriving DecidableEq, Repr

/-- A message about the value of an option. -/
def Flag.complain (flag : Flag) (text : String) : String :=
  "argument " ++ flag.display ++ ": " ++ text

/-- The message of a usage error. -/
def UsageError.message : UsageError → String
  | ambiguous argument candidates =>
    "ambiguous option: " ++ argument ++ " could match " ++ ", ".intercalate candidates
  | ignoredValue flag value => flag.complain ("ignored explicit argument " ++ Text.quoted value)
  | missingValue flag => flag.complain "expected one argument"
  | badStepLimit value => Flag.maxSteps.complain ("invalid int value: " ++ Text.quoted value)
  | badLevel value =>
    Flag.logLevel.complain ("invalid choice: " ++ Text.quoted value ++ " (choose from "
      ++ ", ".intercalate (Level.all.map fun level => Text.quoted level.name) ++ ")")
  | missingImage => "the following arguments are required: image"
  | unrecognized arguments => "unrecognized arguments: " ++ " ".intercalate arguments

/-! ## Sorting arguments -/

/-- What an argument is on its own. -/
inductive Token where
  /-- An option, perhaps with a value attached. -/
  | option (flag : Flag) (attached : Option String)
  /-- The short help option with more letters behind it, perhaps after an equals sign. -/
  | cluster (letters : List Char)
  /-- The mark after which there are only operands. -/
  | separator
  /-- Anything that is no option. -/
  | operand (text : String)
  /-- It looks like an option, and there is none of that name. -/
  | unknown (text : String)
  deriving DecidableEq, Repr

/-- Splits a text at its first equals sign. -/
def splitValue (cs : List Char) : List Char × Option String :=
  match cs.span (· ≠ '=') with
  | (name, '=' :: value) => (name, some (String.ofList value))
  | (name, _) => (name, none)

/-- Whether characters are one or more decimal digits. -/
def allDigits (cs : List Char) : Bool :=
  !cs.isEmpty && cs.all fun c => (Text.plainDigit c).isDigit

/-- Whether the characters after a dash make a negative number: digits, or a point and digits with
or without digits before it.  A line end behind the number does not count. -/
def isNegative (cs : List Char) : Bool :=
  let cs := if cs.getLast? = some '\n' then cs.dropLast else cs
  match cs.span (· ≠ '.') with
  | (whole, '.' :: fraction) => (whole.isEmpty || allDigits whole) && allDigits fraction
  | (whole, _) => allDigits whole

/-- What an argument that begins with a dash is if no option can be meant: negative numbers and
texts with spaces are operands. -/
def otherwise (s : String) : Token :=
  if isNegative (s.toList.drop 1) || s.toList.contains ' ' then .operand s else .unknown s

/-- Sorts an argument that is not the separator. -/
def classify (s : String) : Except UsageError Token :=
  match s.toList, Flag.ofSpelling? s with
  | '-' :: _, some flag => .ok (.option flag none)
  | ['-'], none => .ok (.operand s)
  | '-' :: second :: letters, none =>
    let (name, value) := splitValue s.toList
    match value, Flag.ofSpelling? (String.ofList name) with
    | some value, some flag =>
      .ok (if second = '-' then .option flag (some value) else .cluster value.toList)
    | _, _ =>
      if second = '-' then
        match Flag.spellings.filter fun spelling => name.isPrefixOf spelling.1.toList with
        | [] => .ok (otherwise s)
        | [(_, flag)] => .ok (.option flag value)
        | candidates => .error (.ambiguous s (candidates.map Prod.fst))
      else if second = 'h' then .ok (.cluster letters)
      else .ok (otherwise s)
  | _, _ => .ok (.operand s)

/-- Sorts the arguments; after the separator all are operands. -/
def tokens : List String → Except UsageError (List Token)
  | [] => .ok []
  | s :: rest =>
    if s = "--" then .ok (.separator :: rest.map .operand)
    else do
      let token ← classify s
      return token :: (← tokens rest)

/-! ## Interpreting tokens -/

/-- What is known of an option that takes a value. -/
inductive Setting (α : Type) where
  /-- It has not been given. -/
  | unset
  /-- It has been given with a value. -/
  | to (value : α)
  /-- It has been given with the separator in the place of its value. -/
  | blank
  deriving DecidableEq, Repr

/-- Reads the value of an option; the separator is none. -/
def Setting.ofValue {α : Type} (read : String → Except UsageError α) (value : String) :
    Except UsageError (Setting α) :=
  if value = "--" then .ok .blank else (read value).map .to

/-- What a command line asks for when it asks for a run. -/
structure Arguments where
  /-- The path of the image. -/
  image : String
  /-- Start at the origin of the image. -/
  startAtOrigin : Bool := false
  /-- The step limit. -/
  maxSteps : Setting Int := .unset
  /-- A read past the end of the input is a fault. -/
  strictInput : Bool := false
  /-- The least level of messages that are shown. -/
  level : Setting Level := .unset
  deriving DecidableEq, Repr

/-- What a command line asks for. -/
inductive Command where
  /-- Run a program. -/
  | run (arguments : Arguments)
  /-- Show the help. -/
  | help
  /-- Show the version. -/
  | version
  deriving DecidableEq, Repr

/-- What has been understood so far. -/
structure Draft where
  /-- The image, if it has been named. -/
  image : Option String := none
  /-- The arguments that nothing wants, in order. -/
  extras : List String := []
  /-- The arguments that options have set. -/
  arguments : Arguments := { image := "" }

/-- Adds an argument that nothing wants. -/
def Draft.addExtra (d : Draft) (s : String) : Draft := { d with extras := d.extras ++ [s] }

/-- What the whole command line asks for. -/
def Draft.finish (d : Draft) : Except UsageError Command :=
  match d.image, d.extras with
  | none, _ => .error .missingImage
  | some image, [] => .ok (.run { d.arguments with image })
  | some _, extras => .error (.unrecognized extras)

/-- Reads a step limit. -/
def stepLimit (integer? : String → Option Int) (value : String) : Except UsageError Int :=
  match integer? value with
  | some limit => .ok limit
  | none => .error (.badStepLimit value)

/-- Reads the name of a level. -/
def levelNamed (value : String) : Except UsageError Level :=
  match Level.ofName? value with
  | some level => .ok level
  | none => .error (.badLevel value)

/-- Sets an option that takes a value; what was set before does not count any more. -/
def Draft.setValue (integer? : String → Option Int) (d : Draft) (flag : Flag) (value : String) :
    Except UsageError Draft :=
  match flag with
  | .maxSteps =>
    (Setting.ofValue (stepLimit integer?) value).map fun limit =>
      { d with arguments.maxSteps := limit }
  | .logLevel =>
    (Setting.ofValue levelNamed value).map fun level => { d with arguments.level := level }
  | _ => .error (.ignoredValue flag value)

/-- What the short help option asks for with letters behind it: they may only repeat its own
letter, and there must be some. -/
def ofCluster (letters : List Char) : Except UsageError Command :=
  match letters, letters.dropWhile (· = 'h') with
  | _ :: _, [] => .ok .help
  | _, rest => .error (.ignoredValue .help (String.ofList rest))

/-- Goes through the tokens.  The first operand is the image; a separator next to it is dropped. -/
def interpret (integer? : String → Option Int) : List Token → Draft → Except UsageError Command
  | [], d => d.finish
  | .option .help none :: _, _ => .ok .help
  | .option .version none :: _, _ => .ok .version
  | .option .startAtOrigin none :: rest, d =>
    interpret integer? rest { d with arguments.startAtOrigin := true }
  | .option .strictInput none :: rest, d =>
    interpret integer? rest { d with arguments.strictInput := true }
  | .option flag none :: .operand value :: rest, d =>
    match d.setValue integer? flag value with
    | .ok d => interpret integer? rest d
    | .error e => .error e
  | .option flag none :: _, _ => .error (.missingValue flag)
  | .option flag (some value) :: rest, d =>
    match d.setValue integer? flag value with
    | .ok d => interpret integer? rest d
    | .error e => .error e
  | .cluster letters :: _, _ => ofCluster letters
  | .unknown s :: rest, d => interpret integer? rest (d.addExtra s)
  | .operand s :: .separator :: rest, d =>
    match d.image with
    | none => interpret integer? rest { d with image := some s }
    | some _ => interpret integer? rest ((d.addExtra s).addExtra "--")
  | .operand s :: rest, d =>
    match d.image with
    | none => interpret integer? rest { d with image := some s }
    | some _ => interpret integer? rest (d.addExtra s)
  | .separator :: .operand s :: rest, d =>
    match d.image with
    | none => interpret integer? rest { d with image := some s }
    | some _ => interpret integer? rest ((d.addExtra "--").addExtra s)
  | .separator :: rest, d => interpret integer? rest (d.addExtra "--")

/-- Reads a command line, with the integers as they are read by `integer?`. -/
def parse (integer? : String → Option Int) (arguments : List String) :
    Except UsageError Command := do
  interpret integer? (← tokens arguments) {}

example : parse Text.decimal? ["-hx"] = .error (.ignoredValue .help "x") := by cbv
example : parse Text.decimal? ["-h=h"] = .ok .help := by cbv
example : parse Text.decimal? ["--", "-x", "--", "y"] = .error (.unrecognized ["--", "y"]) := by cbv
example : parse Text.decimal? ["a", "--max=-5"] =
    .ok (.run { image := "a", maxSteps := .to (-5) }) := by cbv
example : parse Text.decimal? ["a", "--max=--"] =
    .ok (.run { image := "a", maxSteps := .blank }) := by cbv

end LittleComputer.CommandLine
