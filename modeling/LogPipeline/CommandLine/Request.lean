import LogPipeline.Number.Digits
import LogPipeline.Classic.Text

namespace LogPipeline

namespace CommandLine

/-!
# Requests

The arguments of the command line ask for a conversion.  An argument that
begins with a dash is an option, up to the argument `--`; every other argument
is the input, and a lone dash stands for the standard streams.  An option that
takes a value has it attached, or takes the next argument, which then may not
be an option.  Nothing may be given twice.  Arguments are read from left to
right, and the first that asks for help, asks for the version or is wrong ends
the reading.
-/

/-- What the arguments ask for, as far as they say. -/
structure Request where
  input : Option String := none
  output : Option String := none
  indent : Option Nat := none
  placement : Option Classic.Placement := none
  /-- The input is a script, to be spread over lines. -/
  spread : Bool := false

/-- Why arguments make no request. -/
inductive Refusal where
  | help
  | version
  | misuse
deriving DecidableEq

/-- The options that take a value. -/
inductive ValuedOption where
  | output
  | indent
  | placement
deriving DecidableEq

/-- What one argument means before `--`. -/
inductive Meaning where
  /-- All further arguments are input. -/
  | finish
  | refused (refusal : Refusal)
  | spread
  | valued (name : ValuedOption) (attached : Option (List Char))
  | input

namespace Meaning

/-- What an argument means that begins with two dashes: a name, and a value
after an equals sign at will. -/
def ofLong (name : List Char) (attached : Option (List Char)) : Meaning :=
  match String.ofList name, attached with
  | "help", none => .refused .help
  | "version", none => .refused .version
  | "beautify-lua", none => .spread
  | "output", value => .valued .output value
  | "indent", value => .valued .indent value
  | "multiline-placement", value => .valued .placement value
  | _, _ => .refused .misuse

/-- What an argument means that begins with one dash: a letter, and a value
directly after it or after an equals sign. -/
def ofShort (letter : Char) (rest : List Char) : Meaning :=
  match letter, rest with
  | 'h', _ => .refused .help
  | 'V', _ => .refused .version
  | 'o', [] => .valued .output none
  | 'o', '=' :: value => .valued .output (some value)
  | 'o', value => .valued .output (some value)
  | _, _ => .refused .misuse

/-- What an argument means. -/
def ofArgument (argument : String) : Meaning :=
  match argument.toList with
  | ['-', '-'] => .finish
  | '-' :: '-' :: rest =>
    ofLong (rest.takeWhile (· ≠ '=')) (rest.dropWhile (· ≠ '=')).tail?
  | '-' :: letter :: rest => ofShort letter rest
  | _ => .input

end Meaning

/-- Whether an argument can be the value of an option before it. -/
def isValue (argument : String) : Bool :=
  argument = "-" || argument.toList.head? ≠ some '-'

/-- The number that letters denote: digits, with a plus sign before them at
will, below two to the sixty-fourth. -/
def readNumber? (letters : List Char) : Option Nat :=
  let digits := match letters with
    | '+' :: rest => rest
    | _ => letters
  (Digits.read? 10 digits).filter (· < 0x10000000000000000)

/-- The placement that letters name. -/
def readPlacement? (letters : List Char) : Option Classic.Placement :=
  match String.ofList letters with
  | "with-parsers" => some .withParsers
  | "after-outputs" => some .afterOutputs
  | _ => none

namespace Request

def withInput (request : Request) (argument : String) : Except Refusal Request :=
  if request.input.isSome then .error .misuse
  else .ok { request with input := some argument }

def withSpread (request : Request) : Except Refusal Request :=
  if request.spread then .error .misuse else .ok { request with spread := true }

/-- A request with the value of an option, unless it has one or the value is
not one for the option. -/
def withValue (request : Request) (name : ValuedOption) (value : List Char) :
    Except Refusal Request :=
  match name with
  | .output =>
    if request.output.isSome then .error .misuse
    else .ok { request with output := some (String.ofList value) }
  | .indent =>
    match request.indent, readNumber? value with
    | none, some number => .ok { request with indent := some number }
    | _, _ => .error .misuse
  | .placement =>
    match request.placement, readPlacement? value with
    | none, some placement => .ok { request with placement := some placement }
    | _, _ => .error .misuse

/-- A request with further arguments. -/
def withArguments (request : Request) : List String → Except Refusal Request
  | [] => .ok request
  | argument :: rest =>
    match Meaning.ofArgument argument with
    | .finish => rest.foldlM withInput request
    | .refused refusal => .error refusal
    | .spread => do (← request.withSpread).withArguments rest
    | .input => do (← request.withInput argument).withArguments rest
    | .valued name (some value) => do (← request.withValue name value).withArguments rest
    | .valued name none =>
      match rest with
      | [] => .error .misuse
      | value :: others =>
        if isValue value then do
          (← request.withValue name value.toList).withArguments others
        else .error .misuse

def ofArguments (arguments : List String) : Except Refusal Request :=
  withArguments {} arguments

/-- The file that a request reads, unless it reads the standard input. -/
def source? (request : Request) : Option String :=
  request.input.filter (· ≠ "-")

/-- The file that a request writes, unless it writes the standard output. -/
def target? (request : Request) : Option String :=
  request.output.filter (· ≠ "-")

/-- The options of the classic text that a request asks for. -/
def options (request : Request) : Classic.Options where
  indent := request.indent.getD 4
  placement := request.placement.getD .withParsers

end Request

end CommandLine

end LogPipeline
