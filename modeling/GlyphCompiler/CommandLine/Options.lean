/-
# Command-line options

The arguments are read from left to right. Asking for help ends the reading at
once, and so does the first argument that cannot be understood. An option given
twice counts as given last. The name of the stage is judged when all arguments
have been read.
-/

import GlyphCompiler.Stage

namespace GlyphCompiler

namespace CommandLine

/-- How a program is to be compiled, and where it is read and written. Without a
name, the standard streams are meant. -/
structure Options where
  stage : Stage
  optimizing : Bool
  input : Option String
  output : Option String
  deriving DecidableEq, Repr

/-- What is wrong with the arguments. -/
inductive Misuse
  | missingArgument (flag : String)
  | unknownFlag (flag : String)
  | unexpectedArgument (argument : String)
  | unknownStage (name : String)
  deriving DecidableEq, Repr

/-- The wording of what is wrong with the arguments. -/
def Misuse.message : Misuse → String
  | .missingArgument flag => flag ++ " requires an argument"
  | .unknownFlag flag => "unknown flag '" ++ flag ++ "'"
  | .unexpectedArgument argument => "unexpected argument '" ++ argument ++ "'"
  | .unknownStage name => "unknown stage '" ++ name ++ "'"

/-- What the arguments ask for. -/
inductive Request
  | help
  | compile (options : Options)
  | misuse (misuse : Misuse)
  deriving DecidableEq, Repr

/-- The options read so far, the stage by its name. -/
structure Draft where
  stage : String
  optimizing : Bool
  input : Option String
  output : Option String

/-- The options before any argument is read. -/
def Draft.initial : Draft := ⟨Stage.js.name, true, none, none⟩

/-- Judge the name of the stage. -/
def Draft.finish (draft : Draft) : Request :=
  match Stage.ofName? draft.stage with
  | some stage => .compile ⟨stage, draft.optimizing, draft.input, draft.output⟩
  | none => .misuse (.unknownStage draft.stage)

/-- Read arguments after others. -/
def readArguments (draft : Draft) : List String → Request
  | [] => draft.finish
  | "--help" :: _ => .help
  | "-h" :: _ => .help
  | "--stage" :: rest =>
    match rest with
    | [] => .misuse (.missingArgument "--stage")
    | stage :: rest => readArguments { draft with stage := stage } rest
  | "--no-optimize" :: rest => readArguments { draft with optimizing := false } rest
  | argument :: rest =>
    if argument = "-o" || argument = "--output" then
      match rest with
      | [] => .misuse (.missingArgument argument)
      | file :: rest => readArguments { draft with output := some file } rest
    else if argument.toList.head? = some '-' then .misuse (.unknownFlag argument)
    else
      match draft.input with
      | some _ => .misuse (.unexpectedArgument argument)
      | none => readArguments { draft with input := some argument } rest

/-- What some arguments ask for. -/
def request (arguments : List String) : Request :=
  readArguments .initial arguments

/-- What is shown when help is asked for. -/
def usage : String :=
"glyph [OPTIONS] [INPUT] [-o OUTPUT]

Compile a Glyph program to JavaScript. Reads INPUT, or stdin if omitted.

Options:
  --stage STAGE       Stop after stage: parsed, analyzed, optimized, js (default)
  --no-optimize       Skip the optimizer
  -o, --output FILE   Write output to FILE instead of stdout
  --help              Show this help message
"

end CommandLine

end GlyphCompiler
