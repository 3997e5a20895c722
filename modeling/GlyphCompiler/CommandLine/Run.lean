/-
# Running the command line

A run reads one program, compiles it, and delivers the result. It reaches the
world through a host, which reads the standard input, reads a file and writes a
file. A file is written as the very last step, and only when there is something
to write; an empty result is delivered nowhere.
-/

import GlyphCompiler.CommandLine.Options
import GlyphCompiler.Text.Blank
import GlyphCompiler.Text.Json

namespace GlyphCompiler

namespace CommandLine

/-- The ways in which a run reaches the world. -/
structure Host (m : Type → Type) where
  /-- The standard input. -/
  readInput : m ByteArray
  /-- The bytes of a file, if it can be read. -/
  readFile : String → m (Option ByteArray)
  /-- Make a text the content of a file. Says whether that was possible. -/
  writeFile : String → String → m Bool

/-- What a run leaves behind on the standard streams, and its exit code. -/
structure Report where
  exit : Nat
  output : String
  error : String
  deriving DecidableEq, Repr

namespace Report

/-- A run that succeeds. -/
def success (output : String) : Report := ⟨0, output, ""⟩

/-- A run that fails with a message. -/
def failure (exit : Nat) (message : String) : Report := ⟨exit, "", "error: " ++ message ++ "\n"⟩

/-- A run that fails because the program is rejected. -/
def rejection (diagnostic : Diagnostic) : Report :=
  ⟨1, "", "error:" ++ toString diagnostic.position.line ++ ":" ++
    toString diagnostic.position.column ++ ": " ++ diagnostic.cause.message ++ "\n"⟩

end Report

/-- A text without the line feeds at its end. -/
def trimLineFeeds (text : String) : String :=
  String.ofList (text.toList.reverse.dropWhile (· = '\n')).reverse

/-- The text of what a compilation comes to. -/
def render : Compiled → Except Fault String
  | .tree tree => .ok (trimLineFeeds tree.outline)
  | .program program => program.toData.toJson
  | .text text => .ok text

/-- Compile a source text to the text that is delivered. -/
def compileText (source : String) (options : Options) : Except Failure String := do
  let compiled ← compile source options.stage options.optimizing
  Failure.ofFault (render compiled)

/-- What the bytes of an input come to: a text to deliver, or a report of the failure. -/
def process (options : Options) (input : ByteArray) : Except Fault (Except Report String) :=
  match String.fromUTF8? input with
  | none => .ok (.error (.failure 1 "invalid utf-8 in input"))
  | some source =>
    if isBlankText source then .ok (.error (.failure 2 "no input provided"))
    else
      match compileText source options with
      | .ok text => .ok (.ok text)
      | .error (.diagnostic diagnostic) => .ok (.error (.rejection diagnostic))
      | .error (.fault fault) => .error fault

variable {m : Type → Type} [Monad m]

/-- Does a name hold the null character, which no file name does? -/
def holdsNull (file : String) : Bool :=
  file.toList.contains '\x00'

/-- Deliver a text to a file or to the standard output, followed by a line feed. -/
def deliver (host : Host m) (output : Option String) (text : String) :
    m (Except Fault Report) :=
  if text.isEmpty then return .ok (.success "")
  else
    match output with
    | none => return .ok (.success (text ++ "\n"))
    | some file => do
      if holdsNull file then return .error .nullInFileName
      else if ← host.writeFile file (text ++ "\n") then return .ok (.success "")
      else return .ok (.failure 1 ("cannot write '" ++ file ++ "'"))

/-- The input of a run, or a report that it cannot be read. -/
def readSource (host : Host m) : Option String → m (Except Fault (Except Report ByteArray))
  | none => do return .ok (.ok (← host.readInput))
  | some file => do
    if holdsNull file then return .error .nullInFileName
    match ← host.readFile file with
    | some input => return .ok (.ok input)
    | none => return .ok (.error (.failure 1 ("cannot open '" ++ file ++ "'")))

/-- Compile with given options. -/
def runOptions (host : Host m) (options : Options) : m (Except Fault Report) := do
  match ← readSource host options.input with
  | .error fault => return .error fault
  | .ok (.error report) => return .ok report
  | .ok (.ok input) =>
    match process options input with
    | .error fault => return .error fault
    | .ok (.error report) => return .ok report
    | .ok (.ok text) => deliver host options.output text

/-- Run the command line with given arguments. -/
def run (host : Host m) (arguments : List String) : m (Except Fault Report) :=
  match request arguments with
  | .help => return .ok (.success usage)
  | .misuse misuse => return .ok (.failure 2 misuse.message)
  | .compile options => runOptions host options

end CommandLine

end GlyphCompiler
