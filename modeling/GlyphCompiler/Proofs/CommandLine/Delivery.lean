/-
# All or nothing

A run of the command line over a working directory changes at most one file, as its
last step. A run that fails leaves every file as it was and shows nothing on the
standard output. A run that succeeds delivers the whole text of the stage that was
asked for: into the file that was given last, or else to the standard output. Only
an empty text is delivered nowhere.
-/

import GlyphCompiler.CommandLine.FileStore
import GlyphCompiler.Proofs.CommandLine.Arguments
import GlyphCompiler.Proofs.Parser.Acceptance

namespace GlyphCompiler

namespace FileStore

/-! ## Writing a file -/

section Put

variable {store : FileStore} {path other : List String} {stored : Stored}

end Put

section Write

variable {store after : FileStore}

/-- Some bytes have become the content of a named file, and nothing else has changed. -/
structure Written (store : FileStore) (name : String) (content : ByteArray)
    (after : FileStore) : Prop where
  /-- All names lead where they led. -/
  locate : after.locate = store.locate
  /-- The name is that of a file with these bytes. -/
  read : after.read name = some content
  /-- Every other path leads to what it led to. -/
  find? : ∀ path, store.locate name ≠ some path → after.find? path = store.find? path

/-- Other files keep their bytes. -/
theorem Written.read_other {name : String} {content : ByteArray}
    (written : store.Written name content after) {other : String}
    (elsewhere : store.locate other ≠ store.locate name) :
    after.read other = store.read other := by
  rw [FileStore.read, FileStore.read, written.locate]
  cases found : store.locate other with
  | none => rfl
  | some path =>
    rw [Option.bind_some, Option.bind_some, written.find? path (found ▸ elsewhere.symm)]

end Write

end FileStore

namespace CommandLine

/-! ## A run -/

/-- The bytes that a run reads: those of the named file, or else of the standard input. -/
def Supplies (store : FileStore) (standard : ByteArray) : Option String → ByteArray → Prop
  | none, bytes => bytes = standard
  | some file, bytes => store.read file = some bytes

/-- A run that has nothing to show for itself. -/
def Report.Fails (report : Report) : Prop :=
  report.exit ≠ 0 ∧ report.output = ""

/-- The text of the stage that is asked for, compiled from what a run reads. -/
def Comes (store : FileStore) (standard : ByteArray) (options : Options) (text : String) : Prop :=
  ∃ bytes source, Supplies store standard options.input bytes ∧
    String.fromUTF8? bytes = some source ∧ compileText source options = .ok text

/-- A text is delivered: followed by a line feed it becomes the content of the file to write, or
else it is shown. An empty text is left out. -/
def Delivers (store : FileStore) (output : Option String) (text : String) (report : Report)
    (after : FileStore) : Prop :=
  match output with
  | some file => report = .success "" ∧
      if text = "" then after = store else store.Written file (text ++ "\n").toUTF8 after
  | none => after = store ∧ report = .success (if text = "" then "" else text ++ "\n")

/-- What a run with given options can come to, and the store that it leaves. -/
inductive Ends (store : FileStore) (standard : ByteArray) (options : Options) :
    Except Fault Report × FileStore → Prop
  | fault (fault : Fault) : Ends store standard options (.error fault, store)
  | failure {report : Report} (fails : report.Fails) :
    Ends store standard options (.ok report, store)
  | success {text : String} {report : Report} {after : FileStore}
      (comes : Comes store standard options text)
      (delivers : Delivers store options.output text report after) :
    Ends store standard options (.ok report, after)

section Steps

variable {store : FileStore} {standard : ByteArray} {options : Options}

end Steps

end CommandLine

end GlyphCompiler
