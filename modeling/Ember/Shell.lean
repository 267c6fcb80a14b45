import Ember.Syntax.Source
import Ember.Run
/-!
The shells around the interpreter: the read-eval-print loop, the script runner and the
command line.

* The loop answers each input line on one machine: a blank line writes nothing, `/reset`
  starts a new global scope in the same store, where the later lines run (what was made
  before stays in the store, out of their reach), a syntax error is reported on the error stream (a host
  failure in reading the line ends the loop), and otherwise
  the line runs as a program and its printed text is followed by the text of its value on a
  line of its own, or its fault on the error stream; a run without a value writes no more.
* A script runs once, with its line ends read as line feeds; its exit status is 1 after a
  syntax error or a fault and 0 otherwise.
* The command line takes `-v` (repeatable) for the trace level, `--debug-file FILE` for
  where the trace goes, and an optional script; without a script it runs the loop.

Trace lines go to the error stream, before what the line or script writes there, unless a
trace file is given with a positive level: then they go to that file, which is made even
when no line is written, and in which a line with a lone surrogate cannot be written.
-/

namespace Ember

/-- White space that the loop trims from input lines (tab to carriage return, the
information separators, space, next line, no-break space, and the Unicode space and
line-separator characters). -/
def Shell.isSpace (c : Char) : Bool :=
  let n := c.toNat
  (0x09 ≤ n && n ≤ 0x0d) || (0x1c ≤ n && n ≤ 0x20) || n = 0x85 || n = 0xa0 || n = 0x1680 ||
    (0x2000 ≤ n && n ≤ 0x200a) || n = 0x2028 || n = 0x2029 || n = 0x202f || n = 0x205f ||
    n = 0x3000

/-- A line with white space trimmed from both ends. -/
def Shell.trim (line : Text) : Text :=
  ((line.dropWhile (·.is Shell.isSpace)).reverse.dropWhile (·.is Shell.isSpace)).reverse

/-- What handling one input writes: to the output stream, to the error stream, and the
trace events of its run. -/
structure Reply where
  out : Text
  err : Text
  trace : Array Event

namespace Repl

/-- The line the loop greets with. -/
def banner : String := "ember repl - Ctrl-D to exit, /reset for a fresh environment\n"

/-- What the loop writes when its input ends. -/
def farewell : String := "\n"

/-- Answers one input line on the machine `m`; gives the reply and the machine after it. -/
def answer (m : Machine) (line : Text) : Except Crash (Reply × Machine) :=
  let t := Shell.trim line
  if t.isEmpty then .ok (⟨[], [], #[]⟩, m)
  else if t = "/reset" then
    let (st, g) := m.store.newFrame none
    .ok (⟨"Environment reset.\n", [], #[]⟩, { m with store := st, global := g })
  else
    match Program.ofSource? line with
    | .error f =>
      match f.crash? with
      | some c => .error c
      | none => .ok (⟨[], "Error: " ++ f.message ++ "\n", #[]⟩, m)
    | .ok p => do
      let (o, m) ← p.runIn m.global m.clearOutput
      let reply := match o with
        | .done none => ⟨m.out.toList, [], m.trace⟩
        | .done (some v) => ⟨m.out.toList ++ v.inspect ++ "\n", [], m.trace⟩
        | .failed f => ⟨m.out.toList, "Error: " ++ f.inspect ++ "\n", m.trace⟩
      pure (reply, m)

/-- Answers input lines in order, from the machine `m`. -/
def answerAll (m : Machine) : List Text → Except Crash (List Reply × Machine)
  | [] => .ok ([], m)
  | l :: ls => do
    let (r, m) ← answer m l
    let (rs, m) ← answerAll m ls
    pure (r :: rs, m)

end Repl

/-- How a script run ends: its exit status and what it wrote. -/
structure ScriptRun where
  status : Nat
  reply : Reply

/-- The text of a script file as a reader of text files gives it: a carriage return followed
by a line feed, and a carriage return alone, each end a line as one line feed. -/
def Script.lineEnds : Text → Text
  | [] => []
  | .char '\r' :: .char '\n' :: rest => .char '\n' :: lineEnds rest
  | .char '\r' :: rest => .char '\n' :: lineEnds rest
  | c :: rest => c :: lineEnds rest

/-- Runs the text of a script file once at trace level `level`, writing the trace to a file
when `traceFile`. -/
def Script.run (level : Nat) (traceFile : Bool) (source : Text) : Except Crash ScriptRun :=
  match Program.ofSource? (Script.lineEnds source) with
  | .error f =>
    match f.crash? with
    | some c => .error c
    | none => .ok ⟨1, ⟨[], "Error: " ++ f.message ++ "\n", #[]⟩⟩
  | .ok p => do
    let (o, m) ← p.run (Machine.fresh level traceFile)
    match o with
    | .failed f => pure ⟨1, ⟨m.out.toList, "Runtime error: " ++ f.inspect ++ "\n", m.trace⟩⟩
    | .done _ => pure ⟨0, ⟨m.out.toList, [], m.trace⟩⟩

/-- The options of the command line. -/
structure Options where
  verbosity : Nat := 0
  debugFile : Option Text := none
  script : Option Text := none

namespace Options

/-- Whether `arg` names the trace file option: `--debug-file` or a prefix of it down to
`--d`. -/
def isDebugFile (arg : Text) : Bool :=
  arg.length ≥ 3 && arg.isPrefixOf (Text.ofString "--debug-file")

/-- Whether `arg` is a run of verbosity flags: `-` and then one or more `v`. -/
def isVerbosity (arg : Text) : Bool :=
  arg.length ≥ 2 && arg.head? = some (.char '-') && (arg.drop 1).all (· = .char 'v')

/-- Reads command-line arguments, after options `o` read before them; after `--` every
argument is a script. -/
def readFrom (o : Options) : List Text → Options
  | [] => o
  | arg :: rest =>
    if arg = "--" then
      rest.foldl (fun o a => if o.script.isNone then { o with script := some a } else o) o
    else
      let key := arg.takeWhile (· ≠ .char '=')
      let value := (arg.dropWhile (· ≠ .char '=')).drop 1
      if arg.contains (.char '=') && isDebugFile key then
        readFrom { o with debugFile := some value } rest
      else if isDebugFile arg then
        match rest with
        | file :: rest => readFrom { o with debugFile := some file } rest
        | [] => o
      else if isVerbosity arg then
        readFrom { o with verbosity := o.verbosity + (arg.length - 1) } rest
      else if o.script.isNone then readFrom { o with script := some arg } rest
      else readFrom o rest

/-- Reads command-line arguments. -/
def read (args : List Text) : Options :=
  readFrom {} args

/-- Whether the trace goes to a file: a positive level and a trace file with a name. -/
def traceToFile (o : Options) : Bool :=
  o.verbosity > 0 && !(o.debugFile.getD []).isEmpty

end Options

/-- The path separator. -/
def Shell.separator : CodePoint := .char '/'

/-- The parts of a path between its separators, empty ones included. -/
def Shell.components (p : Text) : List Text :=
  p.foldr (fun c parts =>
    if c = Shell.separator then [] :: parts
    else match parts with
      | [] => [[c]]
      | part :: more => (c :: part) :: more) [[]]

/-- A path as the file system names it back: repeated and trailing separators and `.`
components dropped, `.` for the empty path; a path that starts with exactly two separators
keeps both. -/
def Shell.normalPath (p : Text) : Text :=
  let sep := Shell.separator
  let root : Text :=
    if p.take 2 = [sep, sep] && p.take 3 ≠ [sep, sep, sep] then [sep, sep]
    else if p.head? = some sep then [sep] else []
  let parts := (Shell.components p).filter fun (c : Text) => !c.isEmpty && c ≠ "."
  let s := root ++ List.intercalate [sep] parts
  if s.isEmpty then "." else s

/-- What a path names in the file system. -/
inductive Shell.Entry where
  | file (text : Text)
  | directory
  | missing

/-- Whether the file system can take a path as a name: it holds no NUL and no lone surrogate
that the file system refuses. A path it cannot take names nothing. -/
def Shell.isName (p : Text) : Bool :=
  (Text.nameRefusal? p).isNone && !p.contains (.char '\x00')

/-- Stores a text as a UTF-8 file, giving the text that the file then holds: a text with a
lone surrogate cannot be stored. -/
def Shell.store (t : Text) : Except Crash Text :=
  match Text.strictRefusal? t with
  | some r => .error (.unencodable r)
  | none => .ok t

/-- The directory a path lies in: what stands before its last separator (the root for a
path just below it), empty for a path without one. -/
def Shell.parentPath (p : Text) : Text :=
  match (p.reverse.dropWhile (· ≠ Shell.separator)).reverse with
  | [] => []
  | [c] => [c]
  | cs => cs.dropLast

/-- Makes the trace file at `path`. The name must be one the file system takes: a refused
lone surrogate is a failure of the writer, and a NUL is refused next. Then the directories
on the way must exist, and the path must not be a directory, nor end with a separator. -/
def Shell.makeTraceFile (entry : Text → Shell.Entry) (path : Text) : Except Crash Unit :=
  match Text.nameRefusal? path with
  | some r => .error (.unencodable r)
  | none =>
    if path.contains (.char '\x00') then .error .nullByte
    else
      let bare := (path.reverse.dropWhile (· = Shell.separator)).reverse
      let parent := Shell.parentPath bare
      let parentOk : Except Crash Unit :=
        if parent.isEmpty then .ok ()
        else match entry parent with
          | .directory => .ok ()
          | .file _ => .error (.notDirectory path)
          | .missing => .error (.noSuchFile path)
      parentOk.bind fun _ =>
        if bare.length < path.length then .error (.isDirectory path)
        else match entry path with
          | .directory => .error (.isDirectory path)
          | _ => .ok ()

/-- The file system after an empty file is made at `path`: a path that names the same file
names an empty one. -/
def Shell.withEmptyFile (entry : Text → Shell.Entry) (path : Text) : Text → Shell.Entry :=
  fun p => if Shell.normalPath p = Shell.normalPath path then .file [] else entry p

/-- What a run of the command line gives: its exit status, its output and error streams,
and the content of the trace file when one was made. -/
structure CliRun where
  status : Nat
  out : Text
  err : Text
  traceFile : Option Text

/-- Runs the command line with arguments `args`; `entry` tells what a path names in the file
system, and `lines` are the input lines of the loop. The trace file is made first, empty,
then the script is read, or the loop runs. -/
def Cli.run (args : List Text) (entry : Text → Shell.Entry) (lines : List Text) :
    Except Crash CliRun := do
  let o := Options.read args
  let toFile := o.traceToFile
  let tracePath := o.debugFile.getD []
  if toFile then Shell.makeTraceFile entry tracePath
  let entry := if toFile then Shell.withEmptyFile entry tracePath else entry
  let route (r : Reply) : Text × Text :=
    if toFile then (r.err, Event.text r.trace) else (Event.text r.trace ++ r.err, [])
  let file (t : Text) : Option Text := if toFile then some t else none
  match o.script with
  | some path =>
    if path.isEmpty then loop o toFile route file
    else match if Shell.isName path then entry path else .missing with
      | .missing =>
        pure ⟨1, [], "Error: file " ++ Shell.normalPath path ++ " not found\n", file []⟩
      | .directory => .error (.isDirectory (Shell.normalPath path))
      | .file src => do
        let r ← Script.run o.verbosity toFile src
        let (err, t) := route r.reply
        pure ⟨r.status, r.reply.out, err, file t⟩
  | none => loop o toFile route file
where
  loop (o : Options) (toFile : Bool) (route : Reply → Text × Text)
      (file : Text → Option Text) : Except Crash CliRun := do
    let (rs, _) ← Repl.answerAll (Machine.fresh o.verbosity toFile) lines
    let routed := rs.map route
    let out : Text := Repl.banner ++ (rs.map (·.out)).flatten ++ Repl.farewell
    pure ⟨0, out, (routed.map (·.1)).flatten, file (routed.map (·.2)).flatten⟩

end Ember
