import Ember.Shell
/-!
The command line: `ember [-v|-vv|-vvv] [--debug-file FILE] [script]`.

With a script, the script runs once and the exit status says whether it went through.
Without one, the read-eval-print loop answers the lines of standard input until it ends.
Trace lines go to the error stream, or to the trace file when one is given with a positive
level. Text read from files and standard input is valid UTF-8, so it holds no lone surrogate,
and what is written is written with `Text.toString`.
-/

namespace Ember.Main

/-- Writes trace events where the trace goes. -/
def writeTrace (file : Option IO.FS.Handle) (events : Array Event) : IO Unit := do
  let text := (Event.text events).toString
  match file with
  | some h => h.putStr text; h.flush
  | none => (← IO.getStderr).putStr text

/-- Answers the lines of standard input on the machine `m` until the input ends. -/
partial def loop (file : Option IO.FS.Handle) (m : Machine) : IO UInt32 := do
  let stdout ← IO.getStdout
  let stderr ← IO.getStderr
  let line ← (← IO.getStdin).getLine
  if line.isEmpty then
    stdout.putStr Repl.farewell
    stdout.flush
    return 0
  let text := if line.endsWith "\n" then String.ofList line.toList.dropLast else line
  match Repl.answer m (Text.ofString text) with
  | .error c =>
    stderr.putStrLn (c.kind ++ ": " ++ c.message.toString)
    return 1
  | .ok (r, m) =>
    stdout.putStr r.out.toString
    stdout.flush
    writeTrace file r.trace
    stderr.putStr r.err.toString
    loop file m

/-- Runs the command line. -/
def run (args : List String) : IO UInt32 := do
  let o := Options.read (args.map Text.ofString)
  let file ← match o.debugFile with
    | some path =>
      if o.traceToFile then some <$> IO.FS.Handle.mk path.toString .write else pure none
    | none => pure none
  let stdout ← IO.getStdout
  let stderr ← IO.getStderr
  match o.script with
  | some path =>
    if path.isEmpty then
      stdout.putStr Repl.banner
      loop file (Machine.fresh o.verbosity o.traceToFile)
    else
      let source ← try some <$> IO.FS.readFile path.toString catch _ => pure none
      match source with
      | none =>
        stderr.putStr ("Error: file " ++ (Shell.normalPath path).toString ++ " not found\n")
        return 1
      | some src =>
        match Script.run o.verbosity o.traceToFile (Text.ofString src) with
        | .error c =>
          stderr.putStrLn (c.kind ++ ": " ++ c.message.toString)
          return 1
        | .ok r =>
          stdout.putStr r.reply.out.toString
          writeTrace file r.reply.trace
          stderr.putStr r.reply.err.toString
          return r.status.toUInt32
  | none =>
    stdout.putStr Repl.banner
    loop file (Machine.fresh o.verbosity o.traceToFile)

end Ember.Main

/-- The entry point of the command line. -/
def main (args : List String) : IO UInt32 :=
  Ember.Main.run args
