import Ember.Text.Quoted
import Ember.Text.Utf8
/-!
Failures that the host reports rather than the language: limits of the host's conversions
of numbers to and from text, and files it cannot open. They are not faults of the language,
so no shell reports them as syntax or runtime errors; they end whatever was running.

* a number literal of more than `maxDigits` digits is refused when its value is computed;
* a width in a print template beyond the largest 64-bit signed integer is refused when the
  template is filled; a narrower one is padded to, which on a host with too little memory
  fails (`Crash.outOfMemory`), and the modelled host has the memory;
* a script that is a directory cannot be read, and a trace file cannot be made in a
  directory that does not exist or in place of a directory;
* a text with a lone surrogate cannot be written to a file, nor a name with a lone surrogate
  that the file system refuses (`Text.Refusal`), and a name with a NUL names no file.
-/

namespace Ember

/-- The most digits a number literal may have for the host to read its value. -/
def maxDigits : Nat := 4300

/-- A failure of the host's conversions. -/
inductive Crash where
  /-- A width beyond the largest 64-bit signed integer. -/
  | widthOverflow
  /-- A number literal with more than `maxDigits` digits, with its digit count. -/
  | digitLimit (count : Nat)
  /-- Padding wider than the host has memory for. -/
  | outOfMemory
  /-- A file to be made in a directory that does not exist. -/
  | noSuchFile (path : Text)
  /-- A directory where a file is expected. -/
  | isDirectory (path : Text)
  /-- A file where a directory is expected on the way to a path. -/
  | notDirectory (path : Text)
  /-- Lone surrogates that a writer refuses. -/
  | unencodable (r : Text.Refusal)
  /-- A file name with a NUL in it. -/
  | nullByte
deriving DecidableEq, Repr

/-- The host's name of a crash. -/
def Crash.kind : Crash → String
  | .widthOverflow | .digitLimit _ | .nullByte => "ValueError"
  | .outOfMemory => "MemoryError"
  | .noSuchFile _ => "FileNotFoundError"
  | .isDirectory _ => "IsADirectoryError"
  | .notDirectory _ => "NotADirectoryError"
  | .unencodable _ => "UnicodeEncodeError"

/-- The host's message of a crash. -/
def Crash.message : Crash → Text
  | .widthOverflow => "Too many decimal digits in format string"
  | .digitLimit n =>
    "Exceeds the limit (" ++ toString maxDigits ++ " digits) for integer string conversion: " ++
      "value has " ++ toString n ++
      " digits; use sys.set_int_max_str_digits() to increase the limit"
  | .outOfMemory => ""
  | .noSuchFile p => "[Errno 2] No such file or directory: " ++ Text.quote p
  | .isDirectory p => "[Errno 21] Is a directory: " ++ Text.quote p
  | .notDirectory p => "[Errno 20] Not a directory: " ++ Text.quote p
  | .unencodable r =>
    "'utf-8' codec can't encode " ++
      (if r.first = r.last then
        "character " ++ Text.quote [r.code] ++ " in position " ++ toString r.first
      else "characters in position " ++ toString r.first ++ "-" ++ toString r.last) ++
      ": surrogates not allowed"
  | .nullByte => "embedded null byte"

end Ember
