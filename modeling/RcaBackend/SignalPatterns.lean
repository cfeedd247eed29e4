import RcaBackend.PyRuntime
import RcaBackend.Regex

/-!
# The patterns of the raw lines

The patterns of `bundle_compression`, most of which `raw_normalizer` compiles as well.
Some ignore case, which in Python also means the few characters outside ASCII whose
lower case is a letter of the pattern, or is its other form. `\d`, `\w` and `\s` are
those of Unicode.
-/

namespace RcaBackend

namespace SignalPatterns

/-- The characters that match a letter, given in lower case, when case is ignored. -/
def ignoringCase (letter : Nat) (c : Nat) : Bool :=
  c = letter || (97 ≤ letter && letter ≤ 122 && c = letter - 32) ||
    match letter with
    | 105 => c = 0x130 || c = 0x131
    | 107 => c = 0x212A
    | 115 => c = 0x17F
    | 0xB5 => c = 0x3BC || c = 0x39C
    | _ => false

/-- A word in lower case, ignoring case. -/
def anyCase (word : String) : Regex Nat := .inOrder ((py word).map fun c => .one (ignoringCase c))

/-- One given character. -/
def char (c : Nat) : Regex Nat := .one fun other => other = c

def isLetter (c : Nat) : Bool := 65 ≤ c && c ≤ 90 || 97 ≤ c && c ≤ 122

/-- `[-+]?` -/
def sign : Regex Nat := .optional (.one fun c => c = 45 || c = 43)

variable [PyRuntime]

open PyRuntime

/-- `\d+` -/
def digits : Regex Nat := .atLeastOne isDecimal

/-- `\d+(?:\.\d+)?` -/
def decimals : Regex Nat := .seq digits (.optional (.seq (char 46) digits))

/-- `\b(FATAL|CRITICAL|ERROR|WARN(?:ING)?|INFO|DEBUG|TRACE)\b`, ignoring case. -/
def levelRe : Regex Nat :=
  .inOrder [.boundary isWord,
    .group 1 (.firstOf (anyCase "fatal") [anyCase "critical", anyCase "error",
      .seq (anyCase "warn") (.optional (anyCase "ing")), anyCase "info", anyCase "debug",
      anyCase "trace"]),
    .boundary isWord]

/-- The name, group 1, and the value, group 2, of the Prometheus exposition form, without
time stamp. -/
def promRe : Regex Nat :=
  .inOrder [
    .group 1 (.seq (.one fun c => isLetter c || c = 95 || c = 58)
      (.many fun c => isLetter c || isAsciiDigit c || c = 95 || c = 58)),
    .optional (.inOrder [char 123, .many fun c => c ≠ 125, char 125]),
    .atLeastOne space,
    .group 2 (.inOrder [sign, decimals,
      .optional (.inOrder [.one fun c => c = 101 || c = 69, sign, digits])]),
    .optional (.seq (.atLeastOne space) digits),
    .many space,
    .finish]

/-- `([A-Za-z_][\w.%-]*)=([-+]?\d+(?:\.\d+)?)` -/
def pairRe : Regex Nat :=
  .inOrder [
    .group 1 (.seq (.one fun c => isLetter c || c = 95)
      (.many fun c => isWord c || c = 46 || c = 37 || c = 45)),
    char 61,
    .group 2 (.seq sign decimals)]

/-- `(\d+(?:\.\d+)?)\s*(us|µs|ms|s)\b`, ignoring case. -/
def durationRe : Regex Nat :=
  .inOrder [
    .group 1 decimals,
    .many space,
    .group 2 (.firstOf (anyCase "us")
      [.seq (.one (ignoringCase 0xB5)) (anyCase "s"), anyCase "ms", anyCase "s"]),
    .boundary isWord]

/-- `\b(ERROR|TIMEOUT|FAIL\w*|5\d{2})\b`, ignoring case. -/
def traceErrRe : Regex Nat :=
  .inOrder [.boundary isWord,
    .group 1 (.firstOf (anyCase "error") [anyCase "timeout",
      .seq (anyCase "fail") (.many isWord),
      .inOrder [char 53, .one isDecimal, .one isDecimal]]),
    .boundary isWord]

/-- `\d{2}:\d{2}:\d{2}(?:\.\d+)?`, as group 1. -/
def clockRe : Regex Nat :=
  .group 1 (.inOrder [.one isDecimal, .one isDecimal, char 58, .one isDecimal, .one isDecimal,
    char 58, .one isDecimal, .one isDecimal, .optional (.seq (char 46) digits)])

/-- The marks of a service that starts, stops or dies, ignoring case. -/
def lifecycleRe : Regex Nat :=
  .firstOf (.inOrder [anyCase "starting the ", .many fun c => c ≠ 10, anyCase "server"])
    [.seq (anyCase "server ") (.firstOf (anyCase "started")
      [anyCase "starting", anyCase "stopped", anyCase "listening"]),
    anyCase "shutting down", anyCase "shutdown",
    .seq (anyCase "received sig") (.firstOf (anyCase "kill") [anyCase "term"]),
    anyCase "out of memory",
    .inOrder [.boundary isWord, anyCase "oom", .boundary isWord],
    .inOrder [.boundary isWord, anyCase "killed", .boundary isWord],
    .inOrder [.boundary isWord, anyCase "panic", .boundary isWord],
    anyCase "terminated", anyCase "exiting"]

end SignalPatterns

/-- `pattern.search(text)` -/
def reSearch (pattern : Regex Nat) (text : PyStr) : Option (Regex.Cursor Nat) :=
  pattern.search none text

/-- `pattern.match(text)` -/
def reMatch (pattern : Regex Nat) (text : PyStr) : Option (Regex.Cursor Nat) :=
  pattern.matchAt none text

/-- `m.group(index)` of a group that every match captures. -/
def groupText (found : Regex.Cursor Nat) (index : Nat) : PyStr := (found.group index).getD []

/-- `pattern.findall(text)` of a pattern with two groups. -/
def reFindall (pattern : Regex Nat) (text : PyStr) : List (PyStr × PyStr) :=
  (pattern.findAll (text.length + 1) none text).map fun found =>
    (groupText found 1, groupText found 2)

end RcaBackend
