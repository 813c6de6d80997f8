/-!
Words for the shell: values between double quotes on a command line, and the words of a command that
the host runs, which it expands as a format before.
-/

namespace StatusLine.Host

def isSpecial (c : Char) : Bool := c = '\\' || c = '"' || c = '$' || c = '\x60'

def quotedChars (cs : List Char) : List Char :=
  cs.flatMap fun c => if isSpecial c then ['\\', c] else [c]

def quoted (s : String) : String := String.ofList ('"' :: quotedChars s.toList ++ ['"'])

def isPlain (c : Char) : Bool :=
  ('a' ≤ c && c ≤ 'z') || ('A' ≤ c && c ≤ 'Z') || ('0' ≤ c && c ≤ '9') ||
    "/._-+:=,@".toList.contains c

/-- A text between single quotes, which end and begin again around a single quote. -/
def singleQuoted (cs : List Char) : List Char :=
  '\'' :: (cs.flatMap fun c => if c = '\'' then ['\'', '\\', '\'', '\''] else [c]) ++ ['\'']

def shellWord (cs : List Char) : List Char :=
  if !cs.isEmpty && cs.all isPlain then cs else singleQuoted cs

/-- A text that the host's expansion turns into `cs`. -/
def doubled (cs : List Char) : List Char := cs.flatMap fun c => if c = '#' then ['#', '#'] else [c]

def callbackWord (s : String) : String := String.ofList (doubled (shellWord s.toList))

end StatusLine.Host
