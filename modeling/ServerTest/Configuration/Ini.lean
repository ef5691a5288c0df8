import Mathlib.Data.List.DropRight
import ServerTest.Lib.Cpp

/-!
# The `.ini` parser

`ini_parse_file` of the bundled `ini.c`, with the settings of `ini.h`: multi-line values and a byte
order mark are allowed, parsing does not stop at an error, and a line longer than
`INI_MAX_LINE - 1` bytes is read in pieces. A handler is called for every name and value; `User` is
the object its `user` pointer points to.

The C code works on pointers into one line buffer. Here a pointer is the rest of the line it points
at: `lskip` returns that rest, `find_char_or_comment` returns what it skipped together with the rest
so that writing a NUL at the place found is taking the first part. Where the code compares `start`
with `line` it asks whether anything was skipped, and so does the model.
-/

set_option autoImplicit false

namespace ServerTest.Configuration

open Lib

def iniMaxLine : Nat := 200

def maxSection : Nat := 50

def maxName : Nat := 50

def rstrip (s : Bytes) : Bytes := s.rdropWhile isspace

def lskip (s : Bytes) : Bytes := s.dropWhile isspace

/-- `find_char_or_comment`: what stands before the character found, and the rest from it on. -/
def findCharOrComment (c : UInt8) : Bool → Bytes → Bytes × Bytes
  | _, [] => ([], [])
  | wasWhitespace, b :: s =>
    if b = c || (wasWhitespace && b = chr ';') then ([], b :: s)
    else
      let (before, rest) := findCharOrComment c (isspace b) s
      (b :: before, rest)

def strncpy0 (src : Bytes) (size : Nat) : Bytes := src.take (size - 1)

/-- What `fgets(line, size, file)` returns, call after call, until the end of the file. `line` is
what the current call has read so far. -/
def fgetsLines (size : Nat) : Bytes → Bytes → List Bytes
  | line, [] => if line = [] then [] else [line]
  | line, c :: file =>
    let line := line ++ [c]
    if c = chr '\n' || line.length + 1 = size then line :: fgetsLines size [] file
    else fgetsLines size line file

/-- A handler: the object it is given, section, name and value; zero is an error. -/
abbrev Handler (User : Type) := User → Bytes → Bytes → Bytes → Int × User

/-- The variables of `ini_parse_file` that live from line to line. `lineno` and `error` are `int`s
there and unbounded here, which is the same for a file that `fgets` cuts into fewer than `2 ^ 31`
pieces. -/
structure IniState (User : Type) where
  section_ : Bytes
  prevName : Bytes
  lineno : Nat
  error : Nat
  user : User

namespace IniState

variable {User : Type}

/-- `if (!error) error = lineno;` -/
def fail (st : IniState User) : IniState User :=
  if st.error = 0 then { st with error := st.lineno } else st

/-- `if (!handler(user, section, name, value) && !error) error = lineno;` -/
def handle (handler : Handler User) (st : IniState User) (name value : Bytes) : IniState User :=
  let (result, user) := handler st.user st.section_ name value
  let st := { st with user := user }
  if result = 0 then st.fail else st

/-- A `[section]` line; `rest` is what follows the bracket. -/
def parseSection (st : IniState User) (rest : Bytes) : IniState User :=
  let (name, end_) := findCharOrComment (chr ']') false rest
  if end_.head? = some (chr ']') then
    { st with section_ := strncpy0 name maxSection, prevName := [] }
  else st.fail

/-- A `name=value` or `name:value` line. -/
def parsePair (handler : Handler User) (st : IniState User) (start : Bytes) : IniState User :=
  let found := findCharOrComment (chr '=') false start
  let found :=
    if found.2.head? = some (chr '=') then found else findCharOrComment (chr ':') false start
  match found with
  | (name, sep :: value) =>
    if sep = chr '=' || sep = chr ':' then
      let name := rstrip name
      -- With `'\0'` as the character looked for, only a comment ends the value.
      let value := rstrip (findCharOrComment 0 false (lskip value)).1
      { st with prevName := strncpy0 name maxName }.handle handler name value
    else st.fail
  | (_, []) => st.fail

/-- The body of the loop. -/
def parseLine (handler : Handler User) (st : IniState User) (line : Bytes) : IniState User :=
  let st := { st with lineno := st.lineno + 1 }
  let line := cStr line
  let bom : Bool := st.lineno = 1 && line.take 3 = [0xEF, 0xBB, 0xBF]
  let stripped := rstrip (if bom then line.drop 3 else line)
  let start := lskip stripped
  -- `start > line`
  let skipped : Bool := bom || start.length < stripped.length
  match start with
  | [] => st
  | c :: rest =>
    if c = chr ';' || c = chr '#' then st
    else if st.prevName ≠ [] && skipped then st.handle handler st.prevName start
    else if c = chr '[' then st.parseSection rest
    else st.parsePair handler start

end IniState

/-- `ini_parse_file`: the line of the first error, or zero, and the user object. -/
def iniParseFile {User : Type} (handler : Handler User) (user : User) (file : Bytes) : Nat × User :=
  let st := (fgetsLines iniMaxLine [] file).foldl (IniState.parseLine handler) ⟨[], [], 0, 0, user⟩
  (st.error, st.user)

/-- `ini_parse`; `file` is `none` when `fopen` fails. -/
def iniParse {User : Type} (handler : Handler User) (user : User) (file : Option Bytes) :
    Int × User :=
  match file with
  | none => (-1, user)
  | some text =>
    let (error, user) := iniParseFile handler user text
    (error, user)

end ServerTest.Configuration
