import Mathlib.Algebra.Group.Int.Defs
import Mathlib.Data.Finset.Basic
import Mathlib.Data.List.AList
import ServerTest.Configuration.Ini

/-!
# `ConfigFile`

One loaded `.ini` file. The parser's handler, `ValueHandler`, fills three indexes: the values by
lower-cased `section.name`, the section names, and the field names of each lower-cased section.
They are `Contents` here; `ConfigFile` adds the name the file was loaded under and the parser's
error code, which no getter looks at.

Each getter takes the output variable's old value and returns the new one with the status, so "left
unchanged" is something to prove. `std::map` and `std::set` are `AList` and `Finset`, whose order
is not observed by anything modelled.

`strtod` and the narrowing to `float` belong to the floating-point library, and `FloatingPoint`
leaves both open: nothing here depends on what a `double` is.
-/

set_option autoImplicit false

namespace ServerTest

/-- `Status` of `AssertionMacros.h`, what every fallible function of the program returns. The class pairs
a code with a message and compares both; these three constants are the only values the code returns,
and they differ already in the code. -/
inductive Status where
  | OK | FAILED | UNKNOWN
  deriving DecidableEq, Repr

namespace Configuration

open Lib

/-! ## Numbers -/

/-- The value of a digit, in any base up to 36. -/
def digitValue (c : UInt8) : Nat :=
  if chr '0' ≤ c && c ≤ chr '9' then (c - chr '0').toNat
  else if chr 'a' ≤ tolower c && tolower c ≤ chr 'z' then (tolower c - chr 'a').toNat + 10
  else 36

/-- The base and the digits of a subject sequence, for `strtol` with base 0. A `0x` that no
hexadecimal digit follows is the digit `0` and two characters too many. -/
def strtolBase (s : Bytes) : Nat × Bytes :=
  match s with
  | zero :: x :: rest =>
    if zero = chr '0' then
      if tolower x = chr 'x' && (rest.head?.map digitValue).getD 36 < 16 then (16, rest) else (8, s)
    else (10, s)
  | _ => (10, s)

def longBits : DataModel → Nat
  | .LP64 => 64
  | .LLP64 => 32

/-- `strtol(s, &end, 0)`: the number, or `none` when `end` is left at `s`. Out of range it is
clamped. -/
def strtol (model : DataModel) (s : Bytes) : Option Int :=
  let s := s.dropWhile isspace
  let negative : Bool := s.head? = some (chr '-')
  let s := if negative || s.head? = some (chr '+') then s.tail else s
  let (base, s) := strtolBase s
  let digits := (s.map digitValue).takeWhile (· < base)
  if digits = [] then none
  else
    let magnitude : Nat := digits.foldl (fun n d => n * base + d) 0
    let bound : Int := 2 ^ (longBits model - 1)
    some (if negative then max (-bound) (-magnitude) else min (bound - 1) magnitude)

/-- `(int)Long` -/
def toInt32 (n : Int) : Int := (n + 2 ^ 31) % 2 ^ 32 - 2 ^ 31

/-- `(uint32)Long` -/
def toUInt32 (n : Int) : Int := n % 2 ^ 32

/-- What the getters of real numbers need. -/
structure FloatingPoint where
  Double : Type
  Float : Type
  /-- what a variable holds that was never assigned -/
  indeterminate : Double
  /-- the number at the start of a text, if there is one -/
  strtod : Bytes → Option Double
  toFloat : Double → Float

/-! ## The indexes -/

def lower (s : Bytes) : Bytes := s.map tolower

structure Contents where
  values : AList fun _ : Bytes => Bytes
  sections : Finset Bytes
  fields : AList fun _ : Bytes => Finset Bytes
  deriving DecidableEq

structure ConfigFile extends Contents where
  filename : Bytes
  error : Int
  deriving DecidableEq

namespace Contents

def empty : Contents := ⟨∅, ∅, ∅⟩

def makeKey (section_ name : Bytes) : Bytes := lower (section_ ++ [chr '.'] ++ name)

/-- `ValueHandler`, which never reports an error. -/
def valueHandler : Handler Contents := fun reader section_ name value =>
  let key := makeKey section_ name
  -- `Values[key]` is the empty string where there was none.
  let old := (reader.values.lookup key).getD []
  let old := if old.length > 0 then old ++ [chr '\n'] else old
  let fieldsSet := (reader.fields.lookup (lower section_)).getD ∅
  (1,
    { values := reader.values.insert key (old ++ value)
      sections := insert section_ reader.sections
      fields := reader.fields.insert (lower section_) (insert name fieldsSet) })

/-- What parsing a file leaves in a fresh object, if it could be opened and has no error. -/
def ofFile (file : Option Bytes) : Option Contents :=
  let (error, contents) := iniParse valueHandler empty file
  if error = 0 then some contents else none

/-! ## The getters -/

/-- `GetString(Key)` -/
def getString (c : Contents) (key : Bytes) (output : Bytes) : Status × Bytes :=
  match c.values.lookup key with
  | some value => (.OK, value)
  | none => (.FAILED, output)

/-- `GetString(Section, Name)` -/
def getSectionString (c : Contents) (section_ name : Bytes) (output : Bytes) : Status × Bytes :=
  c.getString (makeKey section_ name) output

/-- The end of every other getter: what the text is read as, if it can be. -/
def parsed {α : Type} (read : Bytes → Option α) (value : Bytes) (output : α) : Status × α :=
  match read value with
  | some result => (.OK, result)
  | none => (.FAILED, output)

def booleanOf (value : Bytes) : Option Bool :=
  let value := lower value
  if value ∈ [ascii "true", ascii "yes", ascii "on", ascii "1"] then some true
  else if value ∈ [ascii "false", ascii "no", ascii "off", ascii "0"] then some false
  else none

def getBoolean (c : Contents) (key : Bytes) (output : Bool) : Status × Bool :=
  parsed booleanOf (c.getString key []).2 output

def getSectionBoolean (c : Contents) (section_ name : Bytes) (output : Bool) : Status × Bool :=
  parsed booleanOf (c.getSectionString section_ name []).2 output

section

variable (model : DataModel)

def longOf (value : Bytes) : Option Int := strtol model (cStr value)

def getLong (c : Contents) (key : Bytes) (output : Int) : Status × Int :=
  parsed (longOf model) (c.getString key []).2 output

def getSectionLong (c : Contents) (section_ name : Bytes) (output : Int) : Status × Int :=
  parsed (longOf model) (c.getSectionString section_ name []).2 output

end

section

variable (real : FloatingPoint)

def doubleOf (value : Bytes) : Option real.Double := real.strtod (cStr value)

def getDouble (c : Contents) (key : Bytes) (output : real.Double) : Status × real.Double :=
  parsed (doubleOf real) (c.getString key []).2 output

def getSectionDouble (c : Contents) (section_ name : Bytes) (output : real.Double) :
    Status × real.Double :=
  parsed (doubleOf real) (c.getSectionString section_ name []).2 output

end

/-- `GetFields`; an unknown section has none. -/
def getFields (c : Contents) (section_ : Bytes) : Finset Bytes :=
  (c.fields.lookup (lower section_)).getD ∅

end Contents

namespace ConfigFile

/-- The constructor. -/
def new : ConfigFile := { Contents.empty with filename := [], error := 0 }

/-- `Filename.substr(0, Filename.find_first_of("."))` -/
def stem (filename : Bytes) : Bytes := filename.takeWhile (· ≠ chr '.')

/-- `LoadFile`: the parser's result. `file` is what opening `Filename` gives at this moment. -/
def loadFile (f : ConfigFile) (filename : Bytes) (file : Option Bytes) : Int × ConfigFile :=
  let (error, contents) := iniParse Contents.valueHandler f.toContents file
  (error, { contents with filename := stem filename, error := error })

def getFilename (f : ConfigFile) : Bytes := f.filename

end ConfigFile

end Configuration

end ServerTest
