import ServerTest.Configuration.ConfigFile

/-!
# `Config`

The list of loaded files and the operations on it. `Load` and `Reload` read a file, so they are
given what opening it yields at the time of the call; two calls with one name may see two files.

A key of the one-key getters is `file.section.name`; its part before the first `.` is the file.
`LoadFile` stores a file under the part of its *name* before the first `.`, and the assignment in
`Load` that would store the whole name, `GetFilename() = Filename`, writes to the copy that
`GetFilename` returns. So a file loaded as `a.ini` is kept as `a`; `Find` and `GetFile` compare with
the name they are given and do not cut it.

The two families of getters are one definition each, `dotted` and `inFile`, applied to the getter
of `ConfigFile`. The four-argument `GetUInt` is not in the family: it is a stub.
-/

set_option autoImplicit false

namespace ServerTest.Configuration

open Lib

structure Config where
  configFilesList : List ConfigFile
  deriving DecidableEq

namespace Config

def new : Config := ⟨[]⟩

def find (config : Config) (filename : Bytes) : Option ConfigFile :=
  config.configFilesList.find? (·.getFilename = filename)

def getFile (config : Config) (filename : Bytes) : Option ConfigFile :=
  config.configFilesList.find? (·.getFilename = filename)

def load (config : Config) (filename : Bytes) (file : Option Bytes) : Status × Config :=
  match config.find filename with
  | some _ => (.OK, config)
  | none =>
    let (res, back) := ConfigFile.new.loadFile filename file
    if res = 0 then (.OK, ⟨config.configFilesList ++ [back]⟩)
    else (.FAILED, config)

def unload (config : Config) (filename : Bytes) : Status × Config :=
  (.OK, ⟨config.configFilesList.filter (·.getFilename ≠ filename)⟩)

def reload (config : Config) (filename : Bytes) (file : Option Bytes) : Status × Config :=
  match config.unload filename with
  | (.OK, config) => config.load filename file
  | (_, config) => (.FAILED, config)

/-! ## The one-key getters -/

section

variable {α : Type} (get : Contents → Bytes → α → Status × α) (config : Config) (key : Bytes)

/-- The file and the rest of a key. Without a `.` in it `FilenameEnd + 1` wraps to zero and the rest
is the whole key. -/
def splitKey : Bytes × Bytes :=
  (key.takeWhile (· ≠ chr '.'),
    if chr '.' ∈ key then (key.dropWhile (· ≠ chr '.')).tail else key)

def dotted (value : α) : Status × α :=
  match config.find (splitKey key).1 with
  | none => (.FAILED, value)
  | some file => get file.toContents (lower (splitKey key).2) value

end

/-- `if (bResult == OK) Value = (T)Long;` -/
def converted {α β : Type} (cast : α → β) (result : Status × α) (value : β) : Status × β :=
  match result with
  | (.OK, number) => (.OK, cast number)
  | (status, _) => (status, value)

section

variable (model : DataModel) (real : FloatingPoint) (config : Config) (key : Bytes)

def getString (value : Bytes) : Status × Bytes := dotted Contents.getString config key value

def getBool (value : Bool) : Status × Bool := dotted Contents.getBoolean config key value

def getLong (value : Int) : Status × Int := dotted (Contents.getLong model) config key value

def getUInt (value : Int) : Status × Int :=
  dotted (fun file subkey => converted toUInt32 (file.getLong model subkey 0)) config key value

def getInt (value : Int) : Status × Int :=
  dotted (fun file subkey => converted toInt32 (file.getLong model subkey 0)) config key value

def getDouble (value : real.Double) : Status × real.Double :=
  dotted (Contents.getDouble real) config key value

def getFloat (value : real.Float) : Status × real.Float :=
  dotted (fun file subkey =>
    converted real.toFloat (file.getDouble real subkey real.indeterminate)) config key value

end

/-! ## The four-argument getters -/

/-- The common body: find the file, ask it. The strings pass through `c_str()`. -/
def inFile {α : Type} (get : Contents → Bytes → Bytes → α → Status × α) (config : Config)
    (section_ key : Bytes) (value : α) (filename : Bytes) : Status × α :=
  match config.find filename with
  | none => (.FAILED, value)
  | some file => get file.toContents (cStr section_) (cStr key) value

section

variable (model : DataModel) (real : FloatingPoint) (config : Config) (section_ key : Bytes)

def getSectionString (value filename : Bytes) : Status × Bytes :=
  inFile Contents.getSectionString config section_ key value filename

def getSectionBool (value : Bool) (filename : Bytes) : Status × Bool :=
  inFile Contents.getSectionBoolean config section_ key value filename

def getSectionLong (value : Int) (filename : Bytes) : Status × Int :=
  inFile (Contents.getSectionLong model) config section_ key value filename

/-- A stub. -/
def getSectionUInt (_config : Config) (_section _key : Bytes) (value : Int) (_filename : Bytes) :
    Status × Int :=
  (.FAILED, value)

def getSectionInt (value : Int) (filename : Bytes) : Status × Int :=
  inFile (fun file section_ name => converted toInt32 (file.getSectionLong model section_ name 0))
    config section_ key value filename

def getSectionDouble (value : real.Double) (filename : Bytes) : Status × real.Double :=
  inFile (Contents.getSectionDouble real) config section_ key value filename

def getSectionFloat (value : real.Float) (filename : Bytes) : Status × real.Float :=
  inFile (fun file section_ name =>
    converted real.toFloat (file.getSectionDouble real section_ name real.indeterminate))
    config section_ key value filename

end

end Config

end ServerTest.Configuration
