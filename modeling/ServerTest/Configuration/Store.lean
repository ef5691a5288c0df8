import ServerTest.Lib.KeyedList
import ServerTest.Configuration.Config

/-!
# `Config` as a store keyed by file name

What `Config` is for: a store that has, for each file name, the contents the file had when it was
last read. `Store` is that store, with `Load`, `Unload` and `Reload` as one would write them down,
and it is compared with the code over whole histories of calls. At each call the file may have
changed, may be malformed or may be missing.

The code is this store exactly on names without a `.`. A name with one is cut when the file is
stored and not when it is looked up, so the file just loaded cannot be found: a second
`Load` adds it again, `Unload` does nothing, and the getters that take the name fail.
-/

set_option autoImplicit false

namespace ServerTest.Configuration

open Lib

/-! ## The specification -/

/-- What is loaded, by file name. -/
abbrev Store := Bytes → Option Contents

namespace Store

def new : Store := fun _ => none

def load (store : Store) (filename : Bytes) (file : Option Bytes) : Status × Store :=
  match store filename with
  | some _ => (.OK, store)
  | none =>
    match Contents.ofFile file with
    | some contents => (.OK, Function.update store filename (some contents))
    | none => (.FAILED, store)

def unload (store : Store) (filename : Bytes) : Status × Store :=
  (.OK, Function.update store filename none)

def reload (store : Store) (filename : Bytes) (file : Option Bytes) : Status × Store :=
  (store.unload filename).2.load filename file

end Store

/-! ## Histories -/

/-- A call, with what opening the file yields at that moment. -/
inductive Call where
  | load (filename : Bytes) (file : Option Bytes)
  | unload (filename : Bytes)
  | reload (filename : Bytes) (file : Option Bytes)
  deriving DecidableEq, Repr

def Call.filename : Call → Bytes
  | .load filename _ | .unload filename | .reload filename _ => filename

def Config.step (config : Config) : Call → Status × Config
  | .load filename file => config.load filename file
  | .unload filename => config.unload filename
  | .reload filename file => config.reload filename file

def Store.step (store : Store) : Call → Status × Store
  | .load filename file => store.load filename file
  | .unload filename => store.unload filename
  | .reload filename file => store.reload filename file

def Config.run (calls : List Call) : Config :=
  calls.foldl (fun config call => (config.step call).2) .new

def Store.run (calls : List Call) : Store :=
  calls.foldl (fun store call => (store.step call).2) .new

/-- The last call that names the file. -/
def lastCall (filename : Bytes) (calls : List Call) : Option Call :=
  calls.reverse.find? (·.filename = filename)

/-! ## Lookups -/

/-- The getters `Config` has, each with one key and with four arguments. -/
inductive Getter where
  | string | bool | long | uInt | int | double | float
  deriving DecidableEq, Repr

namespace Getter

variable (model : DataModel) (real : FloatingPoint)

/-- The type of the output variable. -/
def Value : Getter → Type
  | .string => Bytes
  | .bool => Bool
  | .long | .uInt | .int => Int
  | .double => real.Double
  | .float => real.Float

def dotted : (g : Getter) → Config → Bytes → g.Value real → Status × g.Value real
  | .string => Config.getString
  | .bool => Config.getBool
  | .long => Config.getLong model
  | .uInt => Config.getUInt model
  | .int => Config.getInt model
  | .double => Config.getDouble real
  | .float => Config.getFloat real

def fourArgument :
    (g : Getter) → Config → Bytes → Bytes → g.Value real → Bytes → Status × g.Value real
  | .string => Config.getSectionString
  | .bool => Config.getSectionBool
  | .long => Config.getSectionLong model
  | .uInt => Config.getSectionUInt
  | .int => Config.getSectionInt model
  | .double => Config.getSectionDouble real
  | .float => Config.getSectionFloat real

/-- What the contents of a file have to say under a key. -/
def ofKey : (g : Getter) → Contents → Bytes → g.Value real → Status × g.Value real
  | .string => Contents.getString
  | .bool => Contents.getBoolean
  | .long => Contents.getLong model
  | .uInt => fun c key => Config.converted toUInt32 (c.getLong model key 0)
  | .int => fun c key => Config.converted toInt32 (c.getLong model key 0)
  | .double => Contents.getDouble real
  | .float => fun c key =>
      Config.converted real.toFloat (c.getDouble real key real.indeterminate)

/-- What the contents of a file have to say under a section and a name. -/
def ofSection : (g : Getter) → Contents → Bytes → Bytes → g.Value real → Status × g.Value real
  | .string => Contents.getSectionString
  | .bool => Contents.getSectionBoolean
  | .long => Contents.getSectionLong model
  | .uInt => fun c section_ name =>
      Config.converted toUInt32 (c.getSectionLong model section_ name 0)
  | .int => fun c section_ name =>
      Config.converted toInt32 (c.getSectionLong model section_ name 0)
  | .double => Contents.getSectionDouble real
  | .float => fun c section_ name =>
      Config.converted real.toFloat (c.getSectionDouble real section_ name real.indeterminate)

theorem dotted_eq (g : Getter) : g.dotted model real = Config.dotted (g.ofKey model real) := by
  cases g <;> rfl

theorem fourArgument_eq {g : Getter} (hg : g ≠ .uInt) :
    g.fourArgument model real = Config.inFile (g.ofSection model real) := by
  cases g with
  | uInt => exact absurd rfl hg
  | string | bool | long | int | double | float => rfl

end Getter

/-- Every lookup under a file name answers from `contents`: by `GetFile`, by the four-argument
getters in `getters`, and by the one-key getters with the stem of the name. -/
structure Answers (getters : Set Getter) (config : Config) (filename : Bytes)
    (contents : Contents) : Prop where
  getFile : ∃ file, config.getFile filename = some file ∧ file.toContents = contents
  fourArgument : ∀ model real, ∀ g ∈ getters, ∀ section_ key value,
    g.fourArgument model real config section_ key value filename =
      g.ofSection model real contents (cStr section_) (cStr key) value
  dotted : ∀ model real (g : Getter) subkey value,
    g.dotted model real config (ConfigFile.stem filename ++ [chr '.'] ++ subkey) value =
      g.ofKey model real contents (lower subkey) value

/-- Every lookup under a file name fails and leaves its output alone. -/
structure Fails (config : Config) (filename : Bytes) : Prop where
  getFile : config.getFile filename = none
  fourArgument : ∀ model real (g : Getter) section_ key value,
    g.fourArgument model real config section_ key value filename = (.FAILED, value)
  dotted : ∀ model real (g : Getter) subkey value,
    g.dotted model real config (ConfigFile.stem filename ++ [chr '.'] ++ subkey) value =
      (.FAILED, value)

/-- After these calls `Config` is the store: a name has one entry at most, every call reported what
the store reports, what the store has at a name is what every lookup answers from, and a name that
was unloaded is gone. -/
structure Keyed (getters : Set Getter) (calls : List Call) : Prop where
  unique : ∀ filename, (Config.run calls).configFilesList.countP (·.getFilename = filename) ≤ 1
  status : ∀ before call, before ++ [call] <+: calls →
    ((Config.run before).step call).1 = ((Store.run before).step call).1
  loaded : ∀ filename contents, Store.run calls filename = some contents →
    Answers getters (Config.run calls) filename contents
  unloaded : ∀ filename, lastCall filename calls = some (.unload filename) →
    Fails (Config.run calls) filename

/-! ## The specification, one name at a time -/

/-- A call changes nothing at another name. -/
theorem Store.step_of_ne (store : Store) {call : Call} {filename : Bytes}
    (hne : call.filename ≠ filename) : (store.step call).2 filename = store filename := by
  have hload : ∀ (store : Store) (name : Bytes) (file : Option Bytes), name ≠ filename →
      (store.load name file).2 filename = store filename := by
    intro store name file hname
    unfold Store.load
    split
    · rfl
    · split
      · exact Function.update_of_ne (Ne.symm hname) _ _
      · rfl
  cases call with
  | load name file => exact hload store name file hne
  | unload name => exact Function.update_of_ne (Ne.symm hne) _ _
  | reload name file =>
    exact (hload _ name file hne).trans (Function.update_of_ne (Ne.symm hne) _ _)

theorem Store.run_append (calls : List Call) (call : Call) :
    Store.run (calls ++ [call]) = ((Store.run calls).step call).2 := by
  simp [Store.run]

theorem Config.run_append (calls : List Call) (call : Call) :
    Config.run (calls ++ [call]) = ((Config.run calls).step call).2 := by
  simp [Config.run]

theorem lastCall_append (filename : Bytes) (calls : List Call) (call : Call) :
    lastCall filename (calls ++ [call]) =
      if call.filename = filename then some call else lastCall filename calls := by
  unfold lastCall
  rw [List.reverse_append, List.reverse_singleton, List.singleton_append, List.find?_cons]
  by_cases h : call.filename = filename <;> simp [h]

/-- Only a name that was called is loaded. -/
theorem Store.called_of_loaded {calls : List Call} {filename : Bytes} {contents : Contents}
    (h : Store.run calls filename = some contents) : ∃ call ∈ calls, call.filename = filename := by
  induction calls using List.reverseRecOn with
  | nil => cases h
  | append_singleton calls call ih =>
    by_cases hname : call.filename = filename
    · exact ⟨call, by simp, hname⟩
    · rw [Store.run_append, Store.step_of_ne _ hname] at h
      obtain ⟨earlier, hmem, hearlier⟩ := ih h
      exact ⟨earlier, List.mem_append_left _ hmem, hearlier⟩

theorem Store.run_of_unloaded {calls : List Call} {filename : Bytes}
    (h : lastCall filename calls = some (.unload filename)) :
    Store.run calls filename = none := by
  induction calls using List.reverseRecOn with
  | nil => rfl
  | append_singleton calls call ih =>
    rw [lastCall_append] at h
    rw [Store.run_append]
    by_cases hname : call.filename = filename
    · rw [if_pos hname] at h
      cases h
      exact Function.update_self _ _ _
    · rw [if_neg hname] at h
      rw [Store.step_of_ne _ hname]
      exact ih h

/-! ## Names without a dot -/

/-- The entry of a loaded file. -/
def entry (filename : Bytes) (contents : Contents) : ConfigFile :=
  { contents with filename := filename, error := 0 }

/-- The list is the store. -/
def Refines (config : Config) (store : Store) : Prop :=
  Represents ConfigFile.getFilename config.configFilesList
    fun filename => (store filename).map (entry filename)

theorem stem_of_noDot {filename : Bytes} (h : chr '.' ∉ filename) :
    ConfigFile.stem filename = filename := by
  unfold ConfigFile.stem
  rw [List.takeWhile_eq_self_iff]
  intro c hc
  exact decide_eq_true fun heq => h (heq ▸ hc)

/-- `LoadFile` on a fresh object succeeds exactly when the file has contents, and then they are the
entry's. -/
theorem loadFile_new (filename : Bytes) (file : Option Bytes) :
    (∃ contents, Contents.ofFile file = some contents ∧
      ConfigFile.new.loadFile filename file = (0, entry (ConfigFile.stem filename) contents)) ∨
    (Contents.ofFile file = none ∧ (ConfigFile.new.loadFile filename file).1 ≠ 0) := by
  unfold Contents.ofFile ConfigFile.loadFile
  rw [show ConfigFile.new.toContents = Contents.empty from rfl]
  cases hparse : iniParse Contents.valueHandler Contents.empty file with
  | mk error contents =>
    by_cases herror : error = 0
    · subst herror
      exact Or.inl ⟨contents, by simp, rfl⟩
    · exact Or.inr ⟨by simp [herror], herror⟩

section Refinement

variable {config : Config} {store : Store} {filename : Bytes}

theorem Refines.find (h : Refines config store) (filename : Bytes) :
    config.find filename = (store filename).map (entry filename) :=
  h.find_eq filename

theorem Refines.update {list : List ConfigFile} {contents : Option Contents}
    (h : Represents ConfigFile.getFilename list (Function.update
      (fun name => (store name).map (entry name)) filename (contents.map (entry filename)))) :
    Refines ⟨list⟩ (Function.update store filename contents) := by
  have heq := funext fun name =>
    Function.apply_update (fun name => Option.map (entry name)) store filename contents name
  unfold Refines
  rw [heq]
  exact h

theorem Refines.load (h : Refines config store) (hdot : chr '.' ∉ filename)
    (file : Option Bytes) :
    (config.load filename file).1 = (store.load filename file).1 ∧
    Refines (config.load filename file).2 (store.load filename file).2 := by
  unfold Config.load Store.load
  rw [h.find]
  cases hstore : store filename with
  | some contents => exact ⟨rfl, h⟩
  | none =>
    rcases loadFile_new filename file with ⟨contents, hfile, hload⟩ | ⟨hfile, hload⟩
    · rw [stem_of_noDot hdot] at hload
      have habsent : (store filename).map (entry filename) = none := by rw [hstore]; rfl
      simp only [Option.map_none, hfile, hload, if_true, true_and]
      exact Refines.update (Represents.append h (a := entry filename contents) habsent)
    · simp only [Option.map_none, hfile]
      rw [if_neg hload]
      exact ⟨rfl, h⟩

theorem Refines.unload (h : Refines config store) (filename : Bytes) :
    Refines (config.unload filename).2 (store.unload filename).2 :=
  Refines.update (Represents.drop h filename)

/-- One call: the code and the specification report the same, and agree again afterwards. -/
theorem Refines.step (h : Refines config store) {call : Call} (hdot : chr '.' ∉ call.filename) :
    (config.step call).1 = (store.step call).1 ∧
    Refines (config.step call).2 (store.step call).2 := by
  cases call with
  | load filename file => exact h.load hdot file
  | unload filename => exact ⟨rfl, h.unload filename⟩
  | reload filename file => exact (h.unload filename).load hdot file

end Refinement

/-- **`Config` implements the store** on names without a dot. -/
theorem run_refines {calls : List Call} (hdot : ∀ call ∈ calls, chr '.' ∉ call.filename) :
    Refines (Config.run calls) (Store.run calls) := by
  induction calls using List.reverseRecOn with
  | nil => exact Represents.nil
  | append_singleton calls call ih =>
    have hbefore := ih fun c hc => hdot c (List.mem_append_left _ hc)
    rw [Config.run_append, Store.run_append]
    exact (hbefore.step (hdot call (by simp))).2

/-! ## The store, through every lookup -/

/-- A key made of a file name and a rest is cut where they meet. -/
theorem splitKey_of_noDot {filename : Bytes} (hdot : chr '.' ∉ filename) (subkey : Bytes) :
    Config.splitKey (filename ++ [chr '.'] ++ subkey) = (filename, subkey) := by
  have hall : ∀ c ∈ filename, (decide (c ≠ chr '.')) = true := by
    intro c hc
    exact decide_eq_true fun heq => hdot (heq ▸ hc)
  unfold Config.splitKey
  rw [List.append_assoc, List.takeWhile_append_of_pos hall, List.dropWhile_append_of_pos hall]
  simp

section Lookups

variable {config : Config} {store : Store} {filename : Bytes}

theorem Refines.dotted (h : Refines config store) (hdot : chr '.' ∉ filename) (model : DataModel)
    (real : FloatingPoint) (g : Getter) (subkey : Bytes) (value : g.Value real) :
    g.dotted model real config (ConfigFile.stem filename ++ [chr '.'] ++ subkey) value =
      match store filename with
      | none => (.FAILED, value)
      | some contents => g.ofKey model real contents (lower subkey) value := by
  rw [Getter.dotted_eq, stem_of_noDot hdot]
  unfold Config.dotted
  rw [splitKey_of_noDot hdot, h.find]
  cases store filename <;> rfl

theorem Refines.fourArgument (h : Refines config store) (model : DataModel) (real : FloatingPoint)
    {g : Getter} (hg : g ≠ .uInt) (section_ key : Bytes) (value : g.Value real) :
    g.fourArgument model real config section_ key value filename =
      match store filename with
      | none => (.FAILED, value)
      | some contents => g.ofSection model real contents (cStr section_) (cStr key) value := by
  rw [Getter.fourArgument_eq model real hg]
  unfold Config.inFile
  rw [h.find]
  cases store filename <;> rfl

theorem Refines.answers (h : Refines config store) (hdot : chr '.' ∉ filename)
    {contents : Contents} (hloaded : store filename = some contents) {getters : Set Getter}
    (hg : .uInt ∉ getters) : Answers getters config filename contents where
  getFile := ⟨entry filename contents, (h.find filename).trans (by rw [hloaded]; rfl), rfl⟩
  fourArgument := by
    intro model real g hmem section_ key value
    have hne : g ≠ .uInt := fun heq => hg (heq ▸ hmem)
    rw [h.fourArgument model real hne, hloaded]
  dotted := by
    intro model real g subkey value
    rw [h.dotted hdot, hloaded]

theorem Refines.fails (h : Refines config store) (hdot : chr '.' ∉ filename)
    (hunloaded : store filename = none) : Fails config filename where
  getFile := (h.find filename).trans (by rw [hunloaded]; rfl)
  fourArgument := by
    intro model real g section_ key value
    by_cases hg : g = .uInt
    · subst hg
      rfl
    · rw [h.fourArgument model real hg, hunloaded]
  dotted := by
    intro model real g subkey value
    rw [h.dotted hdot, hunloaded]

end Lookups

/-- A history of names without a dot. -/
theorem keyed_of_noDot {getters : Set Getter} {calls : List Call}
    (hdot : ∀ call ∈ calls, chr '.' ∉ call.filename) (hg : calls ≠ [] → .uInt ∉ getters) :
    Keyed getters calls where
  unique := (run_refines hdot).countP_le_one
  status := by
    intro before call hprefix
    obtain ⟨after, rfl⟩ := hprefix
    have hbefore : Refines (Config.run before) (Store.run before) :=
      run_refines fun c hc => hdot c (by simp [hc])
    exact (hbefore.step (hdot call (by simp))).1
  loaded := by
    intro filename contents hloaded
    obtain ⟨call, hmem, rfl⟩ := Store.called_of_loaded hloaded
    exact (run_refines hdot).answers (hdot call hmem) hloaded (hg (List.ne_nil_of_mem hmem))
  unloaded := by
    intro filename hlast
    have hmem : Call.unload filename ∈ calls :=
      List.mem_reverse.mp (List.mem_of_find?_eq_some hlast)
    exact (run_refines hdot).fails (hdot _ hmem) (Store.run_of_unloaded hlast)

/-- Loading a file under a name with a dot makes it impossible to find. -/
theorem not_keyed_dot (getters : Set Getter) {filename : Bytes} (hdot : chr '.' ∈ filename) :
    ¬ Keyed getters [.load filename (some [])] := by
  intro h
  have hstem : ConfigFile.stem filename ≠ filename := by
    intro heq
    rw [ConfigFile.stem, List.takeWhile_eq_self_iff] at heq
    exact absurd (heq _ hdot) (by simp)
  obtain ⟨file, hfile, -⟩ := (h.loaded filename Contents.empty (Function.update_self _ _ _)).getFile
  have hnone : (Config.run [.load filename (some [])]).getFile filename = none := by
    show List.find? _ [entry (ConfigFile.stem filename) Contents.empty] = none
    simp [entry, ConfigFile.getFilename, hstem]
  rw [hnone] at hfile
  cases hfile

/-- A file with one number in it. -/
def numberFile : Bytes := ascii "[s]\nk=1\n"

/-- The four-argument `GetUInt` does not see it. -/
theorem not_keyed_uInt {getters : Set Getter} (hg : .uInt ∈ getters) (filename : Bytes) :
    ¬ Keyed getters [.load filename (some numberFile)] := by
  intro h
  have hnumber : (Contents.ofFile (some numberFile)).map
      (fun c => c.getSectionLong .LP64 (cStr (ascii "s")) (cStr (ascii "k")) 0) = some (.OK, 1) := by
    decide
  obtain ⟨contents, hcontents, hlong⟩ := Option.map_eq_some_iff.mp hnumber
  have hloaded : Store.run [.load filename (some numberFile)] filename = some contents := by
    show (Store.load Store.new filename (some numberFile)).2 filename = some contents
    simp [Store.load, Store.new, hcontents]
  let real : FloatingPoint := ⟨Unit, Unit, (), fun _ => none, id⟩
  have hstub := (h.loaded filename contents hloaded).fourArgument .LP64 real .uInt hg
    (ascii "s") (ascii "k") (0 : Int)
  have hfound : Getter.uInt.ofSection .LP64 real contents (cStr (ascii "s")) (cStr (ascii "k"))
      (0 : Int) = (.OK, (1 : Int)) := by
    show Config.converted toUInt32 (contents.getSectionLong .LP64 _ _ 0) (0 : Int) = _
    rw [hlong]
    rfl
  rw [hfound] at hstub
  cases hstub

/-- **`Config` is a store keyed by file name exactly on names without a dot**, and except for the
four-argument `GetUInt`: for any set of names, every history of calls on them keeps to the store if
and only if none of them has a `.` in it and that getter is not asked. -/
theorem keyed_iff (names : Set Bytes) (getters : Set Getter) :
    (∀ calls : List Call, (∀ call ∈ calls, call.filename ∈ names) → Keyed getters calls) ↔
      (∀ filename ∈ names, chr '.' ∉ filename) ∧ (names.Nonempty → .uInt ∉ getters) := by
  constructor
  · intro h
    constructor
    · intro filename hname hdot
      apply not_keyed_dot getters hdot
      apply h
      simpa [Call.filename] using hname
    · intro hsome hg
      obtain ⟨filename, hname⟩ := hsome
      apply not_keyed_uInt hg filename
      apply h
      simpa [Call.filename] using hname
  · intro hcond calls hcalls
    obtain ⟨hdot, hg⟩ := hcond
    apply keyed_of_noDot (fun call hcall => hdot _ (hcalls call hcall))
    intro hne
    obtain ⟨call, hcall⟩ := List.exists_mem_of_ne_nil calls hne
    exact hg ⟨_, hcalls call hcall⟩

/-- `Load("a.ini")` succeeds, and `GetFile("a.ini")` finds nothing. -/
theorem not_keyed_ini : ¬ ∀ calls : List Call, Keyed Set.univ calls := by
  intro h
  have hdot : chr '.' ∈ ascii "a.ini" := by decide
  exact not_keyed_dot Set.univ hdot (h _)

end ServerTest.Configuration
