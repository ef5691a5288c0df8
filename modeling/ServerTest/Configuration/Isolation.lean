import ServerTest.Configuration.Store

/-!
# What an operation does to the other files

`Load`, `Unload` and `Reload` each name one file, and the list they work on holds all of them. The
store of `Configuration.Store` says what they do to names without a dot; here the list is arbitrary,
with duplicates and names of any kind, and so is the file.

A lookup takes the first entry of its name, so everything about the other files follows from one
fact, `entriesNamed_step`: the entries of another name stay, all of them and in their order. Two
names can be meant by one call, the name it was given and the part before the first `.`, which is
what a loaded file is stored under.

What a call does to its *own* file is another matter. `Load` takes back what it has added when the
parse fails. `Reload` has unloaded the file before it knows.
-/

set_option autoImplicit false

namespace ServerTest.Configuration

open Lib

namespace Config

/-- The entries under a name, in the order of the list. -/
def entriesNamed (config : Config) (filename : Bytes) : List ConfigFile :=
  config.configFilesList.filter (·.getFilename = filename)

theorem find_eq_head? (config : Config) (filename : Bytes) :
    config.find filename = (config.entriesNamed filename).head? :=
  List.head?_filter.symm

variable {config : Config} {filename other : Bytes} {file : Option Bytes}

/-! ## One operation -/

/-- What `Load` can do: nothing, or one entry more under the stem of the name. -/
theorem load_cases (config : Config) (filename : Bytes) (file : Option Bytes) :
    (config.load filename file).2 = config ∨
      ((config.load filename file).1 = .OK ∧ ∃ contents, (config.load filename file).2 =
        ⟨config.configFilesList ++ [entry (ConfigFile.stem filename) contents]⟩) := by
  unfold load
  split
  · exact Or.inl rfl
  · rcases loadFile_new filename file with ⟨contents, -, hload⟩ | ⟨-, hload⟩
    · rw [hload]
      exact Or.inr ⟨rfl, contents, rfl⟩
    · simp only [if_neg hload, true_or]

theorem entriesNamed_load (hstem : other ≠ ConfigFile.stem filename) :
    (config.load filename file).2.entriesNamed other = config.entriesNamed other := by
  rcases load_cases config filename file with hsame | ⟨-, contents, hmore⟩
  · rw [hsame]
  · have hnot : ¬ (entry (ConfigFile.stem filename) contents).getFilename = other :=
      fun h => hstem h.symm
    rw [hmore, entriesNamed, List.filter_append, List.filter_singleton, decide_eq_false hnot]
    exact List.append_nil _

theorem entriesNamed_unload (hne : other ≠ filename) :
    (config.unload filename).2.entriesNamed other = config.entriesNamed other := by
  unfold unload entriesNamed
  rw [List.filter_filter]
  congr 1
  funext f
  by_cases hf : f.getFilename = other
  · simp [hf, hne]
  · simp [hf]

/-- **The frame of a call**: the entries of every name it does not mean. -/
theorem entriesNamed_step (call : Call) (hne : other ≠ call.filename)
    (hstem : other ≠ ConfigFile.stem call.filename) :
    (config.step call).2.entriesNamed other = config.entriesNamed other := by
  cases call with
  | load filename file => exact entriesNamed_load hstem
  | unload filename => exact entriesNamed_unload hne
  | reload filename file => exact (entriesNamed_load hstem).trans (entriesNamed_unload hne)

/-! ## The lookups -/

/-- A lookup sees the list through `Find`, and only at its own file. -/
theorem dotted_congr {config' : Config} (model : DataModel) (real : FloatingPoint) (g : Getter)
    {key : Bytes} (h : config.find (splitKey key).1 = config'.find (splitKey key).1)
    (value : g.Value real) :
    g.dotted model real config key value = g.dotted model real config' key value := by
  rw [Getter.dotted_eq]
  unfold Config.dotted
  rw [h]

theorem fourArgument_congr {config' : Config} (model : DataModel) (real : FloatingPoint)
    (g : Getter) (h : config.find filename = config'.find filename) (section_ key : Bytes)
    (value : g.Value real) :
    g.fourArgument model real config section_ key value filename =
      g.fourArgument model real config' section_ key value filename := by
  by_cases hg : g = .uInt
  · subst hg
    rfl
  · rw [Getter.fourArgument_eq model real hg]
    unfold inFile
    rw [h]

/-- **A call on one file does not disturb the others.** A `Load` that fails changes nothing at all;
and under any name that is neither the one given nor its stem the entries stay as they are, and
every lookup answers what it answered before. -/
theorem others_undisturbed (config : Config) (call : Call) :
    (∀ filename file, call = .load filename file → (config.step call).1 = .FAILED →
        (config.step call).2 = config) ∧
      ∀ other, other ≠ call.filename → other ≠ ConfigFile.stem call.filename →
        (config.step call).2.entriesNamed other = config.entriesNamed other ∧
        (∀ model real (g : Getter) key value, (splitKey key).1 = other →
          g.dotted model real (config.step call).2 key value =
            g.dotted model real config key value) ∧
        ∀ model real (g : Getter) section_ key value,
          g.fourArgument model real (config.step call).2 section_ key value other =
            g.fourArgument model real config section_ key value other := by
  constructor
  · intro filename file hcall hfailed
    subst hcall
    rcases load_cases config filename file with hsame | ⟨hok, -⟩
    · exact hsame
    · have hfailed : (config.load filename file).1 = .FAILED := hfailed
      rw [hok] at hfailed
      cases hfailed
  · intro other hne hstem
    have hentries : (config.step call).2.entriesNamed other = config.entriesNamed other :=
      entriesNamed_step call hne hstem
    have hfind : (config.step call).2.find other = config.find other := by
      rw [find_eq_head?, find_eq_head?, hentries]
    refine ⟨hentries, ?_, ?_⟩
    · intro model real g key value hkey
      subst hkey
      exact dotted_congr model real g hfind value
    · intro model real g section_ key value
      exact fourArgument_congr model real g hfind section_ key value

/-- Two files, of which one is unloaded. -/
def twoFiles : Config := ⟨[entry (ascii "a") .empty, entry (ascii "b") .empty]⟩

theorem others_undisturbed_unload :
    (twoFiles.step (.unload (ascii "a"))).2.entriesNamed (ascii "b") =
      [entry (ascii "b") .empty] :=
  ((others_undisturbed twoFiles (.unload (ascii "a"))).2 (ascii "b") (by decide)
    (by decide)).1.trans rfl

/-! ## A reload that fails -/

/-- If `Reload` fails, the list is what it was. -/
def ReloadAtomic (config : Config) (filename : Bytes) (file : Option Bytes) : Prop :=
  (config.reload filename file).1 = .FAILED → (config.reload filename file).2 = config

theorem find_unload (config : Config) (filename : Bytes) :
    (config.unload filename).2.find filename = none := by
  unfold unload find
  rw [List.find?_filter, List.find?_eq_none]
  simp

/-- `Unload` does nothing exactly when there is nothing under the name. -/
theorem unload_eq_self_iff : (config.unload filename).2 = config ↔ config.find filename = none := by
  obtain ⟨files⟩ := config
  unfold unload find
  rw [List.find?_eq_none, Config.mk.injEq, List.filter_eq_self]
  simp

/-- `Reload` fails exactly when the file cannot be read, and it has unloaded the old one by then. -/
theorem reload_cases (config : Config) (filename : Bytes) (file : Option Bytes) :
    (Contents.ofFile file ≠ none ∧ (config.reload filename file).1 = .OK) ∨
      (Contents.ofFile file = none ∧
        config.reload filename file = (.FAILED, (config.unload filename).2)) := by
  have hreload : config.reload filename file = (config.unload filename).2.load filename file := rfl
  rw [hreload, load, find_unload]
  rcases loadFile_new filename file with ⟨contents, hfile, hload⟩ | ⟨hfile, hload⟩
  · rw [hload]
    exact Or.inl ⟨by simp [hfile], rfl⟩
  · exact Or.inr ⟨hfile, if_neg hload⟩

/-- **When a failed reload leaves the configuration as it was**: exactly when there was nothing under
the name to lose, or the reload does not fail because the file opens and parses. -/
theorem reload_atomic_iff (config : Config) (filename : Bytes) (file : Option Bytes) :
    ReloadAtomic config filename file ↔
      config.find filename = none ∨ Contents.ofFile file ≠ none := by
  unfold ReloadAtomic
  rcases reload_cases config filename file with ⟨hfile, hok⟩ | ⟨hfile, hfailed⟩
  · rw [hok]
    exact iff_of_true (fun h => by cases h) (Or.inr hfile)
  · rw [hfailed, ← unload_eq_self_iff]
    constructor
    · intro h
      exact Or.inl (h rfl)
    · intro h _
      exact h.resolve_right (not_not.mpr hfile)

/-- The file `a` was loaded and has been deleted since: `Reload("a")` fails, and `a` is gone. -/
theorem not_reload_atomic_missing :
    ¬ ∀ (config : Config) (filename : Bytes) (file : Option Bytes),
      ReloadAtomic config filename file := by
  intro h
  have hkept := h twoFiles (ascii "a") none (by decide)
  have hlength := congrArg (fun config => config.configFilesList.length) hkept
  exact absurd hlength (by decide)

end Config

end ServerTest.Configuration
