import ServerTest.Configuration.ConfigFile

/-!
# What a parse leaves in a `ConfigFile`

Whatever the text was, a parse is a sequence of calls of `ValueHandler`, each with a section, a name
and a value. So what a `ConfigFile` holds is a function of that sequence (`handleAll`), and this
module says which one, for every sequence there can be.

Everything rests on one equation, `lookup_handleAll`: under a key stand the values of the calls
with that key, joined by newlines. The other two indexes are sets, and what is in them is a
membership in the sequence.

A key is `section.name` in lower case, and that is all a lookup sees of the two. Two settings whose
keys meet are one setting to it, although the index of fields keeps them apart; `independent_iff`
says which settings that can happen to.
-/

set_option autoImplicit false

namespace ServerTest.Configuration

open Lib

/-! ## Sequences of calls -/

/-- The arguments of a call of `ValueHandler`. -/
structure HandlerCall where
  section_ : Bytes
  name : Bytes
  value : Bytes
  deriving DecidableEq, Repr

namespace HandlerCall

def key (call : HandlerCall) : Bytes := Contents.makeKey call.section_ call.name

/-- The call is about this section and this name, ignoring case. -/
def IsAbout (section_ name : Bytes) (call : HandlerCall) : Prop :=
  lower call.section_ = lower section_ ∧ lower call.name = lower name

instance (section_ name : Bytes) (call : HandlerCall) : Decidable (call.IsAbout section_ name) :=
  inferInstanceAs (Decidable (_ ∧ _))

end HandlerCall

/-- `Values[key]` after one more value. -/
def appendValue (old value : Bytes) : Bytes :=
  (if old.length > 0 then old ++ [chr '\n'] else old) ++ value

/-- The values of calls with one key, as they end up in the index. -/
def joined (values : List Bytes) : Bytes := values.foldl appendValue []

/-- The values of the calls with this key. -/
def valuesUnder (key : Bytes) (calls : List HandlerCall) : List Bytes :=
  (calls.filter (·.key = key)).map (·.value)

namespace Contents

def handle (reader : Contents) (call : HandlerCall) : Contents :=
  (valueHandler reader call.section_ call.name call.value).2

/-- A fresh object after these calls. -/
def handleAll (calls : List HandlerCall) : Contents := calls.foldl handle empty

/-! ## The three indexes -/

theorem handleAll_append (calls : List HandlerCall) (call : HandlerCall) :
    handleAll (calls ++ [call]) = (handleAll calls).handle call := by
  simp [handleAll]

theorem lookup_handle (reader : Contents) (call : HandlerCall) (key : Bytes) :
    (reader.handle call).values.lookup key =
      if call.key = key then some (appendValue ((reader.values.lookup key).getD []) call.value)
      else reader.values.lookup key := by
  by_cases h : call.key = key
  · subst h
    rw [if_pos rfl]
    exact AList.lookup_insert _
  · rw [if_neg h]
    exact AList.lookup_insert_ne (Ne.symm h)

theorem valuesUnder_append (key : Bytes) (calls : List HandlerCall) (call : HandlerCall) :
    valuesUnder key (calls ++ [call]) =
      if call.key = key then valuesUnder key calls ++ [call.value] else valuesUnder key calls := by
  unfold valuesUnder
  by_cases h : call.key = key
  · simp [h]
  · simp [h]

/-- **The values index.** Under a key stand the values handled with it, joined; and nothing if there
are none. -/
theorem lookup_handleAll (calls : List HandlerCall) (key : Bytes) :
    (handleAll calls).values.lookup key =
      if valuesUnder key calls = [] then none else some (joined (valuesUnder key calls)) := by
  induction calls using List.reverseRecOn with
  | nil => rfl
  | append_singleton calls call ih =>
    rw [handleAll_append, lookup_handle, valuesUnder_append, ih]
    by_cases hkey : call.key = key
    · rw [if_pos hkey, if_pos hkey]
      have hold : (if valuesUnder key calls = [] then none
          else some (joined (valuesUnder key calls))).getD [] = joined (valuesUnder key calls) := by
        split
        · rename_i hnone
          rw [hnone]
          rfl
        · rfl
      rw [hold, if_neg (by simp)]
      simp [joined]
    · rw [if_neg hkey, if_neg hkey]

theorem mem_sections_handleAll (calls : List HandlerCall) (section_ : Bytes) :
    section_ ∈ (handleAll calls).sections ↔ ∃ call ∈ calls, call.section_ = section_ := by
  induction calls using List.reverseRecOn with
  | nil => simp [handleAll, empty]
  | append_singleton calls call ih =>
    have hinsert : (handleAll (calls ++ [call])).sections =
        insert call.section_ (handleAll calls).sections := by
      rw [handleAll_append]
      rfl
    rw [hinsert, Finset.mem_insert, ih]
    simp only [List.mem_append, List.mem_singleton]
    constructor
    · intro h
      rcases h with rfl | ⟨c, hc, rfl⟩
      · exact ⟨call, Or.inr rfl, rfl⟩
      · exact ⟨c, Or.inl hc, rfl⟩
    · intro h
      obtain ⟨c, hc | rfl, rfl⟩ := h
      · exact Or.inr ⟨c, hc, rfl⟩
      · exact Or.inl rfl

/-- One more call, for the index of fields. -/
theorem getFields_handle (reader : Contents) (call : HandlerCall) (section_ : Bytes) :
    (reader.handle call).getFields section_ =
      if lower call.section_ = lower section_ then insert call.name (reader.getFields section_)
      else reader.getFields section_ := by
  have hfields : (reader.handle call).fields = reader.fields.insert (lower call.section_)
      (insert call.name ((reader.fields.lookup (lower call.section_)).getD ∅)) := rfl
  unfold getFields
  rw [hfields]
  by_cases h : lower call.section_ = lower section_
  · rw [if_pos h, h, AList.lookup_insert]
    rfl
  · rw [if_neg h, AList.lookup_insert_ne (Ne.symm h)]

/-- **The index of fields**: the names handled in this section, each as it was written. -/
theorem mem_getFields_handleAll (calls : List HandlerCall) (section_ name : Bytes) :
    name ∈ (handleAll calls).getFields section_ ↔
      ∃ call ∈ calls, lower call.section_ = lower section_ ∧ call.name = name := by
  induction calls using List.reverseRecOn with
  | nil => simp [handleAll, empty, getFields]
  | append_singleton calls call ih =>
    rw [handleAll_append, getFields_handle]
    simp only [List.mem_append, List.mem_singleton]
    by_cases h : lower call.section_ = lower section_
    · rw [if_pos h, Finset.mem_insert, ih]
      constructor
      · intro hname
        rcases hname with rfl | ⟨c, hc, hsame⟩
        · exact ⟨call, Or.inr rfl, h, rfl⟩
        · exact ⟨c, Or.inl hc, hsame⟩
      · intro hname
        obtain ⟨c, hc | rfl, hsame⟩ := hname
        · exact Or.inr ⟨c, hc, hsame⟩
        · exact Or.inl hsame.2.symm
    · rw [if_neg h, ih]
      constructor
      · intro hname
        obtain ⟨c, hc, hsame⟩ := hname
        exact ⟨c, Or.inl hc, hsame⟩
      · intro hname
        obtain ⟨c, hc | rfl, hsame⟩ := hname
        · exact ⟨c, hc, hsame⟩
        · exact absurd hsame.1 h

/-! ## Coherence -/

theorem valuesUnder_ne_nil {key : Bytes} {calls : List HandlerCall} :
    valuesUnder key calls ≠ [] ↔ ∃ call ∈ calls, call.key = key := by
  unfold valuesUnder
  rw [ne_eq, List.map_eq_nil_iff, List.filter_eq_nil_iff]
  simp

/-- A lookup after these calls, in one equation. -/
theorem getSectionString_handleAll (calls : List HandlerCall) (section_ name output : Bytes) :
    (handleAll calls).getSectionString section_ name output =
      if valuesUnder (makeKey section_ name) calls = [] then (.FAILED, output)
      else (.OK, joined (valuesUnder (makeKey section_ name) calls)) := by
  unfold getSectionString getString
  rw [lookup_handleAll]
  split
  · rename_i value hvalue
    split at hvalue
    · cases hvalue
    · rename_i hsome
      rw [if_neg hsome]
      cases hvalue
      rfl
  · rename_i hvalue
    split at hvalue
    · rename_i hnone
      rw [if_pos hnone]
    · cases hvalue

theorem getSectionString_ok_iff (calls : List HandlerCall) (section_ name output : Bytes) :
    ((handleAll calls).getSectionString section_ name output).1 = .OK ↔
      ∃ call ∈ calls, call.key = makeKey section_ name := by
  rw [getSectionString_handleAll, ← valuesUnder_ne_nil]
  by_cases h : valuesUnder (makeKey section_ name) calls = []
  · simp [h]
  · simp [h]

theorem makeKey_eq (section_ name : Bytes) :
    makeKey section_ name = lower section_ ++ chr '.' :: lower name := by
  simp [makeKey, lower, show tolower (chr '.') = chr '.' from rfl]

/-- **The three indexes agree after every sequence of calls.** A value is found exactly if one was
handled under its key; every field listed has a value; every key of a value comes from a section and
a field listed; and the fields are listed by section ignoring case, in their own case. -/
theorem indexes_coherent (calls : List HandlerCall) :
    (∀ section_ name output,
        ((handleAll calls).getSectionString section_ name output).1 = .OK ↔
          ∃ call ∈ calls, lower (call.section_ ++ [chr '.'] ++ call.name) =
            lower (section_ ++ [chr '.'] ++ name)) ∧
      (∀ section_, ∀ name ∈ (handleAll calls).getFields section_, ∀ output,
        ((handleAll calls).getSectionString section_ name output).1 = .OK) ∧
      (∀ key ∈ (handleAll calls).values, ∃ section_ ∈ (handleAll calls).sections,
        ∃ name ∈ (handleAll calls).getFields section_,
          key = lower (section_ ++ [chr '.'] ++ name)) ∧
      (∀ section_ other, lower section_ = lower other →
        (handleAll calls).getFields section_ = (handleAll calls).getFields other) ∧
      ∀ section_ name, name ∈ (handleAll calls).getFields section_ ↔
        ∃ call ∈ calls, lower call.section_ = lower section_ ∧ call.name = name := by
  refine ⟨?_, ?_, ?_, ?_, mem_getFields_handleAll calls⟩
  · intro section_ name output
    exact getSectionString_ok_iff calls section_ name output
  · intro section_ name hname output
    obtain ⟨call, hcall, hsection, rfl⟩ := (mem_getFields_handleAll calls section_ name).mp hname
    rw [getSectionString_ok_iff]
    refine ⟨call, hcall, ?_⟩
    rw [HandlerCall.key, makeKey_eq, makeKey_eq, hsection]
  · intro key hkey
    rw [← AList.lookup_isSome, lookup_handleAll] at hkey
    have hsome : valuesUnder key calls ≠ [] := by
      intro hnone
      simp [hnone] at hkey
    obtain ⟨call, hcall, rfl⟩ := valuesUnder_ne_nil.mp hsome
    refine ⟨call.section_, (mem_sections_handleAll calls _).mpr ⟨call, hcall, rfl⟩, call.name, ?_,
      rfl⟩
    exact (mem_getFields_handleAll calls _ _).mpr ⟨call, hcall, rfl, rfl⟩
  · intro section_ other hsame
    unfold getFields
    rw [hsame]

/-! ## Independence

Which calls a lookup sees, against which calls are about what was asked for. -/

/-- What is found for this section and name depends on the calls about them and on no others. -/
def Independent (section_ name : Bytes) : Prop :=
  ∀ calls others : List HandlerCall,
    calls.filter (·.IsAbout section_ name) = others.filter (·.IsAbout section_ name) →
      ∀ output, (handleAll calls).getSectionString section_ name output =
        (handleAll others).getSectionString section_ name output

theorem tolower_eq_dot {c : UInt8} : tolower c = chr '.' ↔ c = chr '.' := by
  revert c
  apply forall_byte
  decide +kernel

theorem dot_mem_lower {s : Bytes} : chr '.' ∈ lower s ↔ chr '.' ∈ s := by
  simp only [lower, List.mem_map, tolower_eq_dot, exists_eq_right]

/-- Without a dot in either, the key says both what the section and what the name is. -/
theorem key_eq_iff {section_ name : Bytes} (hsection : chr '.' ∉ section_) (hname : chr '.' ∉ name)
    (call : HandlerCall) :
    call.key = makeKey section_ name ↔ call.IsAbout section_ name := by
  rw [HandlerCall.key, makeKey_eq, makeKey_eq, eq_comm,
    List.append_cons_inj_of_notMem (mt dot_mem_lower.mp hsection) (mt dot_mem_lower.mp hname)]
  constructor
  · intro h
    exact ⟨h.1.symm, h.2.2.symm⟩
  · intro h
    exact ⟨h.1.symm, rfl, h.2.symm⟩

/-- A setting of another section or name under the same key. -/
theorem not_independent_of_key {section_ name : Bytes} (call : HandlerCall)
    (hkey : call.key = makeKey section_ name) (hother : ¬ call.IsAbout section_ name) :
    ¬ Independent section_ name := by
  intro h
  have hsame := congrArg Prod.fst (h [] [call] (by simp [hother]) [])
  have hfound := (getSectionString_ok_iff [call] section_ name []).mpr ⟨call, by simp, hkey⟩
  rw [← hsame] at hfound
  cases hfound

/-- A dot in the section: the part behind it can be read as the start of the name. -/
theorem not_independent_of_section {section_ name : Bytes} (h : chr '.' ∈ section_) :
    ¬ Independent section_ name := by
  obtain ⟨front, back, rfl⟩ := List.append_of_mem h
  refine not_independent_of_key ⟨front, back ++ chr '.' :: name, []⟩ ?_ ?_
  · rw [HandlerCall.key, makeKey, makeKey]
    simp
  · intro habout
    have hlength := congrArg List.length habout.1
    simp [lower] at hlength

/-- A dot in the name: the part before it can be read as the end of the section. -/
theorem not_independent_of_name {section_ name : Bytes} (h : chr '.' ∈ name) :
    ¬ Independent section_ name := by
  obtain ⟨front, back, rfl⟩ := List.append_of_mem h
  refine not_independent_of_key ⟨section_ ++ chr '.' :: front, back, []⟩ ?_ ?_
  · rw [HandlerCall.key, makeKey, makeKey]
    simp
  · intro habout
    have hlength := congrArg List.length habout.1
    simp [lower] at hlength

/-- **Which settings are independent of all others**: exactly those with no dot in the section or the
name. -/
theorem independent_iff (section_ name : Bytes) :
    Independent section_ name ↔ chr '.' ∉ section_ ∧ chr '.' ∉ name := by
  constructor
  · intro h
    exact ⟨fun hdot => not_independent_of_section hdot h, fun hdot => not_independent_of_name hdot h⟩
  · intro hdots calls others hsame output
    have hseen : ∀ calls : List HandlerCall, valuesUnder (makeKey section_ name) calls =
        (calls.filter (·.IsAbout section_ name)).map (·.value) := by
      intro calls
      unfold valuesUnder
      simp only [key_eq_iff hdots.1 hdots.2]
    rw [getSectionString_handleAll, getSectionString_handleAll, hseen, hseen, hsame]

/-- `[a.b]` with `c=1` in it: `GetString("a", "b.c")` finds the `1`. -/
theorem not_independent_dotted : ¬ ∀ section_ name, Independent section_ name := by
  intro h
  have hdot : chr '.' ∈ ascii "b.c" := by decide
  exact not_independent_of_name hdot (h (ascii "a") (ascii "b.c"))

end Contents

end ServerTest.Configuration
