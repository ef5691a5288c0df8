import Mathlib.Data.List.Chain
import ServerTest.Lib.Decimal
import ServerTest.Configuration.Handled

/-!
# A file is read back as it was written

`Entry` and `Section` are what one writes down in a `.ini` file, with the conditions under which the
parser can tell the parts of a line from each other as fields. `render` writes them; the parser,
given that text, calls `ValueHandler` once for each line of each entry and nothing else
(`parse_lines`), and what the calls leave in the indexes is known from `lookup_handleAll`.

The parser keeps two things from line to line, the section and the name a continuation belongs to.
`Reading` says what they are and which calls have been made, and each kind of line has one lemma
that moves it on. A line that starts with a byte order mark is special on the first line of the
file only, and there a section stands.
-/

set_option autoImplicit false

namespace ServerTest.Configuration

open Lib

/-! ## What is written -/

/-- No line end, no terminator, and nothing that starts a comment. -/
structure Plain (s : Bytes) : Prop where
  newline : chr '\n' ∉ s
  nul : 0 ∉ s
  comment : s.IsChain fun a b => ¬ (isspace a = true ∧ b = chr ';')

/-- No white space at either end. -/
structure Trimmed (s : Bytes) : Prop where
  first : s.head?.any isspace = false
  last : s.getLast?.any isspace = false

/-- A name with the lines of its value. -/
structure Entry where
  name : Bytes
  first : Bytes
  continuation : List Bytes
  name_length : 0 < name.length ∧ name.length ≤ 49
  name_head : name.head? ∉ [some (chr '['), some (chr ';'), some (chr '#')]
  name_equals : chr '=' ∉ name
  name_plain : Plain name
  name_trimmed : Trimmed name
  first_plain : Plain first
  first_trimmed : Trimmed first
  continuation_ne_nil : ∀ line ∈ continuation, line ≠ []
  continuation_head : ∀ line ∈ continuation, line.head? ∉ [some (chr ';'), some (chr '#')]
  continuation_plain : ∀ line ∈ continuation, Plain line
  continuation_trimmed : ∀ line ∈ continuation, Trimmed line

/-- The lines of an entry, without their line ends. -/
def Entry.lines (e : Entry) : List Bytes :=
  (e.name ++ [chr '='] ++ e.first) :: e.continuation.map ([chr ' '] ++ ·)

/-- A heading with the entries under it. -/
structure Section where
  name : Bytes
  entries : List Entry
  name_length : name.length ≤ 49
  name_bracket : chr ']' ∉ name
  name_plain : Plain name

def Section.lines (s : Section) : List Bytes :=
  ([chr '['] ++ s.name ++ [chr ']']) :: s.entries.flatMap Entry.lines

def lines (sections : List Section) : List Bytes := sections.flatMap Section.lines

/-- The text of a file. -/
def render (sections : List Section) : Bytes := (lines sections).flatMap (· ++ [chr '\n'])

/-- The settings of a file, each with its section. -/
def settings (sections : List Section) : List (Bytes × Entry) :=
  sections.flatMap fun s => s.entries.map fun e => (s.name, e)

/-- The value of an entry: its lines, with a newline between them. An empty first line contributes
nothing. -/
def Entry.text (e : Entry) : Bytes :=
  [chr '\n'].intercalate (if e.first = [] then e.continuation else e.first :: e.continuation)

/-- The calls of `ValueHandler` for one setting. -/
def callsOf (setting : Bytes × Entry) : List HandlerCall :=
  (setting.2.first :: setting.2.continuation).map fun line => ⟨setting.1, setting.2.name, line⟩

/-! ## Reading lines -/

/-- `fgets` returns the lines one after another if they fit its buffer. -/
theorem fgetsLines_of_lines {size : Nat} :
    ∀ {ls : List Bytes}, (∀ line ∈ ls, chr '\n' ∉ line ∧ line.length + 1 < size) →
      fgetsLines size [] (ls.flatMap (· ++ [chr '\n'])) = ls.map (· ++ [chr '\n'])
  | [], _ => rfl
  | line :: ls, h => by
    obtain ⟨⟨hnewline, hlength⟩, hrest⟩ := List.forall_mem_cons.mp h
    -- The current call has read `before`; what is left of the line still fits.
    have hread : ∀ (s before file : Bytes), chr '\n' ∉ s → before.length + s.length + 1 < size →
        fgetsLines size before (s ++ chr '\n' :: file) =
          (before ++ s ++ [chr '\n']) :: fgetsLines size [] file := by
      intro s
      induction s with
      | nil =>
        intro before file _ _
        simp [fgetsLines]
      | cons c s ih =>
        intro before file hnew hlen
        rw [List.mem_cons, not_or] at hnew
        have hgo : ¬ ((c = chr '\n' || (before ++ [c]).length + 1 = size) = true) := by
          have hfit : (before ++ [c]).length + 1 ≠ size := by
            simp only [List.length_append, List.length_cons, List.length_nil] at hlen ⊢
            omega
          simp [Ne.symm hnew.1]
          simpa using hfit
        rw [List.cons_append, fgetsLines, if_neg hgo, ih _ _ hnew.2 ?_]
        · simp
        · simp only [List.length_append, List.length_cons, List.length_nil] at hlen ⊢
          omega
    have hline := hread line [] (ls.flatMap (· ++ [chr '\n'])) hnewline (by simpa using hlength)
    rw [List.flatMap_cons, List.append_assoc, List.singleton_append, hline,
      fgetsLines_of_lines hrest]
    rfl

theorem lskip_of_head {s : Bytes} (h : s.head?.any isspace = false) : lskip s = s := by
  unfold lskip
  cases s with
  | nil => rfl
  | cons c s => rw [List.dropWhile_cons_of_neg (by simpa using h)]

theorem rstrip_of_last {s : Bytes} (h : s.getLast?.any isspace = false) : rstrip s = s := by
  unfold rstrip
  induction s using List.reverseRecOn with
  | nil => rfl
  | append_singleton s c _ => rw [List.rdropWhile_concat_neg _ _ _ (by simpa using h)]

theorem rstrip_newline {s : Bytes} (h : s.getLast?.any isspace = false) :
    rstrip (s ++ [chr '\n']) = s := by
  rw [rstrip, List.rdropWhile_concat_pos _ _ _ (by rfl)]
  exact rstrip_of_last h

/-- Where there is no comment and the character looked for does not occur, everything is skipped. -/
theorem findCharOrComment_of_plain {c : UInt8} {rest : Bytes} (hrest : rest = [] ∨ rest.head? = some c) :
    ∀ {s : Bytes} (wasWhitespace : Bool), c ∉ s →
      (s.IsChain fun a b => ¬ (isspace a = true ∧ b = chr ';')) →
      (wasWhitespace = true → s.head? ≠ some (chr ';')) →
      findCharOrComment c wasWhitespace (s ++ rest) = (s, rest)
  | [], wasWhitespace, _, _, _ => by
    rcases hrest with rfl | hhead
    · rfl
    · obtain ⟨tail, rfl⟩ := List.head?_eq_some_iff.mp hhead
      simp [findCharOrComment]
  | b :: s, wasWhitespace, hmem, hchain, hhead => by
    rw [List.mem_cons, not_or] at hmem
    have hgo : ¬ ((b = c || (wasWhitespace && b = chr ';')) = true) := by
      simp only [Bool.or_eq_true, Bool.and_eq_true, decide_eq_true_eq, not_or, not_and]
      exact ⟨Ne.symm hmem.1, fun hblank heq => hhead hblank (by rw [heq, List.head?_cons])⟩
    have hnext : isspace b = true → s.head? ≠ some (chr ';') := by
      intro hblank hsemi
      obtain ⟨tail, rfl⟩ := List.head?_eq_some_iff.mp hsemi
      exact (List.isChain_cons_cons.mp hchain).1 ⟨hblank, rfl⟩
    rw [List.cons_append, findCharOrComment, if_neg hgo,
      findCharOrComment_of_plain hrest _ hmem.2 hchain.tail hnext]

/-! ## The state between lines -/

/-- In section `section_`, after an entry `name`, with these calls made and no error. -/
structure Reading (section_ name : Bytes) (calls : List HandlerCall) (st : IniState Contents) :
    Prop where
  section_eq : st.section_ = section_
  prevName : st.prevName = name
  lineno : st.lineno ≠ 0
  error : st.error = 0
  user : st.user = Contents.handleAll calls

/-- What `parseLine` has of a line: the line end is gone, and there is no byte order mark. -/
theorem parseLine_eq (st : IniState Contents) {line : Bytes} (hnul : 0 ∉ line)
    (hlast : line.getLast?.any isspace = false)
    (hbom : st.lineno ≠ 0 ∨ line.head? = some (chr '[')) {c : UInt8} {rest : Bytes}
    (hskip : lskip line = c :: rest) :
    st.parseLine Contents.valueHandler (line ++ [chr '\n']) =
      let st := { st with lineno := st.lineno + 1 }
      if c = chr ';' || c = chr '#' then st
      else if st.prevName ≠ [] && (c :: rest).length < line.length then
        st.handle Contents.valueHandler st.prevName (c :: rest)
      else if c = chr '[' then st.parseSection rest
      else st.parsePair Contents.valueHandler (c :: rest) := by
  have hclean : cStr (line ++ [chr '\n']) = line ++ [chr '\n'] := by
    apply cStr_of_ne_zero
    intro b hb heq
    subst heq
    rcases List.mem_append.mp hb with hb | hb
    · exact hnul hb
    · exact absurd (List.mem_singleton.mp hb) (by decide)
  have hnone : (st.lineno + 1 = 1 && (line ++ [chr '\n']).take 3 = [0xEF, 0xBB, 0xBF]) = false := by
    rcases hbom with hlineno | hhead
    · simp [hlineno]
    · obtain ⟨tail, rfl⟩ := List.head?_eq_some_iff.mp hhead
      have hne : (chr '[' :: tail ++ [chr '\n']).take 3 ≠ [0xEF, 0xBB, 0xBF] := by
        intro heq
        have hfirst : some (chr '[') = some 0xEF := congrArg List.head? heq
        exact absurd hfirst (by decide)
      rw [decide_eq_false hne, Bool.and_false]
  unfold IniState.parseLine
  simp only [hclean, hnone, Bool.false_or, Bool.false_eq_true, if_false, rstrip_newline hlast, hskip]

theorem handle_valueHandler (st : IniState Contents) (name value : Bytes) :
    st.handle Contents.valueHandler name value =
      { st with user := st.user.handle ⟨st.section_, name, value⟩ } := rfl

section Lines

variable {st : IniState Contents} {calls : List HandlerCall}

/-- A heading. It may be the first line. -/
theorem parseLine_heading (s : Section) (herror : st.error = 0)
    (huser : st.user = Contents.handleAll calls) :
    Reading s.name [] calls
      (st.parseLine Contents.valueHandler ([chr '['] ++ s.name ++ [chr ']'] ++ [chr '\n'])) := by
  have hline : [chr '['] ++ s.name ++ [chr ']'] = chr '[' :: (s.name ++ [chr ']']) := rfl
  have hnul : 0 ∉ chr '[' :: (s.name ++ [chr ']']) := by
    simp only [List.mem_cons, List.mem_append, List.not_mem_nil, or_false, not_or]
    exact ⟨by decide, s.name_plain.nul, by decide⟩
  have hlast : (chr '[' :: (s.name ++ [chr ']'])).getLast?.any isspace = false := by
    rw [← List.cons_append, List.getLast?_concat]
    rfl
  have hskip : lskip (chr '[' :: (s.name ++ [chr ']'])) = chr '[' :: (s.name ++ [chr ']']) :=
    lskip_of_head rfl
  have hfound : findCharOrComment (chr ']') false (s.name ++ [chr ']']) = (s.name, [chr ']']) :=
    findCharOrComment_of_plain (Or.inr rfl) false s.name_bracket s.name_plain.comment (by simp)
  have hshort : strncpy0 s.name maxSection = s.name := List.take_of_length_le s.name_length
  rw [hline, parseLine_eq st hnul hlast (Or.inr rfl) hskip]
  simp only [Nat.lt_irrefl, decide_false, Bool.and_false, IniState.parseSection, hfound, hshort,
    List.head?_cons, if_true]
  exact ⟨rfl, rfl, Nat.succ_ne_zero _, herror, huser⟩

/-- The line of a name. -/
theorem parsePair_entry (e : Entry) (st : IniState Contents) :
    st.parsePair Contents.valueHandler (e.name ++ chr '=' :: e.first) =
      { st with
        prevName := e.name, user := st.user.handle ⟨st.section_, e.name, e.first⟩ } := by
  have hequals : findCharOrComment (chr '=') false (e.name ++ chr '=' :: e.first) =
      (e.name, chr '=' :: e.first) :=
    findCharOrComment_of_plain (Or.inr rfl) false e.name_equals e.name_plain.comment (by simp)
  have hvalue : findCharOrComment 0 false e.first = (e.first, []) := by
    have h := findCharOrComment_of_plain (Or.inl rfl) false e.first_plain.nul e.first_plain.comment
      (by simp)
    rwa [List.append_nil] at h
  have hshort : strncpy0 e.name maxName = e.name := List.take_of_length_le e.name_length.2
  unfold IniState.parsePair
  simp only [hequals, List.head?_cons, if_true, decide_true, Bool.true_or,
    lskip_of_head e.first_trimmed.first, hvalue, rstrip_of_last e.name_trimmed.last,
    rstrip_of_last e.first_trimmed.last, hshort]
  rfl

theorem parseLine_entry (e : Entry) {section_ prev : Bytes} (h : Reading section_ prev calls st) :
    Reading section_ e.name (calls ++ [⟨section_, e.name, e.first⟩])
      (st.parseLine Contents.valueHandler (e.name ++ [chr '='] ++ e.first ++ [chr '\n'])) := by
  obtain ⟨c, rest, hname⟩ := List.exists_cons_of_length_pos e.name_length.1
  have hline : e.name ++ [chr '='] ++ e.first = e.name ++ chr '=' :: e.first := by simp
  have hcons : e.name ++ chr '=' :: e.first = c :: (rest ++ chr '=' :: e.first) := by simp [hname]
  have hnul : 0 ∉ e.name ++ chr '=' :: e.first := by
    simp only [List.mem_append, List.mem_cons, not_or]
    exact ⟨e.name_plain.nul, by decide, e.first_plain.nul⟩
  have hlast : (e.name ++ chr '=' :: e.first).getLast?.any isspace = false := by
    rw [List.getLast?_append_cons]
    cases hfirst : e.first with
    | nil => rfl
    | cons d tail =>
      rw [List.getLast?_cons_cons, ← hfirst]
      exact e.first_trimmed.last
  have hskip : lskip (e.name ++ chr '=' :: e.first) = e.name ++ chr '=' :: e.first := by
    apply lskip_of_head
    have hfirst := e.name_trimmed.first
    rw [hname] at hfirst
    rw [hcons]
    exact hfirst
  have hhead := e.name_head
  simp only [hname, List.head?_cons, List.mem_cons, Option.some.injEq, List.not_mem_nil, or_false,
    not_or] at hhead
  rw [hcons] at hskip
  rw [hline, hcons, parseLine_eq st (hcons ▸ hnul) (hcons ▸ hlast) (Or.inl h.lineno) hskip]
  simp only [hhead.1, hhead.2.1, hhead.2.2, Nat.lt_irrefl, decide_false, Bool.and_false,
    Bool.or_false, Bool.false_eq_true, if_false]
  rw [← hcons, parsePair_entry]
  refine ⟨h.section_eq, rfl, Nat.succ_ne_zero _, h.error, ?_⟩
  rw [Contents.handleAll_append, ← h.user, ← h.section_eq]

/-- A continuation, of an entry whose name has been read. -/
theorem parseLine_continuation {section_ name line : Bytes} (h : Reading section_ name calls st)
    (hname : name ≠ []) (hne : line ≠ []) (hplain : Plain line) (htrimmed : Trimmed line)
    (hcomment : line.head? ∉ [some (chr ';'), some (chr '#')]) :
    Reading section_ name (calls ++ [⟨section_, name, line⟩])
      (st.parseLine Contents.valueHandler ([chr ' '] ++ line ++ [chr '\n'])) := by
  obtain ⟨c, rest, rfl⟩ := List.exists_cons_of_ne_nil hne
  have hnul : 0 ∉ [chr ' '] ++ c :: rest := by
    rw [List.singleton_append, List.mem_cons, not_or]
    exact ⟨by decide, hplain.nul⟩
  have hlast : ([chr ' '] ++ c :: rest).getLast?.any isspace = false := by
    rw [List.singleton_append, List.getLast?_cons_cons]
    exact htrimmed.last
  have hskip : lskip ([chr ' '] ++ c :: rest) = c :: rest := lskip_of_head htrimmed.first
  have hshorter : (c :: rest).length < ([chr ' '] ++ c :: rest).length := by simp
  simp only [List.head?_cons, List.mem_cons, Option.some.injEq, List.not_mem_nil, or_false,
    not_or] at hcomment
  have hprev : st.prevName ≠ [] := by rwa [h.prevName]
  rw [parseLine_eq st hnul hlast (Or.inl h.lineno) hskip]
  simp only [hcomment.1, hcomment.2, hshorter, hprev, ne_eq, not_false_eq_true, decide_true,
    decide_false, Bool.and_true, Bool.or_false, Bool.false_eq_true, if_false, if_true]
  rw [handle_valueHandler]
  refine ⟨h.section_eq, h.prevName, Nat.succ_ne_zero _, h.error, ?_⟩
  rw [Contents.handleAll_append, ← h.user, ← h.section_eq, ← h.prevName]

end Lines

/-! ## Whole files -/

/-- The loop over these lines. -/
def parseLines (st : IniState Contents) (ls : List Bytes) : IniState Contents :=
  (ls.map (· ++ [chr '\n'])).foldl (IniState.parseLine Contents.valueHandler) st

theorem parseLines_append (st : IniState Contents) (ls ls' : List Bytes) :
    parseLines st (ls ++ ls') = parseLines (parseLines st ls) ls' := by
  simp [parseLines]

theorem parseLines_continuation {section_ name : Bytes} (hname : name ≠ []) :
    ∀ {ls : List Bytes} {st : IniState Contents} {calls : List HandlerCall},
      Reading section_ name calls st →
      (∀ line ∈ ls, line ≠ [] ∧ Plain line ∧ Trimmed line ∧
        line.head? ∉ [some (chr ';'), some (chr '#')]) →
      Reading section_ name (calls ++ ls.map fun line => ⟨section_, name, line⟩)
        (parseLines st (ls.map ([chr ' '] ++ ·)))
  | [], st, calls, h, _ => by simpa [parseLines] using h
  | line :: ls, st, calls, h, hls => by
    obtain ⟨⟨hne, hplain, htrimmed, hcomment⟩, hrest⟩ := List.forall_mem_cons.mp hls
    have hline := parseLine_continuation h hname hne hplain htrimmed hcomment
    have hread := parseLines_continuation hname hline hrest
    rw [List.append_assoc, List.singleton_append] at hread
    exact hread

theorem parseLines_entry (e : Entry) {section_ prev : Bytes} {st : IniState Contents}
    {calls : List HandlerCall} (h : Reading section_ prev calls st) :
    Reading section_ e.name (calls ++ callsOf (section_, e)) (parseLines st e.lines) := by
  have hname : e.name ≠ [] := List.ne_nil_of_length_pos e.name_length.1
  have hread := parseLines_continuation hname (parseLine_entry e h) fun line hline =>
    ⟨e.continuation_ne_nil line hline, e.continuation_plain line hline,
      e.continuation_trimmed line hline, e.continuation_head line hline⟩
  rw [List.append_assoc, List.singleton_append] at hread
  exact hread

theorem parseLines_entries {section_ : Bytes} :
    ∀ (entries : List Entry) {prev : Bytes} {st : IniState Contents} {calls : List HandlerCall},
      Reading section_ prev calls st →
      ∃ name, Reading section_ name (calls ++ (entries.map (section_, ·)).flatMap callsOf)
        (parseLines st (entries.flatMap Entry.lines))
  | [], prev, st, calls, h => ⟨prev, by simpa [parseLines] using h⟩
  | e :: entries, prev, st, calls, h => by
    obtain ⟨name, hread⟩ := parseLines_entries entries (parseLines_entry e h)
    refine ⟨name, ?_⟩
    rw [List.flatMap_cons, parseLines_append, List.map_cons, List.flatMap_cons, ← List.append_assoc]
    exact hread

/-- **The parser makes the calls of the settings, in order, and no others.** -/
theorem parse_lines :
    ∀ (sections : List Section) {st : IniState Contents} {calls : List HandlerCall},
      st.error = 0 → st.user = Contents.handleAll calls →
      (parseLines st (lines sections)).error = 0 ∧
        (parseLines st (lines sections)).user =
          Contents.handleAll (calls ++ (settings sections).flatMap callsOf)
  | [], st, calls, herror, huser => by simpa [parseLines, lines, settings] using ⟨herror, huser⟩
  | s :: sections, st, calls, herror, huser => by
    obtain ⟨name, hread⟩ := parseLines_entries s.entries (parseLine_heading s herror huser)
    have hrest := parse_lines sections hread.error hread.user
    have hlines : lines (s :: sections) = s.lines ++ lines sections := rfl
    have hsettings : settings (s :: sections) = s.entries.map (s.name, ·) ++ settings sections := rfl
    rw [hlines, parseLines_append, hsettings, List.flatMap_append, ← List.append_assoc]
    exact hrest

/-! ## The value of a setting -/

theorem foldl_appendValue {old : Bytes} (hold : old ≠ []) (ls : List Bytes) :
    ls.foldl appendValue old = [chr '\n'].intercalate (old :: ls) := by
  induction ls generalizing old with
  | nil => simp [List.intercalate]
  | cons line ls ih =>
    have happend : appendValue old line = old ++ [chr '\n'] ++ line := by
      rw [appendValue, if_pos (List.length_pos_of_ne_nil hold)]
    rw [List.foldl_cons, happend, ih (by simp)]
    cases ls <;> simp [List.intercalate]

theorem joined_text (e : Entry) : joined (e.first :: e.continuation) = e.text := by
  unfold joined Entry.text
  have hstart : appendValue [] e.first = e.first := rfl
  rw [List.foldl_cons, hstart]
  by_cases hfirst : e.first = []
  · rw [if_pos hfirst, hfirst]
    cases hlines : e.continuation with
    | nil => rfl
    | cons line ls =>
      have hne : line ≠ [] := e.continuation_ne_nil line (by simp [hlines])
      exact foldl_appendValue hne ls
  · rw [if_neg hfirst]
    exact foldl_appendValue hfirst e.continuation

/-- The key of a setting. -/
def keyOf (setting : Bytes × Entry) : Bytes := lower (setting.1 ++ [chr '.'] ++ setting.2.name)

theorem valuesUnder_flatMap {key : Bytes} {l : List (Bytes × Entry)} (h : key ∉ l.map keyOf) :
    valuesUnder key (l.flatMap callsOf) = [] := by
  by_contra hne
  obtain ⟨call, hcall, hkey⟩ := Contents.valuesUnder_ne_nil.mp hne
  obtain ⟨setting, hmem, hcall⟩ := List.mem_flatMap.mp hcall
  obtain ⟨line, -, rfl⟩ := List.mem_map.mp hcall
  exact h (List.mem_map.mpr ⟨setting, hmem, hkey⟩)

/-- Where no two settings share a key, the values under a key are the lines of its setting. -/
theorem valuesUnder_settings {l : List (Bytes × Entry)} (hnodup : (l.map keyOf).Nodup)
    {setting : Bytes × Entry} (hmem : setting ∈ l) :
    valuesUnder (keyOf setting) (l.flatMap callsOf) =
      setting.2.first :: setting.2.continuation := by
  have hsplit : ∀ calls calls' : List HandlerCall, valuesUnder (keyOf setting) (calls ++ calls') =
      valuesUnder (keyOf setting) calls ++ valuesUnder (keyOf setting) calls' := by
    intro calls calls'
    simp [valuesUnder]
  have hown : valuesUnder (keyOf setting) (callsOf setting) =
      setting.2.first :: setting.2.continuation := by
    have hall : (callsOf setting).filter (·.key = keyOf setting) = callsOf setting := by
      rw [List.filter_eq_self]
      intro call hcall
      obtain ⟨line, -, rfl⟩ := List.mem_map.mp hcall
      exact decide_eq_true rfl
    rw [valuesUnder, hall, callsOf, List.map_map]
    exact List.map_id _
  obtain ⟨front, back, rfl⟩ := List.append_of_mem hmem
  rw [List.map_append, List.map_cons, List.nodup_middle, List.nodup_cons, List.mem_append,
    not_or] at hnodup
  rw [List.flatMap_append, List.flatMap_cons, hsplit, hsplit, hown,
    valuesUnder_flatMap hnodup.1.1, valuesUnder_flatMap hnodup.1.2]
  simp

theorem newline_notMem_lines {sections : List Section} {line : Bytes} (h : line ∈ lines sections) :
    chr '\n' ∉ line := by
  obtain ⟨s, -, hline⟩ := List.mem_flatMap.mp h
  rcases List.mem_cons.mp hline with rfl | hline
  · simp only [List.mem_append, List.mem_singleton, not_or]
    exact ⟨⟨by decide, s.name_plain.newline⟩, by decide⟩
  · obtain ⟨e, -, hline⟩ := List.mem_flatMap.mp hline
    rcases List.mem_cons.mp hline with rfl | hline
    · simp only [List.mem_append, List.mem_singleton, not_or]
      exact ⟨⟨e.name_plain.newline, by decide⟩, e.first_plain.newline⟩
    · obtain ⟨rest, hrest, rfl⟩ := List.mem_map.mp hline
      simp only [List.mem_append, List.mem_singleton, not_or]
      exact ⟨by decide, (e.continuation_plain rest hrest).newline⟩

/-- What the parser makes of the text, if its lines fit the line buffer. -/
theorem iniParseFile_render {sections : List Section}
    (hlength : ∀ line ∈ lines sections, (line ++ [chr '\n']).length ≤ 199) :
    iniParseFile Contents.valueHandler Contents.empty (render sections) =
      (0, Contents.handleAll ((settings sections).flatMap callsOf)) := by
  have hfgets : fgetsLines iniMaxLine [] (render sections) =
      (lines sections).map (· ++ [chr '\n']) := by
    apply fgetsLines_of_lines
    intro line hline
    have hfits := hlength line hline
    rw [List.length_append, List.length_singleton] at hfits
    exact ⟨newline_notMem_lines hline, Nat.lt_of_le_of_lt hfits (by decide)⟩
  have hread := parse_lines sections
    (show (⟨[], [], 0, 0, Contents.empty⟩ : IniState Contents).error = 0 from rfl)
    (show Contents.empty = Contents.handleAll [] from rfl)
  unfold iniParseFile
  rw [hfgets]
  exact Prod.ext hread.1 hread.2

/-- **A file is read back as it was written**: if its lines fit the line buffer and no two settings
have one key, `LoadFile` reports no error and every setting has its own value. -/
theorem loadFile_render {sections : List Section}
    (hlength : ∀ line ∈ lines sections, (line ++ [chr '\n']).length ≤ 199)
    (hkeys : ((settings sections).map keyOf).Nodup) (filename : Bytes) :
    (ConfigFile.new.loadFile filename (some (render sections))).1 = 0 ∧
      ∀ s ∈ sections, ∀ e ∈ s.entries, ∀ output,
        (ConfigFile.new.loadFile filename (some (render sections))).2.getSectionString
          s.name e.name output = (.OK, e.text) := by
  have hload : ConfigFile.new.loadFile filename (some (render sections)) =
      (0, { Contents.handleAll ((settings sections).flatMap callsOf) with
            filename := ConfigFile.stem filename, error := 0 }) := by
    unfold ConfigFile.loadFile iniParse
    rw [show ConfigFile.new.toContents = Contents.empty from rfl]
    simp only [iniParseFile_render hlength]
    rfl
  rw [hload]
  refine ⟨rfl, ?_⟩
  intro s hs e he output
  have hmem : (s.name, e) ∈ settings sections :=
    List.mem_flatMap.mpr ⟨s, hs, List.mem_map.mpr ⟨e, he, rfl⟩⟩
  have hkey : Contents.makeKey s.name e.name = keyOf (s.name, e) := rfl
  show (Contents.handleAll _).getSectionString s.name e.name output = _
  rw [Contents.getSectionString_handleAll, hkey, valuesUnder_settings hkeys hmem, if_neg (by simp),
    joined_text]

/-- An entry with an empty first line and two more. -/
def listEntry : Entry where
  name := ascii "Paths"
  first := []
  continuation := [ascii "a;b", ascii "[c]"]
  name_length := by decide
  name_head := by decide
  name_equals := by decide
  name_plain := ⟨by decide, by decide, by decide⟩
  name_trimmed := ⟨rfl, rfl⟩
  first_plain := ⟨by decide, by decide, by decide⟩
  first_trimmed := ⟨rfl, rfl⟩
  continuation_ne_nil := by decide
  continuation_head := by decide
  continuation_plain := by
    simp only [List.forall_mem_cons, List.not_mem_nil, false_implies, implies_true, and_true]
    exact ⟨⟨by decide, by decide, by decide⟩, by decide, by decide, by decide⟩
  continuation_trimmed := by
    simp only [List.forall_mem_cons, List.not_mem_nil, false_implies, implies_true, and_true]
    exact ⟨⟨rfl, rfl⟩, rfl, rfl⟩

def listSection : Section where
  name := ascii " Main "
  entries := [listEntry]
  name_length := by decide
  name_bracket := by decide
  name_plain := ⟨by decide, by decide, by decide⟩

theorem loadFile_render_list :
    render [listSection] = ascii "[ Main ]\nPaths=\n a;b\n [c]\n" ∧
      (ConfigFile.new.loadFile (ascii "a") (some (render [listSection]))).1 = 0 ∧
      (ConfigFile.new.loadFile (ascii "a") (some (render [listSection]))).2.getSectionString
        (ascii " Main ") (ascii "Paths") [] = (.OK, ascii "a;b\n[c]") := by
  have hlength : ∀ line ∈ lines [listSection], (line ++ [chr '\n']).length ≤ 199 := by decide
  have h := loadFile_render hlength (by decide) (ascii "a")
  exact ⟨by decide, h.1, h.2 listSection (by simp) listEntry (by simp [listSection]) []⟩

end ServerTest.Configuration
