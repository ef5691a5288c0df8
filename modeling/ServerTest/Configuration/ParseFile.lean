import ServerTest.Configuration.Grammar

/-!
# What `ini_parse_file` makes of a file

Any file at all. `fgets` cuts it into pieces (`Cuts`), and each of them is a line of the grammar, in
the context the lines before it have left, or is not (`Reads`). The handler gets a call for every line
that says something, in their order, and also after an error; the number returned is that of the first
line that is no line or whose call was refused.
-/

set_option autoImplicit false

namespace ServerTest.Configuration

open Lib

/-! ## The pieces -/

section Pieces

variable {size : Nat}

/-- What one `fgets` can return. -/
structure Piece (size : Nat) (line : Bytes) : Prop where
  ne_nil : line ≠ []
  fits : line.length < size
  newline : chr '\n' ∉ line.dropLast

/-- A line end is what it stops at, if it does not run out of room. -/
def Complete (size : Nat) (line : Bytes) : Prop :=
  line.getLast? = some (chr '\n') ∨ line.length + 1 = size

/-- The pieces of a file: only the last may stop short. -/
structure Cuts (size : Nat) (file : Bytes) (pieces : List Bytes) : Prop where
  flatten : pieces.flatten = file
  piece : ∀ line ∈ pieces, Piece size line
  complete : ∀ line ∈ pieces.dropLast, Complete size line

/-- A call of `fgets` that goes on. -/
theorem fgetsLines_append {s : Bytes} (hs : chr '\n' ∉ s) (line file : Bytes)
    (hfits : line.length + s.length + 1 < size) :
    fgetsLines size line (s ++ file) = fgetsLines size (line ++ s) file := by
  induction s generalizing line with
  | nil => simp
  | cons c s ih =>
    rw [List.mem_cons, not_or] at hs
    have hgo : ¬ ((c = chr '\n' || (line ++ [c]).length + 1 = size) = true) := by
      simp only [List.length_cons] at hfits
      simp only [Bool.or_eq_true, decide_eq_true_eq, List.length_append, List.length_cons,
        List.length_nil, not_or]
      exact ⟨Ne.symm hs.1, by omega⟩
    rw [List.cons_append, fgetsLines, if_neg hgo, ih hs.2 (line ++ [c])]
    · simp
    · simp only [List.length_append, List.length_cons, List.length_nil] at hfits ⊢
      omega

theorem Piece.fgetsLines {line : Bytes} (h : Piece size line) (hcomplete : Complete size line)
    (file : Bytes) :
    fgetsLines size [] (line ++ file) = line :: Configuration.fgetsLines size [] file := by
  obtain ⟨hne, hfits, hnewline⟩ := h
  obtain ⟨s, c, rfl⟩ := (List.eq_nil_or_concat' line).resolve_left hne
  rw [List.dropLast_concat] at hnewline
  have hstop : (c = chr '\n' || (s ++ [c]).length + 1 = size) = true := by
    simpa [Complete] using hcomplete
  rw [List.append_assoc, fgetsLines_append hnewline [] _ (by simpa using hfits), List.nil_append,
    List.singleton_append, Configuration.fgetsLines, if_pos hstop]

/-- The pieces are the ones `fgets` returns… -/
theorem Cuts.fgetsLines_eq {file : Bytes} {pieces : List Bytes} (h : Cuts size file pieces) :
    fgetsLines size [] file = pieces := by
  obtain ⟨rfl, hpiece, hcomplete⟩ := h
  induction pieces with
  | nil => rfl
  | cons line pieces ih =>
    obtain ⟨hline, hpieces⟩ := List.forall_mem_cons.mp hpiece
    by_cases hfull : Complete size line
    · have hrest : ∀ l ∈ pieces.dropLast, Complete size l := by
        intro l hl
        cases pieces with
        | nil => cases hl
        | cons next pieces => exact hcomplete l (List.mem_cons_of_mem line hl)
      rw [List.flatten_cons, hline.fgetsLines hfull, ih hpieces hrest]
    · -- A piece that stops short is the last.
      obtain rfl : pieces = [] := by
        cases pieces with
        | nil => rfl
        | cons next pieces => exact absurd (hcomplete line List.mem_cons_self) hfull
      simp only [Complete, not_or] at hfull
      have hnewline : chr '\n' ∉ line := by
        intro hmem
        rw [← List.dropLast_concat_getLast hline.ne_nil] at hmem
        rcases List.mem_append.mp hmem with hmem | hmem
        · exact hline.newline hmem
        · rw [List.getLast?_eq_some_getLast hline.ne_nil, ← List.mem_singleton.mp hmem] at hfull
          exact hfull.1 rfl
      have hfits := hline.fits
      have hread := @fgetsLines_append size line hnewline [] []
        (by simp only [List.length_nil]; omega)
      rw [List.append_nil, List.nil_append] at hread
      rw [List.flatten_cons, List.flatten_nil, List.append_nil, hread, fgetsLines, if_neg hline.ne_nil]

theorem Cuts.cons {line file : Bytes} {pieces : List Bytes} (hline : Piece size line)
    (hcomplete : Complete size line) (h : Cuts size file pieces) :
    Cuts size (line ++ file) (line :: pieces) where
  flatten := by rw [List.flatten_cons, h.flatten]
  piece := List.forall_mem_cons.mpr ⟨hline, h.piece⟩
  complete l hl := by
    cases pieces with
    | nil => cases hl
    | cons next pieces =>
      rcases List.mem_cons.mp hl with rfl | hl
      · exact hcomplete
      · exact h.complete l hl

/-- …and it returns pieces. The current call has read `line`. -/
theorem cuts_fgetsLines {line : Bytes} (hline : chr '\n' ∉ line) (hfits : line.length + 1 < size)
    (file : Bytes) : Cuts size (line ++ file) (fgetsLines size line file) := by
  induction file generalizing line with
  | nil =>
    rw [List.append_nil, fgetsLines]
    split
    · rename_i hempty
      exact ⟨hempty.symm, by simp, by simp⟩
    · rename_i hsome
      have hpiece : Piece size line :=
        ⟨hsome, by omega, fun hmem => hline (List.mem_of_mem_dropLast hmem)⟩
      exact ⟨by simp, by simpa using hpiece, by simp⟩
  | cons c file ih =>
    have hassoc : line ++ c :: file = (line ++ [c]) ++ file := by simp
    rw [fgetsLines, hassoc]
    split
    · rename_i hstop
      have hpiece : Piece size (line ++ [c]) :=
        ⟨by simp, by simpa using hfits, by rwa [List.dropLast_concat]⟩
      have hcomplete : Complete size (line ++ [c]) := by simpa [Complete] using hstop
      have hnext := @ih [] (by simp) (by simp only [List.length_nil]; omega)
      exact .cons hpiece hcomplete hnext
    · rename_i hgo
      simp only [Bool.or_eq_true, decide_eq_true_eq, not_or] at hgo
      refine ih ?_ ?_
      · simpa [hline] using Ne.symm hgo.1
      · have hroom := hgo.2
        simp only [List.length_append, List.length_cons, List.length_nil] at hroom ⊢
        omega

theorem cuts_iff (hsize : 2 ≤ size) {file : Bytes} {pieces : List Bytes} :
    Cuts size file pieces ↔ pieces = fgetsLines size [] file := by
  constructor
  · intro h
    exact h.fgetsLines_eq.symm
  · rintro rfl
    have hcuts := @cuts_fgetsLines size [] (by simp)
      (by simp only [List.length_nil]; omega) file
    exact hcuts

end Pieces

/-! ## Reading -/

/-- The text of a line: up to the first NUL, and without the byte order mark of the file. -/
def textOf (first : Bool) (line : Bytes) : Bytes :=
  if first && (cStr line).take 3 = [0xEF, 0xBB, 0xBF] then (cStr line).drop 3 else cStr line

/-- What a piece of the file is to the caller. -/
inductive Report where
  | malformed
  | quiet
  | call (call : HandlerCall)
  deriving DecidableEq, Repr

namespace Context

def start : Context := ⟨[], []⟩

/-- What the next line is in. Sections and names are kept in buffers of fifty bytes. -/
def after (ctx : Context) : LineKind → Context
  | .nothing | .more _ => ctx
  | .heading name => ⟨strncpy0 name maxSection, []⟩
  | .pair name _ => ⟨ctx.section_, strncpy0 name maxName⟩

def report (ctx : Context) : LineKind → Report
  | .nothing | .heading _ => .quiet
  | .more text => .call ⟨ctx.section_, ctx.name, text⟩
  | .pair name value => .call ⟨ctx.section_, name, value⟩

end Context

/-- The pieces of a file in a context, read as lines of the grammar. What is no line changes
nothing. -/
inductive Reads : Context → Bool → List Bytes → List Report → Prop
  | nil {ctx : Context} {first : Bool} : Reads ctx first [] []
  | line {ctx : Context} {first : Bool} {line : Bytes} {lines : List Bytes} {kind : LineKind}
    {reports : List Report} (hline : IsLine ctx (textOf first line) kind)
    (hlines : Reads (ctx.after kind) false lines reports) :
    Reads ctx first (line :: lines) (ctx.report kind :: reports)
  | malformed {ctx : Context} {first : Bool} {line : Bytes} {lines : List Bytes}
    {reports : List Report} (hline : ∀ kind, ¬ IsLine ctx (textOf first line) kind)
    (hlines : Reads ctx false lines reports) : Reads ctx first (line :: lines) (.malformed :: reports)

theorem textOf_nul (first : Bool) (line : Bytes) : 0 ∉ textOf first line := by
  have hclean : 0 ∉ cStr line := by
    intro h
    simpa using List.mem_takeWhile_imp h
  unfold textOf
  split
  · exact fun h => hclean (List.mem_of_mem_drop h)
  · exact hclean

/-- The reports as the parser finds them. -/
def reportsOf : Context → Bool → List Bytes → List Report
  | _, _, [] => []
  | ctx, first, line :: lines =>
    match lineOf ctx (textOf first line) with
    | some kind => ctx.report kind :: reportsOf (ctx.after kind) false lines
    | none => .malformed :: reportsOf ctx false lines

theorem length_reportsOf (ctx : Context) (first : Bool) (lines : List Bytes) :
    (reportsOf ctx first lines).length = lines.length := by
  induction lines generalizing ctx first with
  | nil => rfl
  | cons line lines ih =>
    rw [reportsOf]
    cases lineOf ctx (textOf first line) <;> rw [List.length_cons, List.length_cons, ih]

theorem reads_iff {ctx : Context} {first : Bool} {lines : List Bytes} {reports : List Report} :
    Reads ctx first lines reports ↔ reports = reportsOf ctx first lines := by
  constructor
  · intro h
    induction h with
    | nil => rfl
    | line hline _ ih =>
      rw [reportsOf, (lineOf_eq_some_iff (textOf_nul _ _)).mpr hline, ih]
    | @malformed ctx first line lines reports hline _ ih =>
      have hnone : lineOf ctx (textOf first line) = none := by
        rw [Option.eq_none_iff_forall_ne_some]
        intro kind hkind
        exact hline kind ((lineOf_eq_some_iff (textOf_nul _ _)).mp hkind)
      rw [reportsOf, hnone, ih]
  · rintro rfl
    induction lines generalizing ctx first with
    | nil => exact .nil
    | cons line lines ih =>
      rw [reportsOf]
      cases hkind : lineOf ctx (textOf first line) with
      | some kind => exact .line ((lineOf_eq_some_iff (textOf_nul _ _)).mp hkind) ih
      | none =>
        refine .malformed ?_ ih
        intro kind h
        rw [(lineOf_eq_some_iff (textOf_nul _ _)).mpr h] at hkind
        cases hkind

/-- A heading, a pair with a comment, another line of its value, and no line. -/
example : reportsOf .start true
      [ascii "[s]\n", ascii "n : v ;c\n", ascii "  w\n", ascii "oops\n"] =
    [.quiet, .call ⟨ascii "s", ascii "n", ascii "v"⟩, .call ⟨ascii "s", ascii "n", ascii "w"⟩,
      .malformed] := by
  decide +kernel

/-! ## What the caller gets -/

section Caller

variable {User : Type} (handler : Handler User)

def Report.callOf : Report → Option HandlerCall
  | .call c => some c
  | .malformed | .quiet => none

def called (user : User) (call : HandlerCall) : User :=
  (handler user call.section_ call.name call.value).2

/-- The object after these calls. -/
def deliver (user : User) (reports : List Report) : User :=
  (reports.filterMap Report.callOf).foldl (called handler) user

/-- Line `i`, counted from zero, is no line or is refused. -/
def FaultAt (user : User) (reports : List Report) (i : Nat) : Prop :=
  reports[i]? = some .malformed ∨ ∃ call, reports[i]? = some (.call call) ∧
    (handler (deliver handler user (reports.take i)) call.section_ call.name call.value).1 = 0

/-- `user` takes this line badly. -/
def Report.Refused (user : User) : Report → Prop
  | .malformed => True
  | .quiet => False
  | .call c => (handler user c.section_ c.name c.value).1 = 0

theorem faultAt_zero (user : User) (report : Report) (reports : List Report) :
    FaultAt handler user (report :: reports) 0 ↔ report.Refused handler user := by
  cases report <;> simp [FaultAt, Report.Refused, deliver]

theorem deliver_cons (user : User) (report : Report) (reports : List Report) :
    deliver handler user (report :: reports) =
      deliver handler (deliver handler user [report]) reports := by
  cases report <;> rfl

theorem faultAt_succ (user : User) (report : Report) (reports : List Report) (i : Nat) :
    FaultAt handler user (report :: reports) (i + 1) ↔
      FaultAt handler (deliver handler user [report]) reports i := by
  unfold FaultAt
  rw [List.getElem?_cons_succ, List.take_succ_cons, deliver_cons]

end Caller

/-! ## The loop -/

namespace IniState

variable {User : Type} {handler : Handler User} {st : IniState User}

def context (st : IniState User) : Context := ⟨st.section_, st.prevName⟩

/-- What the loop does about a line. -/
def act (handler : Handler User) (st : IniState User) : Option LineKind → IniState User
  | none => st.fail
  | some .nothing => st
  | some (.more text) => st.handle handler st.prevName text
  | some (.heading name) => { st with section_ := strncpy0 name maxSection, prevName := [] }
  | some (.pair name value) => { st with prevName := strncpy0 name maxName }.handle handler name value

theorem parseSection_eq (st : IniState User) (rest : Bytes) :
    st.parseSection rest = st.act handler (headingOf rest) := by
  cases hfind : findCharOrComment (chr ']') false rest with
  | mk name end_ =>
    simp only [parseSection, headingOf, hfind]
    split <;> rfl

theorem parsePair_eq (st : IniState User) (start : Bytes) :
    st.parsePair handler start = st.act handler (pairOf start) := by
  obtain ⟨found, hfound⟩ : ∃ found, found =
      if (findCharOrComment (chr '=') false start).2.head? = some (chr '=') then
        findCharOrComment (chr '=') false start else findCharOrComment (chr ':') false start := ⟨_, rfl⟩
  simp only [parsePair, pairOf, ← hfound]
  obtain ⟨name, rest⟩ := found
  cases rest with
  | nil => rfl
  | cons sep value =>
    simp only
    split <;> rfl

/-- The body of the loop does what the line says. A byte order mark would count as an indent, but
where there may be one there is no name to go on with. -/
theorem parseLine_eq_act (hfirst : st.lineno = 0 → st.prevName = []) (line : Bytes) :
    st.parseLine handler line = { st with lineno := st.lineno + 1 }.act handler
      (lineOf st.context (textOf (st.lineno = 0) line)) := by
  obtain ⟨bom, hbom⟩ : ∃ bom : Bool,
      bom = (st.lineno + 1 = 1 && (cStr line).take 3 = [0xEF, 0xBB, 0xBF]) := ⟨_, rfl⟩
  have htext : textOf (st.lineno = 0) line = if bom then (cStr line).drop 3 else cStr line := by
    simp only [textOf, hbom, Nat.add_eq_right]
  have hname : st.prevName ≠ [] → bom = false := by
    intro hne
    have hlineno : st.lineno + 1 ≠ 1 := fun h => hne (hfirst (Nat.succ.inj h))
    rw [hbom, decide_eq_false hlineno, Bool.false_and]
  simp only [parseLine, ← hbom, ← htext]
  cases hstart : lskip (rstrip (textOf (st.lineno = 0) line)) with
  | nil =>
    rw [lineOf, hstart]
    rfl
  | cons c rest =>
    have hskipped : ∀ indented : Prop,
        (st.prevName ≠ [] ∧ (bom = true ∨ indented)) ↔ (st.context.name ≠ [] ∧ indented) := by
      intro indented
      refine and_congr_right fun hne => ?_
      rw [hname hne, Bool.false_eq_true, false_or]
    rw [lineOf_of_lskip _ hstart]
    simp only [Bool.and_eq_true, Bool.or_eq_true, decide_eq_true_eq, hskipped]
    split_ifs
    · rfl
    · rfl
    · exact parseSection_eq _ rest
    · exact parsePair_eq _ (c :: rest)

/-- From `st`, with a line that is a `report`. -/
structure Reported (handler : Handler User) (st : IniState User) (report : Report)
    (st' : IniState User) : Prop where
  lineno : st'.lineno = st.lineno
  user : st'.user = deliver handler st.user [report]
  first : st.error = 0 → report.Refused handler st.user → st'.error = st.lineno
  kept : ¬ (st.error = 0 ∧ report.Refused handler st.user) → st'.error = st.error

theorem reported_fail (st : IniState User) : Reported handler st .malformed st.fail := by
  unfold fail
  split
  · rename_i hzero
    exact ⟨rfl, rfl, fun _ _ => rfl, fun h => absurd ⟨hzero, trivial⟩ h⟩
  · rename_i herror
    exact ⟨rfl, rfl, fun h => absurd h herror, fun _ => rfl⟩

theorem context_handle (st : IniState User) (name value : Bytes) :
    (st.handle handler name value).context = st.context := by
  simp only [handle, fail]
  split_ifs <;> rfl

theorem reported_handle (st : IniState User) (name value : Bytes) :
    Reported handler st (.call ⟨st.section_, name, value⟩) (st.handle handler name value) := by
  obtain ⟨result, user, hcall⟩ : ∃ result user,
      handler st.user st.section_ name value = (result, user) := ⟨_, _, rfl⟩
  have hrefused : (Report.call ⟨st.section_, name, value⟩).Refused handler st.user ↔ result = 0 := by
    rw [Report.Refused, hcall]
  have huser : deliver handler st.user [.call ⟨st.section_, name, value⟩] = user :=
    congrArg Prod.snd hcall
  have hhandle : st.handle handler name value =
      if result = 0 then { st with user := user }.fail else { st with user := user } := by
    simp only [handle, hcall]
  rw [hhandle]
  split
  · rename_i hzero
    have hfailed : Reported handler { st with user := user } .malformed _ := reported_fail _
    obtain ⟨hlineno, hfail, hfirst, hkept⟩ := hfailed
    refine ⟨hlineno, by rw [huser]; exact hfail, fun h _ => hfirst h trivial, fun h => hkept ?_⟩
    exact fun hboth => h ⟨hboth.1, hrefused.mpr hzero⟩
  · rename_i hnonzero
    exact ⟨rfl, huser.symm, fun _ h => absurd (hrefused.mp h) hnonzero, fun _ => rfl⟩

/-- What a decision is to the caller… -/
def reportOf (ctx : Context) : Option LineKind → Report
  | some kind => ctx.report kind
  | none => .malformed

/-- …and to the next line. -/
def contextAfter (ctx : Context) : Option LineKind → Context
  | some kind => ctx.after kind
  | none => ctx

theorem context_act (st : IniState User) (kind : Option LineKind) :
    (st.act handler kind).context = contextAfter st.context kind := by
  rcases kind with _ | (_ | text | name | ⟨name, value⟩)
  · simp only [act, fail]
    split <;> rfl
  · rfl
  · exact context_handle st st.prevName text
  · rfl
  · exact context_handle { st with prevName := strncpy0 name maxName } name value

/-- **One line.** -/
theorem reported_act (st : IniState User) (kind : Option LineKind) :
    Reported handler st (reportOf st.context kind) (st.act handler kind) := by
  rcases kind with _ | (_ | text | name | ⟨name, value⟩)
  · exact reported_fail st
  · exact ⟨rfl, rfl, fun _ => False.elim, fun _ => rfl⟩
  · exact reported_handle st st.prevName text
  · exact ⟨rfl, rfl, fun _ => False.elim, fun _ => rfl⟩
  · have hnamed : Reported handler { st with prevName := strncpy0 name maxName } _ _ :=
      reported_handle _ name value
    exact ⟨hnamed.lineno, hnamed.user, hnamed.first, hnamed.kept⟩

/-- The parser's variables never look like the start of a file again. -/
def Started (st : IniState User) : Prop := st.lineno = 0 → st.prevName = []

/-- **All lines**, from any state between two lines. -/
theorem parseLines_spec (hst : st.Started) (lines : List Bytes) :
    let reports := reportsOf st.context (st.lineno = 0) lines
    let st' := lines.foldl (parseLine handler) st
    st'.user = deliver handler st.user reports ∧
      (st.error ≠ 0 → st'.error = st.error) ∧
      (st.error = 0 → (st'.error = 0 ∧ ∀ i, ¬ FaultAt handler st.user reports i) ∨
        ∃ i, st'.error = st.lineno + i + 1 ∧ FaultAt handler st.user reports i ∧
          ∀ j < i, ¬ FaultAt handler st.user reports j) := by
  induction lines generalizing st with
  | nil =>
    refine ⟨rfl, fun _ => rfl, fun herror => Or.inl ⟨herror, ?_⟩⟩
    intro i hfault
    simp [FaultAt, reportsOf] at hfault
  | cons line lines ih =>
    intro reports st'
    obtain ⟨kind, hkind⟩ : ∃ kind, kind = lineOf st.context (textOf (st.lineno = 0) line) := ⟨_, rfl⟩
    obtain ⟨next, hnext⟩ : ∃ next, next = { st with lineno := st.lineno + 1 }.act handler kind :=
      ⟨_, rfl⟩
    have hstep : st.parseLine handler line = next := by
      rw [parseLine_eq_act hst, ← hkind, hnext]
    have hone : Reported handler { st with lineno := st.lineno + 1 } (reportOf st.context kind) next :=
      hnext ▸ reported_act _ kind
    have hcontext : next.context = contextAfter st.context kind := hnext ▸ context_act _ kind
    have hlineno : next.lineno = st.lineno + 1 := hone.lineno
    have hstarted : next.Started := by
      intro hzero
      rw [hlineno] at hzero
      cases hzero
    have hreports : reports = reportOf st.context kind ::
        reportsOf next.context (next.lineno = 0) lines := by
      have hlater : decide (next.lineno = 0) = false := by simp [hlineno]
      rw [hlater, hcontext]
      simp only [reports, reportsOf, ← hkind]
      cases kind <;> rfl
    have hst' : st' = lines.foldl (parseLine handler) next := by
      simp only [st', List.foldl_cons, hstep]
    obtain ⟨huser, hkept, hfirst⟩ := ih hstarted
    have honeUser : next.user = deliver handler st.user [reportOf st.context kind] := hone.user
    have hrefused : ∀ rest, FaultAt handler st.user (reportOf st.context kind :: rest) 0 ↔
        (reportOf st.context kind).Refused handler st.user := faultAt_zero handler st.user _
    rw [hreports, hst']
    refine ⟨?_, ?_, ?_⟩
    · rw [deliver_cons, ← honeUser]
      exact huser
    · intro herror
      have hsame : next.error = st.error := hone.kept fun h => herror h.1
      rw [hkept (hsame ▸ herror), hsame]
    · intro herror
      by_cases hbad : (reportOf st.context kind).Refused handler st.user
      · have hline : next.error = st.lineno + 1 := hone.first herror hbad
        refine Or.inr ⟨0, ?_, (hrefused _).mpr hbad, by simp⟩
        rw [hkept (by omega), hline]
      · have hclean : next.error = 0 := (hone.kept fun h => hbad h.2).trans herror
        rcases hfirst hclean with ⟨hzero, hnone⟩ | ⟨i, hline, hfault, hbefore⟩
        · refine Or.inl ⟨hzero, ?_⟩
          intro i
          cases i with
          | zero => rw [hrefused]; exact hbad
          | succ i => rw [faultAt_succ, ← honeUser]; exact hnone i
        · refine Or.inr ⟨i + 1, by rw [hline, hlineno]; omega, ?_, ?_⟩
          · rw [faultAt_succ, ← honeUser]
            exact hfault
          · intro j hj
            cases j with
            | zero => rw [hrefused]; exact hbad
            | succ j => rw [faultAt_succ, ← honeUser]; exact hbefore j (by omega)

end IniState

theorem FaultAt.lt_length {User : Type} {handler : Handler User} {user : User}
    {reports : List Report} {i : Nat} (h : FaultAt handler user reports i) : i < reports.length := by
  rcases h with hbad | ⟨call, hcall, -⟩
  · exact (List.getElem?_eq_some_iff.mp hbad).1
  · exact (List.getElem?_eq_some_iff.mp hcall).1

/-- The whole file, in terms of its pieces. -/
theorem iniParseFile_spec {User : Type} (handler : Handler User) (user : User) (file : Bytes) :
    let reports := reportsOf .start true (fgetsLines iniMaxLine [] file)
    (iniParseFile handler user file).2 = deliver handler user reports ∧
      ((iniParseFile handler user file).1 = 0 ∧ (∀ i, ¬ FaultAt handler user reports i) ∨
        ∃ i, (iniParseFile handler user file).1 = i + 1 ∧ FaultAt handler user reports i ∧
          ∀ j < i, ¬ FaultAt handler user reports j) := by
  obtain ⟨huser, -, herror⟩ := @IniState.parseLines_spec User handler ⟨[], [], 0, 0, user⟩
    (fun _ => rfl) (fgetsLines iniMaxLine [] file)
  refine ⟨huser, ?_⟩
  rcases herror rfl with hnone | ⟨i, hline, hfault⟩
  · exact Or.inl hnone
  · refine Or.inr ⟨i, ?_, hfault⟩
    rw [← Nat.zero_add i]
    exact hline

/-- **What `ini_parse_file` makes of a file** whose pieces an `int` can count. It is cut in one way,
and the pieces read in one way. The handler gets the calls of all lines in order; the result is zero
if none is at fault, and otherwise the number of the first that is, which is an `int`. -/
theorem iniParseFile_reads {User : Type} (handler : Handler User) (user : User) (file : Bytes)
    (hint : ∀ pieces, Cuts iniMaxLine file pieces → pieces.length < 2 ^ 31) :
    ∃ lines reports, (∀ pieces, Cuts iniMaxLine file pieces ↔ pieces = lines) ∧
      (∀ rs, Reads .start true lines rs ↔ rs = reports) ∧
      (iniParseFile handler user file).2 = deliver handler user reports ∧
      ((iniParseFile handler user file).1 = 0 ∧ (∀ i, ¬ FaultAt handler user reports i) ∨
        ∃ i, (iniParseFile handler user file).1 = i + 1 ∧ i + 1 < 2 ^ 31 ∧
          FaultAt handler user reports i ∧ ∀ j < i, ¬ FaultAt handler user reports j) := by
  have hcuts : ∀ pieces, Cuts iniMaxLine file pieces ↔ pieces = fgetsLines iniMaxLine [] file :=
    fun _ => cuts_iff (by decide)
  obtain ⟨huser, hresult⟩ := iniParseFile_spec handler user file
  refine ⟨_, _, hcuts, fun _ => reads_iff, huser, hresult.imp_right ?_⟩
  rintro ⟨i, hline, hfault, hfirst⟩
  refine ⟨i, hline, ?_, hfault, hfirst⟩
  have hlt := hfault.lt_length
  rw [length_reportsOf] at hlt
  exact Nat.lt_of_le_of_lt hlt (hint _ ((hcuts _).mpr rfl))

/-- A file whose second line is none. -/
theorem iniParseFile_reads_second : ∃ lines reports,
    (∀ pieces, Cuts iniMaxLine (ascii "[s]\noops\n") pieces ↔ pieces = lines) ∧
      (∀ rs, Reads .start true lines rs ↔ rs = reports) ∧
      ∃ i, (iniParseFile Contents.valueHandler .empty (ascii "[s]\noops\n")).1 = i + 1 ∧
        FaultAt Contents.valueHandler .empty reports i ∧
        ∀ j < i, ¬ FaultAt Contents.valueHandler .empty reports j := by
  have hint : ∀ pieces, Cuts iniMaxLine (ascii "[s]\noops\n") pieces → pieces.length < 2 ^ 31 := by
    intro pieces hcut
    rw [cuts_iff (by decide)] at hcut
    have htwo : pieces.length = 2 := by
      rw [hcut]
      decide +kernel
    omega
  obtain ⟨lines, reports, hcuts, hreads, -, ⟨hzero, -⟩ | ⟨i, hline, -, hfault⟩⟩ :=
    iniParseFile_reads Contents.valueHandler .empty (ascii "[s]\noops\n") hint
  · exact absurd hzero (by decide +kernel)
  · exact ⟨lines, reports, hcuts, hreads, i, hline, hfault⟩

/-- `ValueHandler` refuses nothing. -/
theorem faultAt_valueHandler (contents : Contents) (reports : List Report) (i : Nat) :
    FaultAt Contents.valueHandler contents reports i ↔ reports[i]? = some .malformed := by
  refine or_iff_left ?_
  rintro ⟨call, -, hzero⟩
  cases hzero

/-- **What `LoadFile` accepts**: the files all of whose lines are lines. Accepted or not, the indexes
are what the calls of the lines that are make of them. -/
theorem loadFile_accepts_iff (f : ConfigFile) (filename file : Bytes) {lines : List Bytes}
    {reports : List Report} (hlines : Cuts iniMaxLine file lines)
    (hreports : Reads .start true lines reports) :
    ((f.loadFile filename (some file)).1 = 0 ↔ .malformed ∉ reports) ∧
      (f.loadFile filename (some file)).2.toContents =
        deliver Contents.valueHandler f.toContents reports := by
  obtain rfl := (cuts_iff (by decide)).mp hlines
  obtain rfl := reads_iff.mp hreports
  obtain ⟨huser, herror⟩ := iniParseFile_spec Contents.valueHandler f.toContents file
  refine ⟨?_, huser⟩
  have hresult : (f.loadFile filename (some file)).1 =
      ((iniParseFile Contents.valueHandler f.toContents file).1 : Int) := rfl
  simp only [faultAt_valueHandler] at herror
  rw [hresult, Int.natCast_eq_zero]
  rcases herror with ⟨hzero, hnone⟩ | ⟨i, hline, hfault, -⟩
  · refine iff_of_true hzero ?_
    intro hmem
    obtain ⟨i, hi⟩ := List.mem_iff_getElem?.mp hmem
    exact hnone i hi
  · refine iff_of_false (by omega) ?_
    intro hmem
    exact hmem (List.mem_iff_getElem?.mpr ⟨i, hfault⟩)

end ServerTest.Configuration
