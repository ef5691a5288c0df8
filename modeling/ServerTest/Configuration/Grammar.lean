import ServerTest.Configuration.RoundTrip

/-!
# What `ini_parse_file` takes for a line

The parser finds its way through a line with pointers; the grammar says what the line looks like. A
line is blank, a comment, a further line of a value, a heading or a pair, and it depends on what was
read before which of these it is. `lineOf` is the parser's own decision, cut out of its loop; it is
the grammar's (`lineOf_eq_some_iff`). Then for the whole of any file: which calls the handler gets, and
which line the number that is returned is the number of.
-/

set_option autoImplicit false

namespace ServerTest.Configuration

open Lib

/-! ## The grammar -/

def Blank (s : Bytes) : Prop := ∀ b ∈ s, isspace b = true

/-- Nothing in it starts a comment: there is no semicolon behind white space. -/
def Uncommented (s : Bytes) : Prop := s.IsChain fun a b => ¬ (isspace a = true ∧ b = chr ';')

/-- A line with white space around `body`. -/
structure Framed (text indent body trail : Bytes) : Prop where
  eq : text = indent ++ body ++ trail
  indent : Blank indent
  trail : Blank trail
  body : Trimmed body

/-- The first `c` of `s`, and no comment before it. -/
structure SplitAt (c : UInt8) (s before after : Bytes) : Prop where
  eq : s = before ++ c :: after
  notMem : c ∉ before
  uncommented : Uncommented before

/-- What stands behind a separator: a value, and perhaps a comment. A semicolon the value begins with
is part of it. -/
inductive IsValue : Bytes → Bytes → Prop
  | alone {gap value gap' : Bytes} (hgap : Blank gap) (hgap' : Blank gap') (hvalue : Trimmed value)
    (hplain : Uncommented value) : IsValue (gap ++ value ++ gap') value
  | commented {gap value gap' : Bytes} (comment : Bytes) (hgap : Blank gap) (hgap' : Blank gap')
    (hvalue : Trimmed value) (hplain : Uncommented value) (hsome : value ≠ []) (hsep : gap' ≠ []) :
    IsValue (gap ++ value ++ gap' ++ chr ';' :: comment) value

/-- A name, an equals sign and a value. A colon serves only if there is no equals sign. -/
inductive IsPair (body : Bytes) : Bytes → Bytes → Prop
  | mk {sep : UInt8} {name gap after value : Bytes}
    (hsep : sep = chr '=' ∨ sep = chr ':' ∧ ∀ before after, ¬ SplitAt (chr '=') body before after)
    (hsplit : SplitAt sep body (name ++ gap) after) (hgap : Blank gap)
    (hname : name.getLast?.any isspace = false) (hvalue : IsValue after value) : IsPair body name value

inductive LineKind where
  | nothing
  | more (text : Bytes)
  | heading (name : Bytes)
  | pair (name value : Bytes)
  deriving DecidableEq, Repr

/-- The section a line is in, and the name whose value it may go on with. -/
structure Context where
  section_ : Bytes
  name : Bytes
  deriving DecidableEq, Repr

/-- The lines there are. -/
inductive IsLine (ctx : Context) (text : Bytes) : LineKind → Prop
  | blank {indent trail : Bytes} (h : Framed text indent [] trail) : IsLine ctx text .nothing
  | comment {indent rest trail : Bytes} {c : UInt8} (h : Framed text indent (c :: rest) trail)
    (hc : c = chr ';' ∨ c = chr '#') : IsLine ctx text .nothing
  | more {indent body trail : Bytes} (h : Framed text indent body trail) (hbody : body ≠ [])
    (hhead : body.head? ∉ [some (chr ';'), some (chr '#')]) (hname : ctx.name ≠ [])
    (hindent : indent ≠ []) : IsLine ctx text (.more body)
  | heading {indent rest trail name after : Bytes}
    (h : Framed text indent (chr '[' :: rest) trail) (hfirst : ctx.name = [] ∨ indent = [])
    (hsplit : SplitAt (chr ']') rest name after) : IsLine ctx text (.heading name)
  | pair {indent body trail name value : Bytes} (h : Framed text indent body trail)
    (hbody : body ≠ []) (hhead : body.head? ∉ [some (chr ';'), some (chr '#'), some (chr '[')])
    (hfirst : ctx.name = [] ∨ indent = []) (hpair : IsPair body name value) :
    IsLine ctx text (.pair name value)

/-! ## The parser's decision -/

/-- A pair, if there is a separator. -/
def pairOf (start : Bytes) : Option LineKind :=
  let found := findCharOrComment (chr '=') false start
  let found :=
    if found.2.head? = some (chr '=') then found else findCharOrComment (chr ':') false start
  match found with
  | (name, sep :: value) =>
    if sep = chr '=' || sep = chr ':' then
      some (.pair (rstrip name) (rstrip (findCharOrComment 0 false (lskip value)).1))
    else none
  | (_, []) => none

def headingOf (rest : Bytes) : Option LineKind :=
  let (name, end_) := findCharOrComment (chr ']') false rest
  if end_.head? = some (chr ']') then some (.heading name) else none

def lineOf (ctx : Context) (text : Bytes) : Option LineKind :=
  let stripped := rstrip text
  let start := lskip stripped
  match start with
  | [] => some .nothing
  | c :: rest =>
    if c = chr ';' || c = chr '#' then some .nothing
    else if ctx.name ≠ [] && start.length < stripped.length then some (.more start)
    else if c = chr '[' then headingOf rest
    else pairOf start

/-! ## White space -/

theorem lskip_append {gap s : Bytes} (hgap : Blank gap) : lskip (gap ++ s) = lskip s := by
  rw [lskip, List.dropWhile_append_of_pos hgap]
  rfl

theorem rstrip_append {gap s : Bytes} (hgap : Blank gap) : rstrip (s ++ gap) = rstrip s := by
  induction gap using List.reverseRecOn with
  | nil => rw [List.append_nil]
  | append_singleton gap b ih =>
    have hb : isspace b = true := hgap b (by simp)
    rw [rstrip, ← List.append_assoc, List.rdropWhile_concat_pos _ _ _ hb]
    exact ih fun x hx => hgap x (by simp [hx])

theorem exists_lskip (s : Bytes) :
    ∃ gap, Blank gap ∧ s = gap ++ lskip s ∧ (lskip s).head?.any isspace = false := by
  refine ⟨s.takeWhile isspace, fun b hb => List.mem_takeWhile_imp hb,
    List.takeWhile_append_dropWhile.symm, ?_⟩
  cases hrest : lskip s with
  | nil => rfl
  | cons b rest =>
    have hne : s.dropWhile isspace ≠ [] := by
      intro h
      rw [lskip, h] at hrest
      cases hrest
    have hhead := List.head_dropWhile_not isspace hne
    simp only [lskip] at hrest
    simpa [hrest] using hhead

theorem exists_rstrip (s : Bytes) :
    ∃ gap, Blank gap ∧ s = rstrip s ++ gap ∧ (rstrip s).getLast?.any isspace = false := by
  induction s using List.reverseRecOn with
  | nil => exact ⟨[], by simp [Blank], rfl, rfl⟩
  | append_singleton s b ih =>
    cases hb : isspace b with
    | true =>
      have hstrip : rstrip (s ++ [b]) = rstrip s := rstrip_append (by simpa [Blank] using hb)
      obtain ⟨gap, hgap, heq, hlast⟩ := ih
      refine ⟨gap ++ [b], ?_, ?_, by rw [hstrip]; exact hlast⟩
      · intro x hx
        rcases List.mem_append.mp hx with hx | hx
        · exact hgap x hx
        · rw [List.mem_singleton.mp hx]
          exact hb
      · rw [hstrip, ← List.append_assoc, ← heq]
    | false =>
      have hstrip : rstrip (s ++ [b]) = s ++ [b] := rstrip_of_last (by simp [hb])
      exact ⟨[], by simp [Blank], by rw [hstrip, List.append_nil], by rw [hstrip]; simp [hb]⟩

/-- The frame of a line is found. -/
theorem Framed.strip {text indent body trail : Bytes} (h : Framed text indent body trail) :
    lskip (rstrip text) = body ∧ (body ≠ [] → rstrip text = indent ++ body) := by
  have hstrip : rstrip text = rstrip (indent ++ body) := by rw [h.eq, rstrip_append h.trail]
  by_cases hbody : body = []
  · subst hbody
    have hempty : rstrip text = [] := by
      have hblank := rstrip_append (s := []) h.indent
      rw [hstrip, List.append_nil]
      exact hblank
    exact ⟨by rw [hempty]; rfl, fun hne => absurd rfl hne⟩
  · have hlast : (indent ++ body).getLast?.any isspace = false := by
      rw [List.getLast?_append_of_ne_nil _ hbody]
      exact h.body.last
    rw [hstrip, rstrip_of_last hlast, lskip_append h.indent, lskip_of_head h.body.first]
    exact ⟨rfl, fun _ => rfl⟩

theorem exists_framed (text : Bytes) :
    ∃ indent trail, Framed text indent (lskip (rstrip text)) trail ∧
      rstrip text = indent ++ lskip (rstrip text) := by
  obtain ⟨trail, htrail, htext, hlast⟩ := exists_rstrip text
  obtain ⟨indent, hindent, hstrip, hhead⟩ := exists_lskip (rstrip text)
  refine ⟨indent, trail, ⟨by rw [← hstrip, ← htext], hindent, htrail, hhead, ?_⟩, hstrip⟩
  by_cases hbody : lskip (rstrip text) = []
  · rw [hbody]
    rfl
  · rw [hstrip, List.getLast?_append_of_ne_nil _ hbody] at hlast
    exact hlast

/-! ## `find_char_or_comment` -/

/-- Whether white space stands before what comes next. -/
def blankBefore (wasWhitespace : Bool) (s : Bytes) : Bool :=
  s.foldl (fun _ b => isspace b) wasWhitespace

/-- What is skipped has neither the character nor the start of a comment in it, and one of them is
next. -/
theorem findCharOrComment_spec (c : UInt8) (s : Bytes) (wasWhitespace : Bool)
    {before rest : Bytes} (h : findCharOrComment c wasWhitespace s = (before, rest)) :
    s = before ++ rest ∧ c ∉ before ∧ Uncommented before ∧
      (wasWhitespace = true → before.head? ≠ some (chr ';')) ∧
      (rest = [] ∨ rest.head? = some c ∨
        rest.head? = some (chr ';') ∧ blankBefore wasWhitespace before = true) := by
  induction s generalizing wasWhitespace before rest with
  | nil =>
    cases h
    simp [Uncommented]
  | cons b s ih =>
    rw [findCharOrComment] at h
    split at h
    · cases h
      rename_i hstop
      simp only [Bool.or_eq_true, decide_eq_true_eq, Bool.and_eq_true] at hstop
      refine ⟨rfl, by simp, by simp [Uncommented], by simp, Or.inr ?_⟩
      rcases hstop with rfl | ⟨hblank, rfl⟩
      · exact Or.inl rfl
      · exact Or.inr ⟨rfl, hblank⟩
    · rename_i hgo
      simp only [Bool.or_eq_true, decide_eq_true_eq, Bool.and_eq_true, not_or, not_and] at hgo
      cases h
      obtain ⟨hs, hmem, hplain, hhead, hend⟩ := ih (isspace b) (Prod.eta _).symm
      refine ⟨by rw [List.cons_append, ← hs], ?_, ?_, ?_, hend⟩
      · rw [List.mem_cons, not_or]
        exact ⟨Ne.symm hgo.1, hmem⟩
      · refine List.isChain_cons.mpr ⟨?_, hplain⟩
        intro d hd hcomment
        exact hhead hcomment.1 (hcomment.2 ▸ Option.mem_def.mp hd)
      · intro hblank heq
        exact hgo.2 hblank (Option.some.inj heq)

/-- It goes on through what has nothing to stop it. -/
theorem findCharOrComment_append {c : UInt8} {s : Bytes} {wasWhitespace : Bool}
    (h : findCharOrComment c wasWhitespace s = (s, [])) (rest : Bytes) :
    findCharOrComment c wasWhitespace (s ++ rest) =
      ((s ++ (findCharOrComment c (blankBefore wasWhitespace s) rest).1),
        (findCharOrComment c (blankBefore wasWhitespace s) rest).2) := by
  induction s generalizing wasWhitespace with
  | nil => rfl
  | cons b s ih =>
    rw [findCharOrComment] at h
    split at h
    · cases h
    · rename_i hgo
      have hrest : findCharOrComment c (isspace b) s = (s, []) := by
        simpa [Prod.ext_iff] using h
      rw [List.cons_append, findCharOrComment, if_neg hgo, ih hrest]
      rfl

theorem splitAt_iff {c : UInt8} {s before after : Bytes} :
    SplitAt c s before after ↔ findCharOrComment c false s = (before, c :: after) := by
  constructor
  · rintro ⟨rfl, hmem, hplain⟩
    exact findCharOrComment_of_plain (Or.inr rfl) false hmem hplain (by simp)
  · intro h
    obtain ⟨hs, hmem, hplain, -, -⟩ := findCharOrComment_spec c s false h
    exact ⟨hs, hmem, hplain⟩

theorem not_splitAt_iff {c : UInt8} {s : Bytes} :
    (∀ before after, ¬ SplitAt c s before after) ↔
      (findCharOrComment c false s).2.head? ≠ some c := by
  constructor
  · intro h hhead
    obtain ⟨after, hafter⟩ := List.head?_eq_some_iff.mp hhead
    exact h (findCharOrComment c false s).1 after (splitAt_iff.mpr (by rw [← hafter]))
  · intro h before after hsplit
    rw [splitAt_iff.mp hsplit] at h
    exact h rfl

/-! ## Values and pairs -/

theorem blankBefore_append (wasWhitespace : Bool) (s : Bytes) (b : UInt8) :
    blankBefore wasWhitespace (s ++ [b]) = isspace b := by
  simp [blankBefore]

theorem blankBefore_blank {gap : Bytes} (hgap : Blank gap) (hne : gap ≠ []) (w : Bool) (s : Bytes) :
    blankBefore w (s ++ gap) = true := by
  have hlast := List.dropLast_concat_getLast hne
  rw [← hlast, ← List.append_assoc, blankBefore_append]
  exact hgap _ (List.getLast_mem hne)

theorem Uncommented.append_blank {s gap : Bytes} (hs : Uncommented s) (hgap : Blank gap) :
    Uncommented (s ++ gap) := by
  have hsemi : isspace (chr ';') ≠ true := by decide
  refine List.isChain_append.mpr ⟨hs, ?_, ?_⟩
  · induction gap with
    | nil => exact List.IsChain.nil
    | cons b gap ih =>
      refine List.isChain_cons.mpr ⟨?_, ih fun x hx => hgap x (List.mem_cons_of_mem b hx)⟩
      intro d hd hcomment
      have hmem : d ∈ gap := List.mem_of_mem_head? hd
      exact hsemi (hcomment.2 ▸ hgap d (List.mem_cons_of_mem b hmem))
  · intro a _ d hd hcomment
    exact hsemi (hcomment.2 ▸ hgap d (List.mem_of_mem_head? hd))

theorem Uncommented.of_append {s t : Bytes} (h : Uncommented (s ++ t)) : Uncommented s :=
  (List.isChain_append.mp h).1

/-- A value that something follows is skipped to. -/
theorem lskip_value {gap value rest : Bytes} (hgap : Blank gap) (hvalue : Trimmed value)
    (hsome : value ≠ []) : lskip (gap ++ (value ++ rest)) = value ++ rest := by
  rw [lskip_append hgap]
  apply lskip_of_head
  rw [List.head?_append_of_ne_nil _ hsome]
  exact hvalue.first

theorem isValue_iff {after value : Bytes} (hnul : 0 ∉ after) :
    IsValue after value ↔ value = rstrip (findCharOrComment 0 false (lskip after)).1 := by
  constructor
  · intro h
    cases h with
    | alone hgap hgap' hvalue hplain =>
      rename_i gap gap'
      have hskip : lskip (gap ++ value ++ gap') = lskip (value ++ gap') := by
        rw [List.append_assoc, lskip_append hgap]
      by_cases hsome : value = []
      · subst hsome
        have hempty : lskip ([] ++ gap') = [] := by
          have hblank := lskip_append (s := []) hgap'
          rwa [List.append_nil] at hblank
        rw [hskip, hempty]
        rfl
      · have hmem : 0 ∉ value ++ gap' := fun h => hnul (by simp_all)
        have hfind := findCharOrComment_of_plain (c := 0) (Or.inl rfl) false hmem
          (hplain.append_blank hgap') (by simp)
        rw [List.append_assoc, lskip_value hgap hvalue hsome]
        rw [List.append_nil] at hfind
        rw [hfind, rstrip_append hgap', rstrip_of_last hvalue.last]
    | commented comment hgap hgap' hvalue hplain hsome hsep =>
      rename_i gap gap'
      have hmem : 0 ∉ value ++ gap' := fun h => hnul (by simp_all)
      have hfind := findCharOrComment_of_plain (c := 0) (Or.inl rfl) false hmem
        (hplain.append_blank hgap') (by simp)
      rw [List.append_nil] at hfind
      have hstop : findCharOrComment 0 true (chr ';' :: comment) = ([], chr ';' :: comment) := by
        simp [findCharOrComment]
      have hassoc : gap ++ value ++ gap' ++ chr ';' :: comment =
          gap ++ (value ++ (gap' ++ chr ';' :: comment)) := by simp
      rw [hassoc, lskip_value hgap hvalue hsome, ← List.append_assoc,
        findCharOrComment_append hfind, blankBefore_blank hgap' hsep, hstop, List.append_nil,
        rstrip_append hgap', rstrip_of_last hvalue.last]
  · rintro rfl
    obtain ⟨gap, hgap, hafter, hhead⟩ := exists_lskip after
    cases hfind : findCharOrComment 0 false (lskip after) with
    | mk before rest =>
      obtain ⟨hskip, -, hplain, -, hend⟩ := findCharOrComment_spec 0 _ false hfind
      obtain ⟨gap', hgap', hbefore, hlast⟩ := exists_rstrip before
      have hvalue : Trimmed (rstrip before) := by
        refine ⟨?_, hlast⟩
        by_cases hempty : rstrip before = []
        · rw [hempty]
          rfl
        · rw [hskip, hbefore, List.append_assoc, List.head?_append_of_ne_nil _ hempty] at hhead
          exact hhead
      have hplain : Uncommented (rstrip before) := by
        rw [hbefore] at hplain
        exact hplain.of_append
      have hdecomposed : after = gap ++ rstrip before ++ gap' ++ rest := by
        calc after = gap ++ lskip after := hafter
          _ = gap ++ (before ++ rest) := by rw [hskip]
          _ = gap ++ ((rstrip before ++ gap') ++ rest) := by rw [← hbefore]
          _ = gap ++ rstrip before ++ gap' ++ rest := by simp
      rcases hend with rfl | hnulHead | ⟨hsemi, hblank⟩
      · rw [List.append_nil] at hdecomposed
        rw [hdecomposed]
        exact .alone hgap hgap' hvalue hplain
      · have hmem : (0 : UInt8) ∈ rest := List.mem_of_mem_head? hnulHead
        exact absurd (hdecomposed ▸ List.mem_append_right _ hmem) hnul
      · -- White space stands before the semicolon, and not at the start: that was skipped.
        obtain ⟨comment, rfl⟩ := List.head?_eq_some_iff.mp hsemi
        have hsome : rstrip before ≠ [] := by
          intro hempty
          rw [hempty, List.nil_append] at hbefore
          cases hgap'' : gap' with
          | nil =>
            rw [hbefore, hgap''] at hblank
            cases hblank
          | cons b rest' =>
            rw [hskip, hbefore, hgap''] at hhead
            have hb : isspace b = true := hgap' b (by rw [hgap'']; simp)
            simp [hb] at hhead
        have hsep : gap' ≠ [] := by
          rintro rfl
          rw [List.append_nil] at hbefore
          rw [← hbefore] at hlast hsome
          have hends := List.dropLast_concat_getLast hsome
          rw [← hends, blankBefore_append] at hblank
          rw [List.getLast?_eq_some_getLast hsome] at hlast
          simp [hblank] at hlast
        rw [hdecomposed]
        exact .commented comment hgap hgap' hvalue hplain hsome hsep

/-- A pair at this separator. -/
theorem rstrip_name_iff {before name : Bytes} :
    (∃ gap, before = name ++ gap ∧ Blank gap ∧ name.getLast?.any isspace = false) ↔
      name = rstrip before := by
  constructor
  · rintro ⟨gap, rfl, hgap, hlast⟩
    rw [rstrip_append hgap, rstrip_of_last hlast]
  · rintro rfl
    obtain ⟨gap, hgap, hbefore, hlast⟩ := exists_rstrip before
    exact ⟨gap, hbefore, hgap, hlast⟩

/-- Where the parser divides a line that may be a pair: at an equals sign, else at a colon. -/
def separator (start : Bytes) : UInt8 :=
  if (findCharOrComment (chr '=') false start).2.head? = some (chr '=') then chr '=' else chr ':'

theorem separator_iff {start : Bytes} {sep : UInt8} {before after : Bytes}
    (h : SplitAt sep start before after) :
    (sep = chr '=' ∨ sep = chr ':' ∧ ∀ before after, ¬ SplitAt (chr '=') start before after) ↔
      sep = separator start := by
  rw [not_splitAt_iff, separator]
  split
  · rename_i hequals
    refine ⟨?_, Or.inl⟩
    rintro (hsep | ⟨-, hnone⟩)
    · exact hsep
    · exact absurd hequals hnone
  · rename_i hnone
    refine ⟨?_, fun hsep => Or.inr ⟨hsep, hnone⟩⟩
    rintro (rfl | ⟨hsep, -⟩)
    · rw [splitAt_iff.mp h] at hnone
      exact absurd rfl hnone
    · exact hsep

theorem pairOf_eq_some_iff {start : Bytes} {kind : LineKind} :
    pairOf start = some kind ↔ ∃ before after,
      findCharOrComment (separator start) false start = (before, separator start :: after) ∧
        kind = .pair (rstrip before) (rstrip (findCharOrComment 0 false (lskip after)).1) := by
  by_cases hequals : (findCharOrComment (chr '=') false start).2.head? = some (chr '=')
  · have hsep : separator start = chr '=' := if_pos hequals
    obtain ⟨value, hvalue⟩ := List.head?_eq_some_iff.mp hequals
    obtain ⟨name, hname⟩ : ∃ name, findCharOrComment (chr '=') false start = (name, chr '=' :: value) :=
      ⟨_, Prod.ext rfl hvalue⟩
    simp [pairOf, hsep, hname, eq_comm]
  · have hsep : separator start = chr ':' := if_neg hequals
    cases hfind : findCharOrComment (chr ':') false start with
    | mk name rest =>
      cases rest with
      | nil => simp [pairOf, hsep, hequals, hfind]
      | cons sep value =>
        obtain ⟨-, -, -, -, hend⟩ := findCharOrComment_spec _ start false hfind
        -- The other thing the search stops at is a comment.
        rcases hend with hnone | hcolon | ⟨hsemi, -⟩
        · cases hnone
        · obtain rfl : sep = chr ':' := Option.some.inj hcolon
          simp [pairOf, hsep, hequals, hfind, eq_comm]
        · obtain rfl : sep = chr ';' := Option.some.inj hsemi
          have hequals' : chr ';' ≠ chr '=' := by decide
          have hcolon' : chr ';' ≠ chr ':' := by decide
          simp [pairOf, hsep, hequals, hfind, hequals', hcolon']

theorem isPair_iff {start : Bytes} (hnul : 0 ∉ start) {name value : Bytes} :
    IsPair start name value ↔ pairOf start = some (.pair name value) := by
  rw [pairOf_eq_some_iff]
  constructor
  · rintro ⟨hsep, hsplit, hgap, hname, hvalue⟩
    rename_i sep gap after
    have hafter : 0 ∉ after := fun h => hnul (by rw [hsplit.eq]; simp [h])
    obtain rfl := (separator_iff hsplit).mp hsep
    refine ⟨name ++ gap, after, splitAt_iff.mp hsplit, ?_⟩
    rw [← (isValue_iff hafter).mp hvalue, ← rstrip_name_iff.mp ⟨gap, rfl, hgap, hname⟩]
  · rintro ⟨before, after, hfind, hkind⟩
    have hsplit := splitAt_iff.mpr hfind
    have hafter : 0 ∉ after := fun h => hnul (by rw [hsplit.eq]; simp [h])
    obtain ⟨hname, hvalue⟩ := LineKind.pair.inj hkind
    obtain ⟨gap, hbefore, hgap, hlast⟩ := rstrip_name_iff.mpr hname
    exact ⟨(separator_iff hsplit).mpr rfl, hbefore ▸ hsplit, hgap, hlast,
      (isValue_iff hafter).mpr hvalue⟩

/-! ## Lines -/

theorem headingOf_eq_some_iff {rest : Bytes} {kind : LineKind} :
    headingOf rest = some kind ↔
      ∃ name after, SplitAt (chr ']') rest name after ∧ kind = .heading name := by
  simp only [splitAt_iff]
  cases hfind : findCharOrComment (chr ']') false rest with
  | mk name end_ =>
    simp only [headingOf, hfind, Prod.mk.injEq]
    constructor
    · intro h
      split at h
      · rename_i hhead
        obtain ⟨after, hafter⟩ := List.head?_eq_some_iff.mp hhead
        exact ⟨name, after, ⟨rfl, hafter⟩, (Option.some.inj h).symm⟩
      · cases h
    · rintro ⟨name, after, ⟨rfl, rfl⟩, rfl⟩
      rfl

/-- A pair is all `pairOf` gives. -/
theorem exists_pair {start : Bytes} {kind : LineKind} (h : pairOf start = some kind) :
    ∃ name value, kind = .pair name value := by
  obtain ⟨before, after, -, hkind⟩ := pairOf_eq_some_iff.mp h
  exact ⟨_, _, hkind⟩

theorem Framed.notMem {text indent body trail : Bytes} (h : Framed text indent body trail)
    (hnul : 0 ∉ text) : 0 ∉ body := by
  intro hmem
  rw [h.eq] at hnul
  exact hnul (List.mem_append_left _ (List.mem_append_right _ hmem))

section

variable (ctx : Context) {text indent trail : Bytes}

theorem lineOf_blank (h : Framed text indent [] trail) : lineOf ctx text = some .nothing := by
  simp [lineOf, h.strip.1]

theorem lineOf_of_lskip {c : UInt8} {rest : Bytes} (h : lskip (rstrip text) = c :: rest) :
    lineOf ctx text =
      if c = chr ';' ∨ c = chr '#' then some .nothing
      else if ctx.name ≠ [] ∧ (c :: rest).length < (rstrip text).length then some (.more (c :: rest))
      else if c = chr '[' then headingOf rest
      else pairOf (c :: rest) := by
  simp only [lineOf, h, Bool.or_eq_true, decide_eq_true_eq, Bool.and_eq_true]

/-- The decision in terms of the frame. -/
theorem lineOf_framed {c : UInt8} {rest : Bytes} (h : Framed text indent (c :: rest) trail) :
    lineOf ctx text =
      if c = chr ';' ∨ c = chr '#' then some .nothing
      else if ctx.name ≠ [] ∧ indent ≠ [] then some (.more (c :: rest))
      else if c = chr '[' then headingOf rest
      else pairOf (c :: rest) := by
  obtain ⟨hskip, hstrip⟩ := h.strip
  have hlonger : (c :: rest).length < (rstrip text).length ↔ indent ≠ [] := by
    rw [hstrip (by simp), List.length_append, ← List.length_pos_iff]
    omega
  simp only [lineOf_of_lskip ctx hskip, hlonger]

end

theorem IsLine.lineOf_eq {ctx : Context} {text : Bytes} (hnul : 0 ∉ text) {kind : LineKind}
    (h : IsLine ctx text kind) : lineOf ctx text = some kind := by
  cases h with
  | blank h => exact lineOf_blank ctx h
  | comment h hc => rw [lineOf_framed ctx h, if_pos hc]
  | more h hbody hhead hname hindent =>
    obtain ⟨c, rest, rfl⟩ := List.exists_cons_of_ne_nil hbody
    have hc : ¬ (c = chr ';' ∨ c = chr '#') := by simpa using hhead
    rw [lineOf_framed ctx h, if_neg hc, if_pos ⟨hname, hindent⟩]
  | heading h hfirst hsplit =>
    have hc : ¬ (chr '[' = chr ';' ∨ chr '[' = chr '#') := by decide
    rw [lineOf_framed ctx h, if_neg hc, if_neg fun hmore => hfirst.elim hmore.1 hmore.2, if_pos rfl]
    exact headingOf_eq_some_iff.mpr ⟨_, _, hsplit, rfl⟩
  | pair h hbody hhead hfirst hpair =>
    obtain ⟨c, rest, rfl⟩ := List.exists_cons_of_ne_nil hbody
    simp only [List.head?_cons, List.mem_cons, Option.some.injEq, List.not_mem_nil, or_false,
      not_or] at hhead
    rw [lineOf_framed ctx h, if_neg fun hc => hc.elim hhead.1 hhead.2.1,
      if_neg fun hmore => hfirst.elim hmore.1 hmore.2, if_neg hhead.2.2]
    exact (isPair_iff (h.notMem hnul)).mp hpair

/-- **The parser decides as the grammar does.** -/
theorem lineOf_eq_some_iff {ctx : Context} {text : Bytes} (hnul : 0 ∉ text) {kind : LineKind} :
    lineOf ctx text = some kind ↔ IsLine ctx text kind := by
  refine ⟨fun h => ?_, fun h => h.lineOf_eq hnul⟩
  obtain ⟨indent, trail, hframed, -⟩ := exists_framed text
  cases hbody : lskip (rstrip text) with
  | nil =>
    rw [hbody] at hframed
    rw [lineOf_blank ctx hframed] at h
    cases h
    exact .blank hframed
  | cons c rest =>
    rw [hbody] at hframed
    rw [lineOf_framed ctx hframed] at h
    split_ifs at h with hc hmore hheading
    · cases h
      exact .comment hframed hc
    · cases h
      exact .more hframed (by simp) (by simpa using hc) hmore.1 hmore.2
    · subst hheading
      obtain ⟨name, after, hsplit, rfl⟩ := headingOf_eq_some_iff.mp h
      exact .heading hframed (by tauto) hsplit
    · obtain ⟨name, value, rfl⟩ := exists_pair h
      have hpair := (isPair_iff (hframed.notMem hnul)).mpr h
      exact .pair hframed (by simp) (by simpa [hheading] using hc) (by tauto) hpair

end ServerTest.Configuration
