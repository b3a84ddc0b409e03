/-
Cutting SQL with named parameters.

What the cutting does is told without it: five forms of verbatim blocks are tried in order where
a text starts, a block ends at the first occurrence of what closes it, a parameter is a colon
with the longest run of name characters after it, and any other character stands for itself. A
text is scanned from the left by these rules until it is used up or nothing can be cut.

The cutting and the scan agree on every text, in what they give and in where they stop. The
induction is on the text, by the cutting's own recursion; what the rules say of one segment is
what the cutting does with it.
-/
import RowMapping.Query.Named
import Mathlib.Data.List.TakeWhile

set_option autoImplicit false

namespace RowMapping

namespace NamedSql

/-! ## Blocks -/

/-- A form of verbatim blocks. -/
structure BlockForm where
  opening : List Char
  closing : List Char
  /-- Whether the end of the text closes a block, too. -/
  openEnded : Bool

/-- The forms of verbatim blocks, in the order in which they are tried. -/
def blockForms : List BlockForm :=
  [⟨['\''], ['\''], false⟩,
   ⟨['"'], ['"'], false⟩,
   ⟨['/', '*'], ['*', '/'], false⟩,
   ⟨[':', ':'], [], false⟩,
   ⟨['-', '-'], ['\n'], true⟩]

/-- The form of the block that a text starts with. -/
def blockForm? (cs : List Char) : Option BlockForm :=
  blockForms.find? fun form => form.opening.isPrefixOf cs

/-- A text goes up to the first occurrence of `closing` in `rest`, which it includes. -/
def EndsAtFirst (closing body rest : List Char) : Prop :=
  body <+: rest ∧ ∃ before, body = before ++ closing ∧
    ∀ i < before.length, ¬ closing <+: rest.drop i

/-- What may stand in a block after its opening, and what then follows the block. -/
def BlockForm.Holds (form : BlockForm) (body after : List Char) : Prop :=
  EndsAtFirst form.closing body (body ++ after) ∨
    form.openEnded = true ∧ after = [] ∧ ¬ form.closing <:+: body

theorem takeThrough_eq_some_iff {closing rest body : List Char} :
    takeThrough closing rest = some body ↔ EndsAtFirst closing body rest := by
  induction rest generalizing body with
  | nil =>
    simp only [takeThrough, EndsAtFirst, List.prefix_nil, List.drop_nil, List.isEmpty_iff]
    constructor
    · intro h
      split at h
      · next hclosing =>
        cases h
        exact ⟨rfl, [], by simp [hclosing], by simp⟩
      · cases h
    · rintro ⟨rfl, before, hbody, -⟩
      have hclosing : closing = [] := (List.append_eq_nil_iff.mp hbody.symm).2
      rw [if_pos hclosing]
  | cons c rest ih =>
    rw [takeThrough]
    -- the first place where it closes is here, or it is the first within the rest
    by_cases hhere : closing <+: c :: rest
    · rw [if_pos (List.isPrefixOf_iff_prefix.mpr hhere), Option.some.injEq]
      constructor
      · rintro rfl
        exact ⟨hhere, [], rfl, by simp⟩
      · rintro ⟨-, before, rfl, hfirst⟩
        cases before with
        | nil => rfl
        | cons b before => exact absurd hhere (hfirst 0 (by simp))
    · rw [if_neg (mt List.isPrefixOf_iff_prefix.mp hhere), Option.map_eq_some_iff]
      constructor
      · rintro ⟨body, hbody, rfl⟩
        obtain ⟨hstart, before, rfl, hfirst⟩ := ih.mp hbody
        refine ⟨List.cons_prefix_cons.mpr ⟨rfl, hstart⟩, c :: before, rfl, fun i hi => ?_⟩
        cases i with
        | zero => exact hhere
        | succ i => exact hfirst i (by simpa using hi)
      · rintro ⟨hstart, before, rfl, hfirst⟩
        cases before with
        | nil => exact absurd hstart hhere
        | cons b before =>
          obtain ⟨rfl, hrest⟩ := List.cons_prefix_cons.mp hstart
          exact ⟨before ++ closing, ih.mpr ⟨hrest, before, rfl, fun i hi =>
            hfirst (i + 1) (by simpa using hi)⟩, rfl⟩

theorem takeThrough_eq_none_iff {closing rest : List Char} :
    takeThrough closing rest = none ↔ ¬ closing <:+: rest := by
  induction rest with
  | nil => simp [takeThrough]
  | cons c rest ih =>
    rw [takeThrough, List.infix_cons_iff]
    by_cases hhere : closing <+: c :: rest
    · simp [hhere]
    · simp [hhere, ih]

/-- What a block of a form holds after its opening. -/
def BlockForm.body? (form : BlockForm) (rest : List Char) : Option (List Char) :=
  (takeThrough form.closing rest).or (if form.openEnded then some rest else none)

theorem BlockForm.body?_eq_some_iff {form : BlockForm} {rest body : List Char} :
    form.body? rest = some body ↔ ∃ after, rest = body ++ after ∧ form.Holds body after := by
  rw [body?]
  cases htake : takeThrough form.closing rest with
  | some found =>
    have hfound := takeThrough_eq_some_iff.mp htake
    simp only [Option.or, Option.some.injEq]
    constructor
    · rintro rfl
      obtain ⟨after, rfl⟩ := hfound.1
      exact ⟨after, rfl, .inl hfound⟩
    · rintro ⟨after, rfl, hfirst | ⟨-, rfl, hmissing⟩⟩
      · exact Option.some.inj (htake.symm.trans (takeThrough_eq_some_iff.mpr hfirst))
      · rw [List.append_nil] at htake
        exact absurd (takeThrough_eq_none_iff.mpr hmissing) (by simp [htake])
  | none =>
    -- without its end, a form that may stay open takes all the rest
    have hmissing := takeThrough_eq_none_iff.mp htake
    simp only [Option.or, ite_eq_iff, Option.some.injEq, reduceCtorEq, and_false, or_false]
    constructor
    · rintro ⟨hopen, rfl⟩
      exact ⟨[], by simp, .inr ⟨hopen, rfl, hmissing⟩⟩
    · rintro ⟨after, rfl, hfirst | ⟨hopen, rfl, -⟩⟩
      · exact absurd (takeThrough_eq_some_iff.mpr hfirst) (by simp [htake])
      · exact ⟨hopen, by simp⟩

theorem BlockForm.body?_eq_none_iff {form : BlockForm} {rest : List Char} :
    form.body? rest = none ↔ form.openEnded = false ∧ ¬ form.closing <:+: rest := by
  rw [body?, Option.or_eq_none_iff, takeThrough_eq_none_iff, and_comm]
  simp

/-! ## The rules -/

/-- A character that may stand in a name: a letter or digit of ASCII, or an underscore. -/
def InName (c : Char) : Prop :=
  'A' ≤ c ∧ c ≤ 'Z' ∨ 'a' ≤ c ∧ c ≤ 'z' ∨ '0' ≤ c ∧ c ≤ '9' ∨ c = '_'

/-- A text starts with a segment and goes on with `after`. -/
inductive Lexeme : List Char → SqlSegment → List Char → Prop
  | block {cs body after : List Char} {form : BlockForm} {first : Char} {rest : List Char} :
      blockForm? cs = some form → cs = form.opening ++ body ++ after → form.Holds body after →
      first :: rest = form.opening ++ body → Lexeme cs (.block first rest) after
  | parameter {name after : List Char} :
      blockForm? (':' :: (name ++ after)) = none → name ≠ [] → (∀ c ∈ name, InName c) →
      (∀ c ∈ after.head?, ¬ InName c) → Lexeme (':' :: (name ++ after)) (.parameter name) after
  | plain {c : Char} {after : List Char} :
      blockForm? (c :: after) = none → c ≠ ':' → c ≠ '?' → Lexeme (c :: after) (.plain c) after

/-- Nothing can be cut where a text starts. -/
inductive Stuck : List Char → NamedSqlCause → Prop
  | unclosed {cs : List Char} {form : BlockForm} :
      blockForm? cs = some form → form.openEnded = false →
      ¬ form.closing <:+: cs.drop form.opening.length →
      Stuck cs (.unclosed (String.ofList form.closing))
  | namelessParameter {rest : List Char} :
      blockForm? (':' :: rest) = none → (∀ c ∈ rest.head?, ¬ InName c) →
      Stuck (':' :: rest) .namelessParameter
  | placeholder {rest : List Char} : Stuck ('?' :: rest) .placeholder

/-- A text is cut into segments from the left, as far as `rest`. -/
inductive Scans : List Char → List SqlSegment → List Char → Prop
  | start (cs : List Char) : Scans cs [] cs
  | step {cs mid rest : List Char} {part : SqlSegment} {parts : List SqlSegment} :
      Lexeme cs part mid → Scans mid parts rest → Scans cs (part :: parts) rest

theorem isNameChar_iff {c : Char} : isNameChar c = true ↔ InName c := by
  have htests : isNameChar c = (decide ('A' ≤ c ∧ c ≤ 'Z') ||
      decide ('a' ≤ c) && decide (c ≤ 'z') || decide ('0' ≤ c) && decide (c ≤ '9') ||
      c == '_') := rfl
  rw [htests]
  simp only [InName, Bool.or_eq_true, Bool.and_eq_true, decide_eq_true_eq, beq_iff_eq, or_assoc]

/-- A text starts with the characters its first segment was cut from. -/
theorem Lexeme.source_append {cs after : List Char} {part : SqlSegment}
    (h : Lexeme cs part after) : cs = part.source ++ after := by
  cases h with
  | block _ htext _ hsource => rw [htext, ← hsource, SqlSegment.source]
  | parameter => rfl
  | plain => rfl

/-- A scan loses no character of the text. -/
theorem Scans.source_append {cs rest : List Char} {parts : List SqlSegment}
    (h : Scans cs parts rest) : cs = parts.flatMap SqlSegment.source ++ rest := by
  induction h with
  | start => rfl
  | step hpart _ ih =>
    rw [hpart.source_append, List.flatMap_cons, List.append_assoc, ← ih]

/-! ## Cutting by the rules -/

/-- No block starts at a character that is no quote, slash, colon or dash, or that is not
followed by what its block needs. -/
theorem blockForm?_eq_none_iff {c : Char} {rest : List Char} :
    blockForm? (c :: rest) = none ↔ c ≠ '\'' ∧ c ≠ '"' ∧ ¬ ['/', '*'] <+: c :: rest ∧
      ¬ [':', ':'] <+: c :: rest ∧ ¬ ['-', '-'] <+: c :: rest := by
  simp only [blockForm?, blockForms, List.find?_eq_none, List.forall_mem_cons,
    List.isPrefixOf_iff_prefix, List.not_mem_nil, false_implies, implies_true, and_true,
    List.cons_prefix_cons, List.nil_prefix, ne_comm, ne_eq]

/-- A block that must be closed is cut as its form says. -/
theorem closedBlock_eq (first : Char) (opening closing rest : List Char) :
    closedBlock first opening closing rest =
      match BlockForm.body? ⟨first :: opening, closing, false⟩ rest with
      | some body => .ok (.block first (opening ++ body))
      | none => .error (.unclosed (String.ofList closing)) := by
  rw [closedBlock, BlockForm.body?]
  cases takeThrough closing rest <;> rfl

/-- A comment up to the end of its line is cut as its form says. -/
theorem lineComment_eq (rest : List Char) :
    Except.ok (lineComment rest) =
      match BlockForm.body? ⟨['-', '-'], ['\n'], true⟩ rest with
      | some body => .ok (.block '-' (['-'] ++ body))
      | none => .error (NamedSqlCause.unclosed "\n") := by
  rw [lineComment, BlockForm.body?]
  cases takeThrough ['\n'] rest <;> rfl

/-- The tests of the cutting, in terms of the table of block forms. -/
theorem segment_eq (c : Char) (rest : List Char) :
    segment c rest = match blockForm? (c :: rest) with
      | some form =>
        match form.body? ((c :: rest).drop form.opening.length) with
        | some body => .ok (.block c (form.opening.tail ++ body))
        | none => .error (.unclosed (String.ofList form.closing))
      | none =>
        if c = ':' then parameter rest
        else if c = '?' then .error .placeholder
        else .ok (.plain c) := by
  fun_cases segment c rest with
  | case1 => exact closedBlock_eq _ _ _ _
  | case2 => exact closedBlock_eq _ _ _ _
  | case3 rest => exact closedBlock_eq _ _ _ rest
  | case4 tail => cases tail <;> rfl
  | case5 rest => exact lineComment_eq rest
  | case6 rest hcast =>
    -- a colon alone is not yet a cast
    have hnone : blockForm? (':' :: rest) = none := by
      refine blockForm?_eq_none_iff.mpr ⟨by decide, by decide, by simp, ?_, by simp⟩
      rintro ⟨tail, htail⟩
      exact hcast tail (List.cons.inj htail).2.symm
    rw [hnone]
    rfl
  | case7 => rfl
  | case8 c rest hquote hdouble hcolon hmark hcomment hcast hdashes =>
    have hnone : blockForm? (c :: rest) = none := by
      refine blockForm?_eq_none_iff.mpr ⟨hquote, hdouble, ?_, ?_, ?_⟩
      · rintro ⟨tail, htail⟩
        exact hcomment tail (List.cons.inj htail).1.symm (List.cons.inj htail).2.symm
      · rintro ⟨tail, htail⟩
        exact hcast tail (List.cons.inj htail).1.symm (List.cons.inj htail).2.symm
      · rintro ⟨tail, htail⟩
        exact hdashes tail (List.cons.inj htail).1.symm (List.cons.inj htail).2.symm
    rw [hnone]
    exact ((if_neg hcolon).trans (if_neg hmark)).symm

/-- A run of name characters that no other follows is what is taken from the start. -/
theorem takeWhile_isNameChar {name after : List Char} (hname : ∀ c ∈ name, InName c)
    (hafter : ∀ c ∈ after.head?, ¬ InName c) : (name ++ after).takeWhile isNameChar = name := by
  rw [List.takeWhile_append_of_pos fun c hc => isNameChar_iff.mpr (hname c hc)]
  cases after with
  | nil => simp
  | cons c rest =>
    have hc : ¬ isNameChar c = true := fun h => hafter c rfl (isNameChar_iff.mp h)
    rw [List.takeWhile_cons_of_neg hc, List.append_nil]

/-- What follows the name characters at the start starts with no other. -/
theorem not_inName_head?_dropWhile (cs : List Char) :
    ∀ c ∈ (cs.dropWhile isNameChar).head?, ¬ InName c := by
  intro c hc h
  have hnot := List.head?_dropWhile_not isNameChar cs
  rw [hc] at hnot
  exact absurd (isNameChar_iff.mpr h) (by simpa using hnot)

/-- The longest run of name characters makes a parameter if there is one. -/
theorem parameter_eq_ok_iff {rest : List Char} {part : SqlSegment} :
    parameter rest = .ok part ↔ ∃ name after, rest = name ++ after ∧ part = .parameter name ∧
      name ≠ [] ∧ (∀ c ∈ name, InName c) ∧ ∀ c ∈ after.head?, ¬ InName c := by
  constructor
  · intro h
    simp only [parameter] at h
    split_ifs at h with hname
    cases h
    exact ⟨rest.takeWhile isNameChar, rest.dropWhile isNameChar,
      List.takeWhile_append_dropWhile.symm, rfl, by simpa using hname,
      fun c hc => isNameChar_iff.mp (List.mem_takeWhile_imp hc), not_inName_head?_dropWhile rest⟩
  · rintro ⟨name, after, rfl, rfl, hne, hname, hafter⟩
    simp [parameter, takeWhile_isNameChar hname hafter, hne]

/-- A colon that no name character follows is no parameter. -/
theorem parameter_eq_error_iff {rest : List Char} {cause : NamedSqlCause} :
    parameter rest = .error cause ↔
      cause = .namelessParameter ∧ ∀ c ∈ rest.head?, ¬ InName c := by
  cases rest with
  | nil => simp [parameter, eq_comm]
  | cons c rest =>
    by_cases hc : isNameChar c = true
    · simp [parameter, hc, isNameChar_iff.mp hc]
    · simp [parameter, hc, mt isNameChar_iff.mpr hc, eq_comm]

/-- The opening of a block is where the text starts. -/
theorem opening_append_drop {cs : List Char} {form : BlockForm} (h : blockForm? cs = some form) :
    form.opening ++ cs.drop form.opening.length = cs := by
  rw [blockForm?] at h
  have hstart := List.find?_some h
  exact List.prefix_iff_eq_append.mp (List.isPrefixOf_iff_prefix.mp hstart)

theorem opening_ne_nil {cs : List Char} {form : BlockForm} (h : blockForm? cs = some form) :
    form.opening ≠ [] := by
  have hall : ∀ form ∈ blockForms, form.opening ≠ [] := by
    simp [blockForms]
  exact hall form (List.mem_of_find?_eq_some h)

/-- The first character of a text is the first of the opening of its block. -/
theorem cons_opening_tail {c : Char} {rest : List Char} {form : BlockForm}
    (h : blockForm? (c :: rest) = some form) : c :: form.opening.tail = form.opening := by
  have htext := opening_append_drop h
  cases hopening : form.opening with
  | nil => exact absurd hopening (opening_ne_nil h)
  | cons first opening =>
    rw [hopening, List.cons_append] at htext
    rw [List.tail_cons, (List.cons.inj htext).1]

/-- The cutting takes a segment where the rules give one. -/
theorem segment_eq_ok_iff {c : Char} {rest : List Char} {part : SqlSegment} :
    segment c rest = .ok part ↔ ∃ after, Lexeme (c :: rest) part after := by
  rw [segment_eq]
  constructor
  · intro h
    split at h
    · next form hform =>
      split at h
      · next body hbody =>
        cases h
        obtain ⟨after, hdrop, hholds⟩ := BlockForm.body?_eq_some_iff.mp hbody
        refine ⟨after, .block hform ?_ hholds ?_⟩
        · rw [List.append_assoc, ← hdrop, opening_append_drop hform]
        · rw [← List.cons_append, cons_opening_tail hform]
      · cases h
    · next hnone =>
      split_ifs at h with hcolon hmark
      · subst hcolon
        obtain ⟨name, after, rfl, rfl, hne, hname, hafter⟩ := parameter_eq_ok_iff.mp h
        exact ⟨after, .parameter hnone hne hname hafter⟩
      · cases h
        exact ⟨rest, .plain hnone hcolon hmark⟩
  · rintro ⟨after, h⟩
    cases h with
    | @block _ body _ form first tail hform htext hholds hsource =>
      have hdrop : (c :: rest).drop form.opening.length = body ++ after := by
        rw [htext, List.append_assoc, List.drop_left]
      have hbody := BlockForm.body?_eq_some_iff.mpr ⟨after, hdrop, hholds⟩
      rw [← cons_opening_tail hform, List.cons_append, List.cons.injEq] at hsource
      simp only [hform, hbody, hsource.1, hsource.2]
    | parameter hnone hne hname hafter =>
      rw [hnone]
      exact parameter_eq_ok_iff.mpr ⟨_, _, rfl, rfl, hne, hname, hafter⟩
    | plain hnone hcolon hmark =>
      rw [hnone]
      exact (if_neg hcolon).trans (if_neg hmark)

/-- The cutting stops where the rules give nothing. -/
theorem segment_eq_error_iff {c : Char} {rest : List Char} {cause : NamedSqlCause} :
    segment c rest = .error cause ↔ Stuck (c :: rest) cause := by
  rw [segment_eq]
  constructor
  · intro h
    split at h
    · next form hform =>
      split at h
      · cases h
      · next hbody =>
        cases h
        obtain ⟨hclosed, hmissing⟩ := BlockForm.body?_eq_none_iff.mp hbody
        exact .unclosed hform hclosed hmissing
    · next hnone =>
      split_ifs at h with hcolon hmark
      · subst hcolon
        obtain ⟨rfl, hname⟩ := parameter_eq_error_iff.mp h
        exact .namelessParameter hnone hname
      · cases h
        subst hmark
        exact .placeholder
  · intro h
    cases h with
    | @unclosed _ form hform hclosed hmissing =>
      have hbody := BlockForm.body?_eq_none_iff.mpr ⟨hclosed, hmissing⟩
      simp only [hform, hbody]
    | namelessParameter hnone hname =>
      rw [hnone]
      exact parameter_eq_error_iff.mpr ⟨rfl, hname⟩
    | placeholder => rfl

/-! ## Scans -/

theorem segments_cons (c : Char) (rest : List Char) :
    segments (c :: rest) = (segment c rest).bind fun part =>
      (segments ((c :: rest).drop part.source.length)).map (part :: ·) := by
  rw [segments]
  cases segment c rest with
  | error cause => rfl
  | ok part => cases segments ((c :: rest).drop part.source.length) <;> rfl

/-- After a segment the cutting goes on with what follows it. -/
theorem segments_of_lexeme {cs mid : List Char} {part : SqlSegment} (h : Lexeme cs part mid) :
    segments cs = (segments mid).map (part :: ·) := by
  cases cs with
  | nil =>
    have hempty := congrArg List.length h.source_append
    have hpos := part.source_length_pos
    simp only [List.length_nil, List.length_append] at hempty
    omega
  | cons c rest =>
    have hmid : (c :: rest).drop part.source.length = mid := by
      rw [h.source_append, List.drop_left]
    rw [segments_cons, segment_eq_ok_iff.mpr ⟨mid, h⟩, Except.bind, hmid]

/-- After a scan the cutting goes on with what it leaves. -/
theorem segments_of_scans {cs rest : List Char} {parts : List SqlSegment}
    (h : Scans cs parts rest) : segments cs = (segments rest).map (parts ++ ·) := by
  induction h with
  | start cs => cases segments cs <;> rfl
  | @step cs mid rest part parts hpart _ ih =>
    rw [segments_of_lexeme hpart, ih]
    cases segments rest <;> rfl

/-- Nothing is cut of a text that the rules are stuck at. -/
theorem segments_of_stuck {cs : List Char} {cause : NamedSqlCause} (h : Stuck cs cause) :
    segments cs = .error cause := by
  cases cs with
  | nil =>
    cases h with
    | unclosed hform => cases hform
  | cons c rest => rw [segments_cons, segment_eq_error_iff.mpr h, Except.bind]

/-- A text is scanned to its end, or up to where nothing can be cut. -/
theorem scans_or_stuck (cs : List Char) :
    (∃ parts, Scans cs parts []) ∨ ∃ parts rest cause, Scans cs parts rest ∧ Stuck rest cause := by
  induction cs using segments.induct with
  | case1 => exact .inl ⟨[], .start []⟩
  | case2 c rest ih =>
    cases hpart : segment c rest with
    | error cause => exact .inr ⟨[], c :: rest, cause, .start _, segment_eq_error_iff.mp hpart⟩
    | ok part =>
      obtain ⟨mid, hlexeme⟩ := segment_eq_ok_iff.mp hpart
      have hmid : (c :: rest).drop part.source.length = mid := by
        rw [hlexeme.source_append, List.drop_left]
      rcases hmid ▸ ih part with ⟨parts, hscan⟩ | ⟨parts, stop, cause, hscan, hstuck⟩
      · exact .inl ⟨part :: parts, .step hlexeme hscan⟩
      · exact .inr ⟨part :: parts, stop, cause, .step hlexeme hscan, hstuck⟩

/-- The cutting gives the segments of the scan that uses the text up. -/
theorem segments_eq_ok_iff {cs : List Char} {parts : List SqlSegment} :
    segments cs = .ok parts ↔ Scans cs parts [] := by
  have hscans : ∀ {parts}, Scans cs parts [] → segments cs = .ok parts := fun {parts} h => by
    rw [segments_of_scans h, segments, Except.map, List.append_nil]
  refine ⟨fun h => ?_, hscans⟩
  rcases scans_or_stuck cs with ⟨found, hscan⟩ | ⟨found, rest, cause, hscan, hstuck⟩
  · cases h.symm.trans (hscans hscan)
    exact hscan
  · rw [segments_of_scans hscan, segments_of_stuck hstuck] at h
    cases h

/-- The cutting fails where the scan gets stuck. -/
theorem segments_eq_error_iff {cs : List Char} {cause : NamedSqlCause} :
    segments cs = .error cause ↔ ∃ parts rest, Scans cs parts rest ∧ Stuck rest cause := by
  have hstuck : ∀ {parts rest cause}, Scans cs parts rest → Stuck rest cause →
      segments cs = .error cause := fun hscan hstuck => by
    rw [segments_of_scans hscan, segments_of_stuck hstuck, Except.map]
  constructor
  · intro h
    rcases scans_or_stuck cs with ⟨found, hscan⟩ | ⟨found, rest, cause', hscan, hstop⟩
    · cases h.symm.trans (segments_eq_ok_iff.mpr hscan)
    · cases h.symm.trans (hstuck hscan hstop)
      exact ⟨found, rest, hscan, hstop⟩
  · rintro ⟨parts, rest, hscan, hstop⟩
    exact hstuck hscan hstop

end NamedSql

end RowMapping
