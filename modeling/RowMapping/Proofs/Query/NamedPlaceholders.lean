/-
Placeholders of SQL with named parameters.

The text that goes to the database can be read by its blocks alone: a question mark outside of
them is where a parameter was, and with the names in place again the text is the one that was
cut. That holds since a question mark opens no block, so that the blocks of the new text are
those of the old one.

A query is made of the text and of one value for each placeholder, the one of its name.
-/
import RowMapping.Proofs.Query.NamedLexer
import RowMapping.Proofs.Conversion.Outcomes

set_option autoImplicit false

namespace RowMapping

variable {α : Type}

namespace NamedSql

/-! ## The text for the database -/

/-- What a block goes on with after its first character; nothing outside of blocks. -/
def blockTail (c : Char) (rest : List Char) : List Char :=
  match blockForm? (c :: rest) with
  | some form =>
    form.opening.tail ++ (form.body? ((c :: rest).drop form.opening.length)).getD []
  | none => []

/-- A text in its blocks and the single characters outside of them. -/
def pieces : List Char → List (List Char)
  | [] => []
  | c :: rest => (c :: blockTail c rest) :: pieces (rest.drop (blockTail c rest).length)
termination_by cs => cs.length
decreasing_by
  simp only [List.length_drop, List.length_cons]
  omega

/-- The text of some pieces, with a colon and a name put for each question mark that stands
outside of the blocks, in order. -/
def restore : List (List Char) → List String → List Char
  | [], _ => []
  | piece :: rest, names =>
    if piece = ['?'] then ':' :: ((names.headD "").toList ++ restore rest names.tail)
    else piece ++ restore rest names

/-- Only the first two characters of a text tell the block it starts with. -/
theorem blockForm?_cons_cons (x y : Char) (rest rest' : List Char) :
    blockForm? (x :: y :: rest) = blockForm? (x :: y :: rest') := rfl

/-- A character that starts no block starts none either if a question mark follows it, or what
followed it before. -/
theorem blockForm?_of_head? {c : Char} {rest rest' : List Char}
    (h : blockForm? (c :: rest) = none)
    (hhead : rest'.head? = rest.head? ∨ rest'.head? = some '?') :
    blockForm? (c :: rest') = none := by
  rw [blockForm?_eq_none_iff] at h ⊢
  cases rest' with
  | nil => simp_all [List.cons_prefix_cons]
  | cons d rest' =>
    rcases hhead with hsame | hmark
    · cases rest with
      | nil => cases hsame
      | cons e rest =>
        obtain rfl : d = e := by simpa using hsame
        simpa [List.cons_prefix_cons] using h
    · simp_all [List.cons_prefix_cons]

/-- Where a block ends does not depend on what follows it. -/
theorem EndsAtFirst.append {closing body after after' : List Char}
    (h : EndsAtFirst closing body (body ++ after)) : EndsAtFirst closing body (body ++ after') := by
  obtain ⟨-, before, rfl, hfirst⟩ := h
  refine ⟨List.prefix_append _ _, before, rfl, fun i hi hthere => hfirst i hi ?_⟩
  have hshift : ∀ follows : List Char, (before ++ closing ++ follows).drop i =
      (before.drop i ++ closing) ++ follows := fun follows => by
    rw [List.append_assoc, List.drop_append_of_le_length hi.le, List.append_assoc]
  rw [hshift] at hthere ⊢
  have hinside : closing <+: before.drop i ++ closing :=
    List.prefix_of_prefix_length_le hthere (List.prefix_append _ _) (by simp)
  exact hinside.trans (List.prefix_append _ _)

/-- A block has at least two characters. -/
theorem two_le_block_length {cs body after : List Char} {form : BlockForm}
    (hform : blockForm? cs = some form) (hholds : form.Holds body after) :
    2 ≤ (form.opening ++ body).length := by
  have hall : ∀ form ∈ blockForms, 2 ≤ form.opening.length + form.closing.length ∧
      (form.openEnded = true → 2 ≤ form.opening.length) := by
    simp [blockForms]
  obtain ⟨hclosed, hopen⟩ := hall form (List.mem_of_find?_eq_some hform)
  rw [List.length_append]
  rcases hholds with ⟨-, before, rfl, -⟩ | ⟨hended, -, -⟩
  · rw [List.length_append]
    omega
  · have := hopen hended
    omega

/-- The text for the database starts as the text that was cut does, or with a question mark. -/
theorem Scans.head?_output {cs : List Char} {parts : List SqlSegment} (h : Scans cs parts []) :
    (parts.flatMap SqlSegment.output).head? = cs.head? ∨
      (parts.flatMap SqlSegment.output).head? = some '?' := by
  cases h with
  | start => exact .inl rfl
  | step hpart _ =>
    rw [hpart.source_append]
    cases hpart with
    | block => exact .inl rfl
    | parameter => exact .inr rfl
    | plain => exact .inl rfl

/-- Nothing is cut of an empty text. -/
theorem Scans.of_nil {rest : List Char} {parts : List SqlSegment} (h : Scans [] parts rest) :
    parts = [] := by
  cases h with
  | start => rfl
  | @step _ _ _ part _ hpart =>
    have hempty := congrArg List.length hpart.source_append
    have hpos := part.source_length_pos
    simp only [List.length_nil, List.length_append] at hempty
    omega

/-- A block is one piece of a text that goes on differently after it, unless the block has no
end of its own. -/
theorem blockTail_of_lexeme {cs after after' : List Char} {first : Char} {rest : List Char}
    (h : Lexeme cs (.block first rest) after) (hend : after = [] → after' = []) :
    blockTail first (rest ++ after') = rest := by
  cases h with
  | @block _ body _ form _ _ hform htext hholds hsource =>
    have hform' : blockForm? (first :: (rest ++ after')) = some form := by
      have hlength := hsource ▸ two_le_block_length hform hholds
      rw [htext, ← hsource] at hform
      cases rest with
      | nil => simp at hlength
      | cons y rest => exact (blockForm?_cons_cons first y _ _).trans hform
    have hholds' : form.Holds body after' :=
      hholds.imp EndsAtFirst.append fun ⟨hopen, hafter, hmissing⟩ =>
        ⟨hopen, hend hafter, hmissing⟩
    have hdrop : (first :: (rest ++ after')).drop form.opening.length = body ++ after' := by
      rw [← List.cons_append, hsource, List.append_assoc, List.drop_left]
    have hbody := BlockForm.body?_eq_some_iff.mpr ⟨after', hdrop, hholds'⟩
    rw [← cons_opening_tail hform', List.cons_append, List.cons.injEq] at hsource
    rw [blockTail, hform']
    simp only [hbody, Option.getD_some]
    exact hsource.2.symm

/-- What a segment is replaced by is one piece of the text for the database. -/
theorem pieces_cons_output {cs mid : List Char} {part : SqlSegment} {parts : List SqlSegment}
    (hpart : Lexeme cs part mid) (hmid : Scans mid parts []) :
    pieces (part.output ++ parts.flatMap SqlSegment.output) =
      part.output :: pieces (parts.flatMap SqlSegment.output) := by
  have hsingle : ∀ {c : Char} {rest : List Char}, blockForm? (c :: rest) = none →
      pieces ([c] ++ rest) = [c] :: pieces rest := fun {c rest} hnone => by
    rw [List.singleton_append, pieces, blockTail, hnone]
    rfl
  cases part with
  | block first rest =>
    have htail : blockTail first (rest ++ parts.flatMap SqlSegment.output) = rest := by
      refine blockTail_of_lexeme hpart fun hnil => ?_
      subst hnil
      rw [hmid.of_nil, List.flatMap_nil]
    rw [SqlSegment.output, List.cons_append, pieces, htail, List.drop_left]
  | parameter => exact hsingle rfl
  | plain c =>
    cases hpart with
    | plain hnone => exact hsingle (blockForm?_of_head? hnone hmid.head?_output)

theorem pieces_output {cs : List Char} {parts : List SqlSegment} (h : Scans cs parts []) :
    pieces (parts.flatMap SqlSegment.output) = parts.map SqlSegment.output := by
  induction parts generalizing cs with
  | nil => rw [List.flatMap_nil, pieces, List.map_nil]
  | cons part parts ih =>
    cases h with
    | step hpart hmid =>
      rw [List.flatMap_cons, pieces_cons_output hpart hmid, ih hmid, List.map_cons]

/-- A block or a plain character has no name, and is not replaced by a question mark. -/
theorem Lexeme.output_ne_placeholder {cs after : List Char} {part : SqlSegment}
    (h : Lexeme cs part after) (hname : part.name? = none) :
    part.output = part.source ∧ part.output ≠ ['?'] := by
  cases h with
  | block hform _ hholds hsource =>
    refine ⟨rfl, fun houtput => ?_⟩
    have hlength := two_le_block_length hform hholds
    rw [← hsource, ← SqlSegment.output, houtput] at hlength
    exact absurd hlength (by decide)
  | parameter => cases hname
  | plain _ _ hmark => exact ⟨rfl, by simpa [SqlSegment.output] using hmark⟩

/-- The parameters are the question marks outside of the blocks. -/
theorem count_placeholders {cs rest : List Char} {parts : List SqlSegment}
    (h : Scans cs parts rest) :
    (parts.map SqlSegment.output).count ['?'] = (names parts).length := by
  induction h with
  | start => rfl
  | @step cs mid rest part parts hpart _ ih =>
    cases hname : part.name? with
    | none =>
      rw [List.map_cons, List.count_cons_of_ne (hpart.output_ne_placeholder hname).2, ih, names,
        names, List.filterMap_cons_none hname]
    | some name =>
      have hmark : part.output = ['?'] := by
        cases part with
        | parameter => rfl
        | block | plain => cases hname
      rw [List.map_cons, hmark, List.count_cons_self, ih, names, names,
        List.filterMap_cons_some hname, List.length_cons]

/-- With the names in place of the question marks again, the text is the one that was cut. -/
theorem restore_output {cs rest : List Char} {parts : List SqlSegment}
    (h : Scans cs parts rest) :
    restore (parts.map SqlSegment.output) (names parts) ++ rest = cs := by
  induction h with
  | start => rfl
  | @step cs mid rest part parts hpart _ ih =>
    rw [hpart.source_append, ← ih, List.map_cons, restore, ← List.append_assoc]
    congr 1
    cases hname : part.name? with
    | none =>
      obtain ⟨hsource, hmark⟩ := hpart.output_ne_placeholder hname
      rw [if_neg hmark, hsource, names, List.filterMap_cons_none hname, names]
    | some name =>
      cases part with
      | parameter name =>
        simp [SqlSegment.output, SqlSegment.source, names, SqlSegment.name?]
      | block | plain => cases hname

end NamedSql

/-! ## Queries -/

namespace Query

open NamedSql

/-- Once a text is cut, only the values of the names are missing. -/
theorem named_of_segments {text : String} {parts : List SqlSegment}
    (hcut : segments text.toList = .ok parts) (resolver : Resolver α) :
    named text resolver =
      ((names parts).mapM resolver).map fun arguments => ⟨NamedSql.sql parts, arguments⟩ := by
  simp only [named, hcut]
  cases (names parts).mapM resolver <;> rfl

/-- A query is made of a text that is cut to its end and whose names have values. -/
theorem named_eq_ok_iff {text : String} {resolver : Resolver α} {q : Query α} :
    named text resolver = .ok q ↔ ∃ parts, Scans text.toList parts [] ∧
      q.sql = NamedSql.sql parts ∧
      List.Forall₂ (fun name a => resolver name = .ok a) (names parts) q.arguments := by
  cases hcut : segments text.toList with
  | error cause =>
    simp only [named, hcut, reduceCtorEq, false_iff]
    rintro ⟨parts, hscan, -⟩
    cases hcut.symm.trans (segments_eq_ok_iff.mpr hscan)
  | ok parts =>
    rw [named_of_segments hcut]
    constructor
    · intro h
      cases harguments : (names parts).mapM resolver with
      | error e => cases harguments ▸ h
      | ok arguments =>
        rw [harguments] at h
        cases h
        exact ⟨parts, segments_eq_ok_iff.mp hcut, rfl, mapM_eq_ok_iff.mp harguments⟩
    · rintro ⟨found, hscan, hsql, harguments⟩
      cases hcut.symm.trans (segments_eq_ok_iff.mpr hscan)
      rw [mapM_eq_ok_iff.mpr harguments, Except.map, ← hsql]

/-- No query is made of a text that is not cut to its end, or if a name has no value; the first
such name tells why. -/
theorem named_eq_error_iff {text : String} {resolver : Resolver α} {e : Error} :
    named text resolver = .error e ↔
      (∃ parts rest cause, Scans text.toList parts rest ∧ Stuck rest cause ∧
        e = .sqlSyntax cause text) ∨
      ∃ parts before name after, Scans text.toList parts [] ∧
        names parts = before ++ name :: after ∧ (∀ b ∈ before, ∃ a, resolver b = .ok a) ∧
        resolver name = .error e := by
  -- a text is cut in one way at most, so the two kinds of failure exclude each other
  cases hcut : segments text.toList with
  | error cause =>
    simp only [named, hcut, Except.error.injEq]
    constructor
    · rintro rfl
      obtain ⟨parts, rest, hscan, hstuck⟩ := segments_eq_error_iff.mp hcut
      exact .inl ⟨parts, rest, cause, hscan, hstuck, rfl⟩
    · rintro (⟨parts, rest, cause', hscan, hstuck, rfl⟩ | ⟨parts, -, -, -, hscan, -⟩)
      · cases hcut.symm.trans (segments_eq_error_iff.mpr ⟨parts, rest, hscan, hstuck⟩)
        rfl
      · cases hcut.symm.trans (segments_eq_ok_iff.mpr hscan)
  | ok parts =>
    have hvalues : named text resolver = .error e ↔ (names parts).mapM resolver = .error e := by
      rw [named_of_segments hcut]
      cases (names parts).mapM resolver <;> simp [Except.map]
    rw [hvalues, mapM_eq_error_iff]
    constructor
    · rintro ⟨before, name, after, hnames, hbefore, hname⟩
      exact .inr ⟨parts, before, name, after, segments_eq_ok_iff.mp hcut, hnames, hbefore, hname⟩
    · rintro (⟨found, rest, cause, hscan, hstuck, -⟩ | ⟨found, before, name, after, hscan, hrest⟩)
      · cases hcut.symm.trans (segments_eq_error_iff.mpr ⟨found, rest, hscan, hstuck⟩)
      · cases hcut.symm.trans (segments_eq_ok_iff.mpr hscan)
        exact ⟨before, name, after, hrest⟩

/-- SQL with named parameters is cut by the rules and by nothing else. What is cut makes up the
text; the text for the database has a question mark outside of its blocks for each parameter,
and with the names in their places again it is the text that was cut. A query has one argument
for each of these question marks, the value of its name, and there is none if the cutting gets
stuck or a name has no value. -/
theorem named_exact (text : String) (resolver : Resolver α) :
    (∀ parts, segments text.toList = .ok parts ↔ Scans text.toList parts []) ∧
    (∀ cause, segments text.toList = .error cause ↔
      ∃ parts rest, Scans text.toList parts rest ∧ Stuck rest cause) ∧
    (∀ parts, Scans text.toList parts [] →
      parts.flatMap SqlSegment.source = text.toList ∧
      pieces (NamedSql.sql parts).toList = parts.map SqlSegment.output ∧
      (pieces (NamedSql.sql parts).toList).count ['?'] = (names parts).length ∧
      restore (pieces (NamedSql.sql parts).toList) (names parts) = text.toList) ∧
    (∀ q, named text resolver = .ok q ↔ ∃ parts, Scans text.toList parts [] ∧
      q.sql = NamedSql.sql parts ∧
      List.Forall₂ (fun name a => resolver name = .ok a) (names parts) q.arguments) ∧
    (∀ q, named text resolver = .ok q →
      (pieces q.sql.toList).count ['?'] = q.arguments.length) ∧
    ∀ e, named text resolver = .error e ↔
      (∃ parts rest cause, Scans text.toList parts rest ∧ Stuck rest cause ∧
        e = .sqlSyntax cause text) ∨
      ∃ parts before name after, Scans text.toList parts [] ∧
        names parts = before ++ name :: after ∧ (∀ b ∈ before, ∃ a, resolver b = .ok a) ∧
        resolver name = .error e := by
  have hpieces : ∀ {parts}, Scans text.toList parts [] →
      pieces (NamedSql.sql parts).toList = parts.map SqlSegment.output := fun {parts} hscan => by
    rw [NamedSql.sql, String.toList_ofList, pieces_output hscan]
  refine ⟨fun _ => segments_eq_ok_iff, fun _ => segments_eq_error_iff, fun parts hscan => ?_,
    fun _ => named_eq_ok_iff, fun q hq => ?_, fun _ => named_eq_error_iff⟩
  · have hsource := hscan.source_append
    have hrestored := restore_output hscan
    rw [List.append_nil] at hsource hrestored
    exact ⟨hsource.symm, hpieces hscan, by rw [hpieces hscan, count_placeholders hscan],
      by rw [hpieces hscan, hrestored]⟩
  · obtain ⟨parts, hscan, hsql, harguments⟩ := named_eq_ok_iff.mp hq
    rw [hsql, hpieces hscan, count_placeholders hscan, harguments.length_eq]

end Query

end RowMapping
