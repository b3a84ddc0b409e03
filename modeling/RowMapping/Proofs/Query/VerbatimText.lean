/-
Literals, quoted identifiers and comments in SQL with named parameters.

Within quotes the cutting knows nothing of doubled quotes: a literal that holds quotes is cut into
several blocks, each of which ends at the first quote after its opening. But the quotes of a
literal come in pairs, the first with the last and those that are doubled with each other, so its
blocks touch, and the last of them ends where the literal does. A comment is one block, since what
closes it cannot begin within the comment and end after it. Either way the cutting goes on with
what follows as if it were a text of its own.
-/
import RowMapping.Proofs.Query.NamedPlaceholders
import Mathlib.Data.List.Infix

set_option autoImplicit false

namespace RowMapping

variable {α : Type}

namespace NamedSql

/-! ## Verbatim texts -/

/-- A text in quotes, with each quote in it doubled. -/
def quoted (quote : Char) (text : List Char) : List Char :=
  quote :: (text.flatMap (fun c => if c = quote then [quote, quote] else [c]) ++ [quote])

/-- The texts of which nothing is for the cutting to read: literals, quoted identifiers, and
comments of both kinds. -/
inductive Verbatim : List Char → Prop
  | literal (text : List Char) : Verbatim (quoted '\'' text)
  | identifier (name : List Char) : Verbatim (quoted '"' name)
  | comment {text : List Char} : ¬ ['*', '/'] <:+: text →
      Verbatim (['/', '*'] ++ text ++ ['*', '/'])
  | lineComment {text : List Char} : '\n' ∉ text → Verbatim (['-', '-'] ++ text ++ ['\n'])

/-! ## One block -/

/-- A text ends at the first occurrence of what closes it, if that does not occur in the text and
its first character is none of the others: then no occurrence lies across the end of the text. -/
theorem endsAtFirst_append {first : Char} {others text : List Char} (hfirst : first ∉ others)
    (htext : ¬ first :: others <:+: text) (after : List Char) :
    EndsAtFirst (first :: others) (text ++ first :: others)
      (text ++ first :: others ++ after) := by
  refine ⟨List.prefix_append _ _, text, rfl, fun i hi ⟨rest, hrest⟩ => ?_⟩
  rw [List.append_assoc, List.drop_append_of_le_length hi.le] at hrest
  rcases List.append_eq_append_iff.mp hrest with ⟨tail, hinside, -⟩ | ⟨tail, hacross, hafter⟩
  · exact htext ((List.infix_append' [] (first :: others) tail).trans
      (hinside ▸ List.drop_suffix i text).isInfix)
  · -- an occurrence across the end has `first` among its other characters
    cases hdrop : text.drop i with
    | nil => exact absurd (List.drop_eq_nil_iff.mp hdrop) (Nat.not_le.mpr hi)
    | cons c rest =>
      rw [hdrop, List.cons_append, List.cons.injEq] at hacross
      cases tail with
      | nil =>
        have hinside : first :: others = text.drop i := by
          rw [hdrop, hacross.1, hacross.2, List.append_nil]
        exact htext (hinside ▸ (List.drop_suffix i text).isInfix)
      | cons d tail =>
        obtain rfl : first = d := (List.cons.inj hafter).1
        exact hfirst (hacross.2 ▸ List.mem_append_right _ List.mem_cons_self)

/-- A block that is closed is cut. -/
theorem lexeme_block (form : BlockForm) (start : List Char) {text : List Char} {c first : Char}
    {others : List Char} (after : List Char)
    (hform : blockForm? (c :: start ++ (text ++ first :: others ++ after)) = some form)
    (hopening : form.opening = c :: start) (hclosing : form.closing = first :: others)
    (hfirst : first ∉ others) (htext : ¬ first :: others <:+: text) :
    Lexeme (c :: start ++ (text ++ first :: others ++ after))
      (.block c (start ++ (text ++ first :: others))) after := by
  have hends : EndsAtFirst form.closing (text ++ first :: others)
      (text ++ first :: others ++ after) := by
    rw [hclosing]
    exact endsAtFirst_append hfirst htext after
  refine .block hform ?_ (.inl hends) ?_
  · rw [hopening, ← List.append_assoc]
  · rw [hopening]
    rfl

/-! ## Blocks of a verbatim text -/

/-- Quotes are the opening and the closing of a form of blocks. -/
def IsQuote (quote : Char) : Prop :=
  ∀ rest, blockForm? (quote :: rest) = some ⟨[quote], [quote], false⟩

/-- A text in quotes is cut into blocks, of which the first starts with what was read before.
The induction is on the rest of the text: at a quote in it a block ends, and the next one begins
with the second of the two quotes. -/
theorem exists_blocks {quote : Char} (hquote : IsQuote quote) (text before rest : List Char)
    (hbefore : quote ∉ before) :
    ∃ parts, Scans (quote :: (before ++ text.flatMap (fun c =>
        if c = quote then [quote, quote] else [c]) ++ [quote]) ++ rest) parts rest ∧
      ∀ part ∈ parts, part.name? = none := by
  have hblock (before after : List Char) (hbefore : quote ∉ before) :
      Lexeme (quote :: (before ++ [quote] ++ after)) (.block quote (before ++ [quote])) after :=
    lexeme_block _ [] after (hquote _) rfl rfl List.not_mem_nil
      (mt (List.singleton_infix_iff quote before).mp hbefore)
  induction text generalizing before with
  | nil =>
    refine ⟨[.block quote (before ++ [quote])], .step ?_ (.start rest), by simp [SqlSegment.name?]⟩
    simpa using hblock before rest hbefore
  | cons c text ih =>
    by_cases hc : c = quote
    · -- the first quote closes the block, the one that doubles it opens the next
      obtain ⟨parts, hscan, hnames⟩ := ih [] List.not_mem_nil
      refine ⟨.block quote (before ++ [quote]) :: parts, .step ?_ hscan,
        List.forall_mem_cons.mpr ⟨rfl, hnames⟩⟩
      simpa [hc] using hblock before _ hbefore
    · obtain ⟨parts, hscan, hnames⟩ := ih (before ++ [c]) (by simp [hbefore, Ne.symm hc])
      exact ⟨parts, by simpa [hc] using hscan, hnames⟩

/-- A verbatim text is cut into parts that are no parameters, whatever follows it, and the
cutting goes on with what follows. -/
theorem Verbatim.exists_scans {text : List Char} (h : Verbatim text) (rest : List Char) :
    ∃ parts, Scans (text ++ rest) parts rest ∧ ∀ part ∈ parts, part.name? = none := by
  cases h with
  | literal text => exact exists_blocks (fun _ => rfl) text [] rest List.not_mem_nil
  | identifier name => exact exists_blocks (fun _ => rfl) name [] rest List.not_mem_nil
  | @comment text htext =>
    have hpart := lexeme_block ⟨['/', '*'], ['*', '/'], false⟩ ['*'] rest rfl rfl rfl
      (by decide) htext
    exact ⟨_, .step (by simpa using hpart) (.start rest), by simp [SqlSegment.name?]⟩
  | @lineComment text htext =>
    have hpart := lexeme_block ⟨['-', '-'], ['\n'], true⟩ ['-'] rest rfl rfl rfl
      List.not_mem_nil (mt (List.singleton_infix_iff '\n' text).mp htext)
    exact ⟨_, .step (by simpa using hpart) (.start rest), by simp [SqlSegment.name?]⟩

/-! ## Texts with their parameters -/

/-- The text for the database and the names of the parameters, in the order of their
placeholders. -/
def parse (text : String) : Except NamedSqlCause (String × List String) :=
  (segments text.toList).map fun parts => (sql parts, names parts)

/-- Behind a scan a text is parsed as if it stood alone. -/
theorem parse_of_scans {before rest : String} {parts : List SqlSegment}
    (h : Scans (before ++ rest).toList parts rest.toList) :
    parse (before ++ rest) =
      (parse rest).map fun found => (sql parts ++ found.1, names parts ++ found.2) := by
  rw [parse, parse, segments_of_scans h]
  cases segments rest.toList with
  | error cause => rfl
  | ok more =>
    show Except.ok (sql (parts ++ more), names (parts ++ more)) = _
    rw [sql, sql, names, List.flatMap_append, List.filterMap_append, String.ofList_append]
    rfl

/-- Parts that are no parameters stand for themselves, and have no names. -/
theorem sql_of_scans {before rest : String} {parts : List SqlSegment}
    (h : Scans (before ++ rest).toList parts rest.toList)
    (hnames : ∀ part ∈ parts, part.name? = none) : sql parts = before ∧ names parts = [] := by
  have houtput : parts.flatMap SqlSegment.output = parts.flatMap SqlSegment.source :=
    List.flatMap_congr fun part hpart => by
      cases part with
      | block => rfl
      | parameter => cases hnames _ hpart
      | plain => rfl
  have hsource := h.source_append
  rw [String.toList_append, List.append_cancel_right_eq] at hsource
  exact ⟨by rw [sql, houtput, ← hsource, String.ofList_toList],
    List.filterMap_eq_nil_iff.mpr hnames⟩

/-- A verbatim text is copied, and what follows it is parsed as if it stood alone. -/
theorem parse_of_verbatim {text : String} (h : Verbatim text.toList) (rest : String) :
    parse (text ++ rest) = (parse rest).map fun found => (text ++ found.1, found.2) := by
  obtain ⟨parts, hscan, hnames⟩ := h.exists_scans rest.toList
  rw [← String.toList_append] at hscan
  obtain ⟨hsql, hnone⟩ := sql_of_scans hscan hnames
  rw [parse_of_scans hscan, hsql, hnone]
  rfl

end NamedSql

/-! ## Queries -/

namespace Query

open NamedSql

/-- A query is what its text is parsed to, with the values of the names. -/
theorem named_eq_ok_iff_parse {text : String} {resolver : Resolver α} {q : Query α} :
    named text resolver = .ok q ↔
      ∃ names, parse text = .ok (q.sql, names) ∧ names.mapM resolver = .ok q.arguments := by
  rw [parse]
  cases hcut : segments text.toList with
  | error cause => simp [named, hcut, Except.map]
  | ok parts =>
    rw [named_of_segments hcut, map_eq_ok_iff]
    constructor
    · rintro ⟨arguments, harguments, rfl⟩
      exact ⟨_, rfl, harguments⟩
    · rintro ⟨_, hparsed, harguments⟩
      obtain ⟨hsql, rfl⟩ := Prod.mk.inj (Except.ok.inj hparsed)
      exact ⟨_, harguments, by rw [hsql]⟩

end Query

namespace NamedSql

/-- **Verbatim texts.** A literal, a quoted identifier or a comment in front of a text is copied
in front of what the text is parsed to: the text is parsed with it if and only if it is parsed
without it, for the same names, and it fails with it for the same cause. This is so wherever the
cutting comes to such a text, and for the query that is made of it. So nothing in a literal, a
quoted identifier or a comment is ever a parameter, and no parameter after it is hidden. -/
theorem parse_verbatim {text : String} (h : Verbatim text.toList) (rest : String) :
    parse (text ++ rest) = (parse rest).map (fun found => (text ++ found.1, found.2)) ∧
    (∀ (before : String) (parts : List SqlSegment),
      Scans (before ++ (text ++ rest)).toList parts (text ++ rest).toList →
        parse (before ++ (text ++ rest)) = (parse rest).map fun found =>
          (sql parts ++ (text ++ found.1), names parts ++ found.2)) ∧
    ∀ (resolver : Resolver α) (q : Query α), Query.named (text ++ rest) resolver = .ok q ↔
      ∃ found : Query α, Query.named rest resolver = .ok found ∧
        q = ⟨text ++ found.sql, found.arguments⟩ := by
  have hparse := parse_of_verbatim h rest
  refine ⟨hparse, fun before parts hscan => ?_, fun resolver q => ?_⟩
  · rw [parse_of_scans hscan, hparse]
    cases parse rest <;> rfl
  · rw [Query.named_eq_ok_iff_parse, hparse]
    constructor
    · rintro ⟨names, hfound, harguments⟩
      obtain ⟨⟨sql, names⟩, hrest, hq⟩ := map_eq_ok_iff.mp hfound
      obtain ⟨hsql, rfl⟩ := Prod.mk.inj hq
      exact ⟨⟨sql, q.arguments⟩, Query.named_eq_ok_iff_parse.mpr ⟨_, hrest, harguments⟩,
        by rw [hsql]⟩
    · rintro ⟨found, hfound, rfl⟩
      obtain ⟨names, hrest, harguments⟩ := Query.named_eq_ok_iff_parse.mp hfound
      exact ⟨names, by rw [hrest]; rfl, harguments⟩

/-- A literal with a quote, a colon, a question mark and the starts of comments in it. -/
theorem parse_verbatim_quotedMarks :
    parse ("'it''s :a ? /* -- '" ++ "=:b") = .ok ("'it''s :a ? /* -- '=?", ["b"]) := by
  have htext : Verbatim "'it''s :a ? /* -- '".toList := .literal "it's :a ? /* -- ".toList
  have hname : ∀ c ∈ ['b'], InName c := by simp [InName]
  have hscan : Scans "=:b".toList [.plain '=', .parameter ['b']] [] :=
    .step (.plain rfl (by decide) (by decide))
      (.step (.parameter rfl (by simp) hname (by simp)) (.start []))
  have hrest : parse "=:b" = .ok ("=?", ["b"]) := by
    rw [parse, segments_eq_ok_iff.mpr hscan]
    rfl
  obtain ⟨hparse, -, -⟩ := parse_verbatim (α := Empty) htext "=:b"
  rw [hparse, hrest]
  rfl

end NamedSql

end RowMapping
