/-
The text of a URL has no white space at its ends.

The parts that a URL is read into are percent-encoded, or consist of characters that a host or
a scheme may hold; the only white space that is left is the blank inside an opaque path, and a
path that ends in one is followed by a query or a fragment. So cutting the white space off the
text of a URL that was read leaves the text as it is.
-/
import RowMapping.Proofs.Number.Digits
import RowMapping.Text.Blank
import RowMapping.Url.Parser

set_option autoImplicit false

namespace RowMapping.Text

/-! ## Solid texts -/

/-- A text without white space. -/
def Solid (cs : List Char) : Prop := ∀ c ∈ cs, isBlank c = false

/-- A text that does not end in white space. -/
def EndsSolid (cs : List Char) : Prop := ∀ c ∈ cs.getLast?, isBlank c = false

theorem solid_nil : Solid [] := by
  simp [Solid]

theorem solid_cons {c : Char} {cs : List Char} (hc : isBlank c = false) (hcs : Solid cs) :
    Solid (c :: cs) :=
  List.forall_mem_cons.mpr ⟨hc, hcs⟩

theorem Solid.append {as bs : List Char} (ha : Solid as) (hb : Solid bs) : Solid (as ++ bs) :=
  List.forall_mem_append.mpr ⟨ha, hb⟩

theorem Solid.endsSolid {cs : List Char} (h : Solid cs) : EndsSolid cs :=
  fun c hc => h c (List.mem_of_getLast? hc)

theorem EndsSolid.append {as bs : List Char} (ha : EndsSolid as) (hb : EndsSolid bs) :
    EndsSolid (as ++ bs) := by
  intro c hc
  cases bs with
  | nil => exact ha c (by simpa using hc)
  | cons b bs => exact hb c (by simpa [List.getLast?_append] using hc)

/-- What stands in front of a text that is there does not matter. -/
theorem EndsSolid.append_left {bs : List Char} (hb : EndsSolid bs) (hne : bs ≠ []) (as : List Char) :
    EndsSolid (as ++ bs) := by
  intro c hc
  cases bs with
  | nil => exact absurd rfl hne
  | cons b bs => exact hb c (by simpa [List.getLast?_append] using hc)

/-- A visible ASCII character is not white space. -/
theorem isBlank_of_visible {c : Char} (hleast : 0x20 < c.toNat) (hgreatest : c.toNat < 0x80) :
    isBlank c = false := by
  simp only [isBlank, Bool.or_eq_false_iff, Bool.and_eq_false_iff, decide_eq_false_iff_not,
    beq_eq_false_iff_ne]
  omega

/-- The text of a number. -/
theorem solid_toString (n : Nat) : Solid (toString n).toList := by
  intro c hc
  change c ∈ (String.ofList (Nat.toDigits 10 n)).toList at hc
  rw [String.toList_ofList] at hc
  exact isBlank_of_isDigit (Nat.isDigit_of_mem_toDigits (by decide) (by decide) hc)

end RowMapping.Text

namespace RowMapping.Url

open Text

/-! ## Percent escapes -/

theorem isBlank_upperHexDigit {d : Nat} (h : d < 16) : isBlank (upperHexDigit d) = false := by
  have hall : ∀ d < 16, isBlank (upperHexDigit d) = false := by decide
  exact hall d h

theorem solid_percentByte (b : UInt8) : Solid (percentByte b) := by
  have hb := b.toNat_lt
  refine solid_cons (by decide) (solid_cons ?_ (solid_cons ?_ solid_nil))
  · exact isBlank_upperHexDigit (by omega)
  · exact isBlank_upperHexDigit (by omega)

/-- What is encoded is solid, and what is not encoded is visible or a blank. -/
theorem solid_percentEncode {set cs : List Char} (h : set.contains ' ' = true ∨ ' ' ∉ cs) :
    Solid (percentEncode set cs) := by
  intro c hc
  obtain ⟨d, hd, hmem⟩ := List.mem_flatMap.mp hc
  split at hmem
  · obtain ⟨b, -, hb⟩ := List.mem_flatMap.mp hmem
    exact solid_percentByte b c hb
  · rename_i hplain
    obtain rfl := List.mem_singleton.mp hmem
    simp only [isControl, Bool.or_eq_true, decide_eq_true_eq, not_or] at hplain
    have hspace : c ≠ ' ' := by
      rintro rfl
      rcases h with hset | hcs
      · exact hplain.2 hset
      · exact hcs hd
    have hne : c.toNat ≠ 0x20 := fun heq => hspace (Char.toNat_inj.mp heq)
    exact isBlank_of_visible (by omega) (by omega)

theorem toList_loop_ne_nil {bytes : ByteArray} {i : Nat} {done : List UInt8} (h : done ≠ []) :
    ByteArray.toList.loop bytes i done ≠ [] := by
  fun_induction ByteArray.toList.loop bytes i done with
  | case1 i done _ ih => exact ih (by simp)
  | case2 i done _ => simpa using h

/-- Every character has at least one byte. -/
theorem toUTF8_singleton_ne_nil (c : Char) : (String.singleton c).toUTF8.toList ≠ [] := by
  have hsize : 0 < (String.singleton c).toUTF8.size := by
    have hlength : (String.singleton c).utf8ByteSize = c.utf8Size := by simp
    have hpos := c.utf8Size_pos
    change 0 < (String.singleton c).utf8ByteSize
    omega
  rw [ByteArray.toList, ByteArray.toList.loop, if_pos hsize]
  exact toList_loop_ne_nil (by simp)

theorem percentEncode_append (set as bs : List Char) :
    percentEncode set (as ++ bs) = percentEncode set as ++ percentEncode set bs := by
  simp [percentEncode]

theorem percentEncode_singleton_ne_nil (set : List Char) (c : Char) : percentEncode set [c] ≠ [] := by
  obtain ⟨b, bytes, hbytes⟩ := List.exists_cons_of_ne_nil (toUTF8_singleton_ne_nil c)
  simp only [percentEncode, List.flatMap_cons, List.flatMap_nil, List.append_nil]
  split
  · rw [hbytes, List.flatMap_cons]
    exact List.append_ne_nil_of_left_ne_nil (List.cons_ne_nil _ _) _
  · exact List.cons_ne_nil _ _

/-- Encoding what does not end in a blank. -/
theorem endsSolid_percentEncode {cs : List Char} (h : cs.getLast? ≠ some ' ') (set : List Char) :
    EndsSolid (percentEncode set cs) := by
  rcases List.eq_nil_or_concat cs with rfl | ⟨front, last, rfl⟩
  · exact solid_nil.endsSolid
  · rw [List.concat_eq_append] at h ⊢
    have hlast : Solid (percentEncode set [last]) := by
      refine solid_percentEncode (.inr ?_)
      simpa [eq_comm] using h
    rw [percentEncode_append]
    exact hlast.endsSolid.append_left (percentEncode_singleton_ne_nil set last) _

/-! ## Hosts -/

/-- A text in ASCII. -/
def Ascii (cs : List Char) : Prop := ∀ c ∈ cs, c.toNat < 0x80

theorem Ascii.append {as bs : List Char} (ha : Ascii as) (hb : Ascii bs) : Ascii (as ++ bs) :=
  List.forall_mem_append.mpr ⟨ha, hb⟩

theorem ascii_cons {c : Char} {cs : List Char} (hc : c.toNat < 0x80) (hcs : Ascii cs) :
    Ascii (c :: cs) :=
  List.forall_mem_cons.mpr ⟨hc, hcs⟩

theorem ascii_nil : Ascii [] := by
  simp [Ascii]

theorem toNat_punycodeDigit {n : Nat} (h : n < 36) : (Punycode.digit n).toNat < 0x80 := by
  have hall : ∀ n < 36, (Punycode.digit n).toNat < 0x80 := by decide
  exact hall n h

theorem threshold_le (position bias : Nat) : Punycode.threshold position bias ≤ 26 := by
  unfold Punycode.threshold
  omega

theorem ascii_distanceDigits (bias position n : Nat) :
    Ascii (Punycode.distanceDigits bias position n) := by
  fun_induction Punycode.distanceDigits bias position n with
  | case1 position n t h =>
    have ht : t ≤ 26 := threshold_le position bias
    exact ascii_cons (toNat_punycodeDigit (by omega)) ascii_nil
  | case2 position n t h ih =>
    have ht : t ≤ 26 := threshold_le position bias
    have hmod := Nat.mod_lt (n - t) (show 0 < 36 - t by omega)
    exact ascii_cons (toNat_punycodeDigit (by omega)) ih

theorem ascii_pass {basic point : Nat} {e : Punycode.Encoder} (h : Ascii e.output) (c : Char) :
    Ascii (e.pass basic point c).output := by
  unfold Punycode.Encoder.pass
  split
  · exact h
  · split
    · exact h.append (ascii_distanceDigits _ _ _)
    · exact h

theorem ascii_insertPoints {label : List Char} {basic : Nat} {points : List Nat} {previous : Nat}
    {e : Punycode.Encoder} (h : Ascii e.output) :
    Ascii (Punycode.insertPoints label basic points previous e).output := by
  induction points generalizing previous e with
  | nil => exact h
  | cons point rest ih =>
    refine ih ?_
    have hfold (cs : List Char) (e : Punycode.Encoder) (he : Ascii e.output) :
        Ascii (cs.foldl (Punycode.Encoder.pass basic point) e).output := by
      induction cs generalizing e with
      | nil => exact he
      | cons c cs ih => exact ih _ (ascii_pass he c)
    exact hfold label _ h

theorem ascii_encode (label : List Char) : Ascii (Punycode.encode label) := by
  unfold Punycode.encode
  refine ascii_insertPoints ?_
  have hbasic : Ascii (label.filter (·.toNat < 0x80)) := by
    intro c hc
    simpa using (List.mem_filter.mp hc).2
  dsimp only
  split
  · exact ascii_nil
  · exact hbasic.append (ascii_cons (by decide) ascii_nil)

theorem ascii_asciiLabel? {label ascii : List Char} (h : asciiLabel? label = some ascii) :
    Ascii ascii := by
  unfold asciiLabel? at h
  split at h
  · cases h
    have hprefix : Ascii "xn--".toList := by simp [Ascii]
    exact hprefix.append (ascii_encode label)
  · rename_i hplain
    have hlabel : Ascii label := by simpa [Ascii] using hplain
    split at h
    · split at h
      · split at h
        · exact Option.some.inj h ▸ hlabel
        · cases h
      · cases h
    · exact Option.some.inj h ▸ hlabel

theorem ascii_intercalate {parts : List (List Char)} (h : ∀ part ∈ parts, Ascii part) :
    Ascii (['.'].intercalate parts) := by
  induction parts with
  | nil => exact ascii_nil
  | cons part rest ih =>
    have hpart := h part List.mem_cons_self
    have hrest := ih fun p hp => h p (List.mem_cons_of_mem part hp)
    cases rest with
    | nil => simpa [List.intercalate] using hpart
    | cons next rest =>
      have hcons : ['.'].intercalate (part :: next :: rest)
          = part ++ '.' :: ['.'].intercalate (next :: rest) := by
        simp [List.intercalate]
      rw [hcons]
      exact hpart.append (ascii_cons (by decide) hrest)

theorem ascii_of_mapM {labels parts : List (List Char)} (h : labels.mapM asciiLabel? = some parts) :
    ∀ part ∈ parts, Ascii part := by
  induction labels generalizing parts with
  | nil =>
    cases h
    simp
  | cons label rest ih =>
    simp only [List.mapM_cons, Option.pure_def, Option.bind_eq_bind, Option.bind_eq_some_iff,
      Option.some.injEq] at h
    obtain ⟨part, hpart, tail, htail, rfl⟩ := h
    exact List.forall_mem_cons.mpr ⟨ascii_asciiLabel? hpart, ih htail⟩

/-- A domain is in ASCII, without the characters that no domain may hold. -/
theorem solid_asciiDomain? {cs name : List Char} (h : asciiDomain? cs = some name) : Solid name := by
  unfold asciiDomain? at h
  simp only [Option.pure_def, Option.bind_eq_bind, Option.bind_eq_some_iff] at h
  obtain ⟨labels, hlabels, h⟩ := h
  split at h
  · cases h
  · rename_i hallowed
    obtain rfl := Option.some.inj h
    intro c hc
    have hascii := ascii_intercalate (ascii_of_mapM hlabels) c hc
    simp only [List.any_eq_true, not_exists, not_and, Bool.not_eq_true] at hallowed
    have hc' := hallowed c hc
    simp only [isForbiddenInDomain, Bool.or_eq_false_iff, decide_eq_false_iff_not] at hc'
    exact isBlank_of_visible (by omega) hascii

theorem endsSolid_ipv4Text (address : Nat) : EndsSolid (ipv4Text address) := by
  have hpart (shift : Nat) := solid_toString (address / Nat.pow 2 shift % 256)
  have hpoint : isBlank '.' = false := by decide
  exact ((hpart 24).append (solid_cons hpoint ((hpart 16).append (solid_cons hpoint
    ((hpart 8).append (solid_cons hpoint (hpart 0))))))).endsSolid

theorem endsSolid_bracketed? {cs : List Char} {host : Host} (h : bracketed? cs = .ok host) :
    EndsSolid host.write := by
  unfold bracketed? at h
  split at h
  · split at h
    · obtain rfl := Except.ok.inj h
      have hclose : EndsSolid [']'] := (solid_cons (by decide) solid_nil).endsSolid
      exact hclose.append_left (by simp) ('[' :: _)
    · cases h
  · cases h

/-- The text of the host of a special scheme. -/
theorem endsSolid_parseHost {cs : List Char} {host : Host} (h : parseHost cs = .ok host) :
    EndsSolid host.write := by
  unfold parseHost at h
  split at h
  · exact endsSolid_bracketed? h
  · split at h
    · cases h
    · split at h
      · cases h
      · cases h
      · rename_i name _ hname
        split at h
        · split at h
          · obtain rfl := Except.ok.inj h
            exact endsSolid_ipv4Text _
          · cases h
        · obtain rfl := Except.ok.inj h
          exact (solid_asciiDomain? hname).endsSolid

/-- The text of the host of another scheme. -/
theorem endsSolid_parseOpaqueHost {cs : List Char} {host : Host} (h : parseOpaqueHost cs = .ok host) :
    EndsSolid host.write := by
  unfold parseOpaqueHost at h
  split at h
  · exact endsSolid_bracketed? h
  · split at h
    · cases h
    · rename_i hallowed
      obtain rfl := Except.ok.inj h
      have hspace : ' ' ∉ cs := by
        intro hmem
        exact hallowed (List.any_eq_true.mpr ⟨' ', hmem, by decide⟩)
      exact (solid_percentEncode (.inr hspace)).endsSolid

/-! ## Paths -/

/-- Segments without white space. -/
def SolidSegments (names : List (List Char)) : Prop := ∀ name ∈ names, Solid name

theorem solidSegments_append {as bs : List (List Char)} (ha : SolidSegments as)
    (hb : SolidSegments bs) : SolidSegments (as ++ bs) :=
  List.forall_mem_append.mpr ⟨ha, hb⟩

theorem solidSegments_singleton {name : List Char} (h : Solid name) : SolidSegments [name] := by
  simpa [SolidSegments] using h

theorem SolidSegments.shorten {names : List (List Char)} (h : SolidSegments names) (file : Bool) :
    SolidSegments (shorten file names) := by
  unfold Url.shorten
  split
  · split
    · exact h
    · simp [SolidSegments]
  · exact fun name hname => h name (List.dropLast_subset names hname)

/-- A drive letter with its colon. -/
theorem solidSegments_drive {name : List Char} (h : Solid name) :
    SolidSegments [name.take 1 ++ [':']] := by
  have hfront : Solid (name.take 1) := fun c hc => h c (List.take_subset 1 name hc)
  exact solidSegments_singleton (hfront.append (solid_cons (by decide) solid_nil))

theorem SolidSegments.resolve {file : Bool} {done names : List (List Char)}
    (hdone : SolidSegments done) (hnames : SolidSegments names) :
    SolidSegments (resolve file done names) := by
  have hempty : SolidSegments [[]] := solidSegments_singleton solid_nil
  fun_induction Url.resolve file done names with
  | case1 done => exact hdone
  | case2 done last h => exact solidSegments_append (hdone.shorten file) hempty
  | case3 done last h h' => exact solidSegments_append hdone hempty
  | case4 done last h h' hdrive => exact solidSegments_drive (hnames last List.mem_cons_self)
  | case5 done last h h' hdrive => exact solidSegments_append hdone hnames
  | case6 done name rest hne h ih =>
    exact ih (hdone.shorten file) fun n hn => hnames n (List.mem_cons_of_mem name hn)
  | case7 done name rest hne h h' ih =>
    exact ih hdone fun n hn => hnames n (List.mem_cons_of_mem name hn)
  | case8 done name rest hne h h' hdrive ih =>
    exact ih (solidSegments_drive (hnames name List.mem_cons_self)) fun n hn =>
      hnames n (List.mem_cons_of_mem name hn)
  | case9 done name rest hne h h' hdrive ih =>
    exact ih (solidSegments_append hdone (solidSegments_singleton (hnames name List.mem_cons_self)))
      fun n hn => hnames n (List.mem_cons_of_mem name hn)

theorem SolidSegments.dropEmptyFront {names : List (List Char)} (h : SolidSegments names) :
    SolidSegments (dropEmptyFront names) := by
  fun_induction Url.dropEmptyFront names with
  | case1 name rest ih => exact ih fun n hn => h n (List.mem_cons_of_mem _ hn)
  | case2 names => exact h

theorem solidSegments_parseSegments (special file : Bool) (cs : List Char) :
    SolidSegments (parseSegments special file cs) := by
  have hencoded (parts : List (List Char)) : SolidSegments (parts.map (percentEncode pathSet)) := by
    intro name hname
    obtain ⟨part, -, rfl⟩ := List.mem_map.mp hname
    exact solid_percentEncode (.inl (by decide))
  have hnone : SolidSegments [] := by simp [SolidSegments]
  unfold parseSegments
  dsimp only
  split
  · exact (hnone.resolve (hencoded _)).dropEmptyFront
  · exact hnone.resolve (hencoded _)

theorem solidSegments_parsePath (scheme cs : List Char) : SolidSegments (parsePath scheme cs) := by
  unfold parsePath
  dsimp only
  split
  · split
    · exact solidSegments_singleton solid_nil
    · simp [SolidSegments]
  · exact solidSegments_parseSegments _ _ _

/-! ## Queries and fragments -/

theorem solid_query (scheme cs : List Char) {query : List Char} (h : (parseTail scheme cs).1 = some query) :
    Solid query := by
  unfold parseTail at h
  dsimp only at h
  split at h
  · obtain rfl := Option.some.inj h
    refine solid_percentEncode (.inl ?_)
    split <;> decide
  · cases h

theorem solid_fragment (scheme cs : List Char) {fragment : List Char}
    (h : (parseTail scheme cs).2 = some fragment) : Solid fragment := by
  unfold parseTail at h
  dsimp only at h
  split at h
  · obtain rfl := Option.some.inj h
    exact solid_percentEncode (.inl (by decide))
  · cases h

/-- What starts with a mark is a query or a fragment. -/
theorem isSome_of_parseTail {scheme cs : List Char} {c : Char} (h : endsPath c = true) :
    (parseTail scheme (c :: cs)).1.isSome ∨ (parseTail scheme (c :: cs)).2.isSome := by
  simp only [endsPath, Bool.or_eq_true, beq_iff_eq] at h
  rcases h with rfl | rfl
  · left
    simp [parseTail]
  · right
    simp [parseTail]

/-! ## URLs -/

/-- A URL whose text starts with a character of its scheme and does not end in white space. -/
structure Tidy (u : Url) : Prop where
  scheme : ∃ c cs, u.scheme = c :: cs ∧ isBlank c = false
  host : ∀ host ∈ u.host, EndsSolid host.write
  path : EndsSolid u.pathText ∨ u.query.isSome ∨ u.fragment.isSome
  query : ∀ query ∈ u.query, EndsSolid query
  fragment : ∀ fragment ∈ u.fragment, EndsSolid fragment

theorem endsSolid_cons {c : Char} {cs : List Char} (hc : isBlank c = false) (hcs : EndsSolid cs) :
    EndsSolid (c :: cs) := by
  have hfirst : EndsSolid [c] := (solid_cons hc solid_nil).endsSolid
  exact hfirst.append hcs

theorem endsSolid_optionalText (mark : Char) {text : Option (List Char)}
    (hmark : isBlank mark = false) (h : ∀ cs ∈ text, EndsSolid cs) :
    EndsSolid (optionalText mark text) := by
  cases text with
  | none => exact solid_nil.endsSolid
  | some cs => exact endsSolid_cons hmark (h cs rfl)

theorem endsSolid_credentialsText (u : Url) : EndsSolid u.credentialsText := by
  unfold credentialsText
  split
  · exact solid_nil.endsSolid
  · exact (solid_cons (by decide) solid_nil : Solid ['@']).endsSolid.append_left (by simp) _

namespace Tidy

variable {u : Url}

theorem endsSolid_write (h : u.Tidy) : EndsSolid u.write := by
  have hquery := endsSolid_optionalText '?' (by decide) h.query
  have hfragment := endsSolid_optionalText '#' (by decide) h.fragment
  have hport : EndsSolid (optionalText ':' (u.port.map fun p => (toString p).toList)) := by
    refine endsSolid_optionalText ':' (by decide) fun cs hcs => ?_
    obtain ⟨p, -, rfl⟩ := Option.map_eq_some_iff.mp hcs
    exact (solid_toString p).endsSolid
  have hslash : isBlank '/' = false := by decide
  have hauthority (host : Host) (hhost : u.host = some host) :
      EndsSolid ('/' :: '/' :: (u.credentialsText ++ host.write
        ++ optionalText ':' (u.port.map fun p => (toString p).toList))) :=
    endsSolid_cons hslash (endsSolid_cons hslash
      (((endsSolid_credentialsText u).append (h.host host hhost)).append hport))
  -- a path that ends in a blank is not the end
  have hbody (front : List Char) (hfront : EndsSolid front) :
      EndsSolid (front ++ u.pathText ++ optionalText '?' u.query ++ optionalText '#' u.fragment) := by
    rcases h.path with hpath | hsome | hsome
    · exact ((hfront.append hpath).append hquery).append hfragment
    · obtain ⟨query, hq⟩ := Option.isSome_iff_exists.mp hsome
      refine (hquery.append_left ?_ _).append hfragment
      simp [hq, optionalText]
    · obtain ⟨fragment, hf⟩ := Option.isSome_iff_exists.mp hsome
      refine hfragment.append_left ?_ _
      simp [hf, optionalText]
  unfold write
  dsimp only
  refine (endsSolid_cons (by decide) (hbody _ ?_)).append_left (List.cons_ne_nil _ _) _
  cases hhost : u.host with
  | none => exact solid_nil.endsSolid
  | some host => exact hauthority host hhost

/-- The text of a tidy URL is trimmed to itself. -/
theorem trimBlanks_write (h : u.Tidy) : trimBlanks u.write = u.write := by
  refine trimBlanks_eq ?_ h.endsSolid_write
  obtain ⟨c, cs, hscheme, hc⟩ := h.scheme
  intro d hd
  rw [write, hscheme] at hd
  obtain rfl : c = d := by simpa using hd
  exact hc

end Tidy

theorem solid_segmentsText {names : List (List Char)} (h : SolidSegments names) :
    Solid (segmentsText names) := by
  intro c hc
  obtain ⟨name, hname, hmem⟩ := List.mem_flatMap.mp hc
  exact solid_cons (by decide) (h name hname) c hmem

/-- A URL is tidy once its path, its query and its fragment are read. -/
theorem tidy_finish {u : Url} (hscheme : ∃ c cs, u.scheme = c :: cs ∧ isBlank c = false)
    (hhost : ∀ host ∈ u.host, EndsSolid host.write) (cs : List Char) : (finish u cs).Tidy where
  scheme := hscheme
  host := hhost
  path := by
    left
    have hsegments := solid_segmentsText
      (solidSegments_parsePath u.scheme (cs.takeWhile (! endsPath ·)))
    have hguard (guarded : Bool) : Solid (if guarded then ['/', '.'] else []) := by
      cases guarded
      · exact solid_nil
      · exact solid_cons (by decide) (solid_cons (by decide) solid_nil)
    exact ((hguard _).append hsegments).endsSolid
  query query hquery := (solid_query _ _ hquery).endsSolid
  fragment fragment hfragment := (solid_fragment u.scheme _ hfragment).endsSolid

theorem isBlank_toLower {c : Char} (h : c.isAlpha = true) : isBlank c.toLower = false := by
  have hall : ∀ n < 0x80, (Char.ofNat n).isAlpha = true → isBlank (Char.ofNat n).toLower = false := by
    decide
  have hascii : c.toNat < 0x80 := by
    have hlast : c.val ≤ 'Z'.val ∨ c.val ≤ 'z'.val := by
      rcases (Bool.or_eq_true _ _).mp h with hupper | hlower
      · exact .inl (of_decide_eq_true hupper).2
      · exact .inr (of_decide_eq_true ((Bool.and_eq_true _ _).mp hlower).2)
    rcases hlast with hlast | hlast
    all_goals exact Nat.lt_of_le_of_lt (UInt32.le_iff_toNat_le.mp hlast) (by decide)
  have hchar := hall c.toNat hascii
  rw [Char.ofNat_toNat] at hchar
  exact hchar h

/-- The scheme starts with a letter, and the text ends in what follows its colon. -/
theorem takeScheme_spec {cs scheme rest : List Char} (h : takeScheme cs = some (scheme, rest)) :
    (∃ c tail, scheme = c :: tail ∧ isBlank c = false) ∧ ∃ front, cs = front ++ ':' :: rest := by
  unfold takeScheme at h
  dsimp only at h
  split at h
  · rename_i c _ hhead hdrop
    split at h
    · rename_i halpha
      obtain ⟨rfl, rfl⟩ := Prod.mk.inj (Option.some.inj h)
      obtain ⟨tail, htail⟩ := List.head?_eq_some_iff.mp hhead
      refine ⟨⟨c.toLower, tail.map Char.toLower, by rw [htail, List.map_cons], isBlank_toLower halpha⟩,
        cs.takeWhile isSchemeChar, ?_⟩
      rw [← hdrop, List.takeWhile_append_dropWhile]
    · cases h
  · cases h

/-- A text that was cleaned does not end in a blank. -/
theorem getLast?_clean (cs : List Char) : (clean cs).getLast? ≠ some ' ' := by
  unfold clean
  dsimp only
  generalize (cs.dropWhile isEdge).reverse = ds
  -- the last character that is kept is at no edge, and so it is kept by the filter too
  have hhead := List.head?_dropWhile_not isEdge ds
  cases hkept : ds.dropWhile isEdge with
  | nil => simp
  | cons c rest =>
    rw [hkept] at hhead
    have hedge : isEdge c = false := by simpa using hhead
    have hne (d : Char) (hd : isEdge d = true) : c ≠ d := by
      rintro rfl
      simp [hedge] at hd
    have hkeep : [c].filter (fun c => c != '\t' && c != '\n' && c != '\r') = [c] := by
      simp [hne '\t' (by decide), hne '\n' (by decide), hne '\r' (by decide)]
    rw [List.reverse_cons, List.filter_append, hkeep]
    simpa using hne ' ' (by decide)

/-- A computation that succeeds has succeeded in its first part. -/
theorem exists_of_bind {ε β γ : Type} {x : Except ε β} {f : β → Except ε γ} {y : γ}
    (h : x.bind f = .ok y) : ∃ a, x = .ok a ∧ f a = .ok y := by
  cases x with
  | error e => cases h
  | ok a => exact ⟨a, rfl, h⟩

theorem tidy_parseAuthority {scheme cs : List Char} {u : Url}
    (hscheme : ∃ c tail, scheme = c :: tail ∧ isBlank c = false)
    (h : parseAuthority scheme cs = .ok u) : u.Tidy := by
  have hfinish (username password : List Char) (host : Host) (port : Option Nat)
      (hhost : EndsSolid host.write) (rest : List Char) :
      (finish { scheme, username, password, host := some host, port, path := .segments [] } rest).Tidy := by
    refine tidy_finish hscheme ?_ rest
    rintro host' ⟨⟩
    exact hhost
  unfold parseAuthority at h
  simp only [bind, Except.bind, pure, Except.pure, throw, throwThe, MonadExceptOf.throw] at h
  split at h
  · cases h
  split at h
  · cases h
  -- both kinds of hosts are followed by the same
  split at h
  all_goals
    split at h
    · cases h
    rename_i host hparse
    have hhost : EndsSolid host.write := by
      first
        | exact endsSolid_parseHost hparse
        | exact endsSolid_parseOpaqueHost hparse
    split at h
    · cases h
    split at h
    · split at h
      · cases h
      split at h
      · cases h
      · exact Except.ok.inj h ▸ hfinish _ _ host _ hhost _
    · exact Except.ok.inj h ▸ hfinish _ _ host _ hhost _

theorem tidy_parseFile {cs : List Char} {u : Url} (h : parseFile cs = .ok u) : u.Tidy := by
  have hscheme : ∃ c tail, "file".toList = c :: tail ∧ isBlank c = false :=
    ⟨_, _, rfl, by decide⟩
  have hhost (host : Host) (h : EndsSolid host.write) :
      ∀ host' ∈ some host, EndsSolid host'.write := by
    rintro host' ⟨⟩
    exact h
  have hempty : EndsSolid (Host.domain []).write := solid_nil.endsSolid
  unfold parseFile at h
  dsimp only at h
  split at h
  · split at h
    · split at h
      · obtain rfl := Except.ok.inj h
        exact tidy_finish hscheme (hhost _ hempty) _
      · rename_i a b rest _ _
        obtain ⟨host, hparse, h⟩ := exists_of_bind h
        obtain rfl := Except.ok.inj h
        have htidy := tidy_finish (u := Url.mk "file".toList [] [] (some host) none (.segments []) none none)
          hscheme (hhost host (endsSolid_parseHost hparse))
          (rest.dropWhile fun c => !(isSlash true c || endsPath c))
        split
        · -- only the host is left out, and the path does not depend on which host there is
          exact { htidy with host := hhost _ hempty }
        · exact htidy
    · obtain rfl := Except.ok.inj h
      exact tidy_finish hscheme (hhost _ hempty) _
  · obtain rfl := Except.ok.inj h
    exact tidy_finish hscheme (hhost _ hempty) _

/-- A URL with an opaque path is tidy: a path that ends in a blank is followed by a mark. -/
theorem tidy_opaquePath {scheme rest : List Char}
    (hscheme : ∃ c tail, scheme = c :: tail ∧ isBlank c = false) (hlast : rest.getLast? ≠ some ' ') :
    Tidy { scheme
           path := .opaquePath (percentEncode [] (rest.takeWhile (! endsPath ·)))
           query := (parseTail scheme (rest.dropWhile (! endsPath ·))).1
           fragment := (parseTail scheme (rest.dropWhile (! endsPath ·))).2 } where
  scheme := hscheme
  host := by simp
  path := by
    cases hdrop : rest.dropWhile (! endsPath ·) with
    | nil =>
      -- nothing follows the path, so it ends as the text does
      left
      have hrest := List.takeWhile_append_dropWhile (p := (! endsPath ·)) (l := rest)
      rw [hdrop, List.append_nil] at hrest
      rw [← hrest] at hlast
      exact endsSolid_percentEncode hlast []
    | cons c cs =>
      right
      have hhead := List.head?_dropWhile_not (! endsPath ·) rest
      rw [hdrop] at hhead
      exact isSome_of_parseTail (by simpa using hhead)
  query query hquery := (solid_query scheme _ hquery).endsSolid
  fragment fragment hfragment := (solid_fragment scheme _ hfragment).endsSolid

/-- A URL that was read is tidy. -/
theorem tidy_of_parse {cs : List Char} {u : Url} (h : parse cs = .ok u) : u.Tidy := by
  unfold parse at h
  split at h
  · cases h
  · rename_i scheme rest hscheme
    obtain ⟨hfirst, front, hfront⟩ := takeScheme_spec hscheme
    split at h
    · exact tidy_parseFile h
    · split at h
      · exact tidy_parseAuthority hfirst h
      · split at h
        · exact tidy_parseAuthority hfirst h
        · obtain rfl := Except.ok.inj h
          refine tidy_finish hfirst ?_ _
          simp
        · obtain rfl := Except.ok.inj h
          refine tidy_opaquePath hfirst fun hlast => getLast?_clean cs ?_
          rw [hfront, List.getLast?_append, List.getLast?_cons, hlast]
          rfl

end RowMapping.Url
