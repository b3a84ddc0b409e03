/-
Which constructor instances are built with.

The candidates are sorted by rank and only the first two are looked at. That comes to the same
as looking at the candidates of the greatest rank: the sort is stable, so these are where the
sorted list starts, in the order of their declaration. One of them is the plan, two are a tie,
and none means that every constructor was rejected.

So the choice only knows the candidates of the greatest rank. It stays the same if the
constructors are declared in another order, or if one that is rejected or ranks lower is left
out.
-/
import RowMapping.Proofs.Instantiation.Places
import Mathlib.Data.Prod.Lex

set_option autoImplicit false

namespace RowMapping

variable {α : Type}

namespace Candidate

/-! ## Ranks -/

/-- The rank of a candidate. The number of parameters counts first, then being bound by name,
then the score. -/
def rank (c : Candidate α) : ℕ ×ₗ Bool ×ₗ ℕ :=
  toLex (c.constructor.parameters.length, toLex (c.named, c.score))

theorem ranksAtMost_iff {a b : Candidate α} : a.ranksAtMost b = true ↔ a.rank ≤ b.rank := by
  rw [rank, rank, Prod.Lex.toLex_le_toLex, Prod.Lex.toLex_le_toLex]
  simp [ranksAtMost, Bool.lt_iff]

/-- More parameters are a greater rank. -/
theorem rank_lt_of_parameters {a b : Candidate α}
    (h : a.constructor.parameters.length < b.constructor.parameters.length) : a.rank < b.rank :=
  Prod.Lex.toLex_lt_toLex.mpr (.inl h)

theorem sameRank_iff {a b : Candidate α} : a.sameRank b = true ↔ a.rank = b.rank := by
  rw [sameRank, Bool.and_eq_true, ranksAtMost_iff, ranksAtMost_iff, le_antisymm_iff]

/-! ## The greatest rank -/

/-- The candidates of the greatest rank, in their order. -/
def best (cs : List (Candidate α)) : List (Candidate α) :=
  cs.filter fun c => decide (∀ d ∈ cs, d.rank ≤ c.rank)

theorem mem_best {cs : List (Candidate α)} {c : Candidate α} :
    c ∈ best cs ↔ c ∈ cs ∧ ∀ d ∈ cs, d.rank ≤ c.rank := by
  rw [best, List.mem_filter, decide_eq_true_eq]

/-- Candidates of the greatest rank have the same rank. -/
theorem rank_eq_of_mem_best {cs : List (Candidate α)} {a b : Candidate α} (ha : a ∈ best cs)
    (hb : b ∈ best cs) : a.rank = b.rank :=
  le_antisymm ((mem_best.mp hb).2 a (mem_best.mp ha).1) ((mem_best.mp ha).2 b (mem_best.mp hb).1)

/-- Whoever is not of the greatest rank ranks lower than those who are. -/
theorem rank_lt_of_not_mem_best {cs : List (Candidate α)} {a d : Candidate α} (ha : a ∈ best cs)
    (hd : d ∈ cs) (hnot : d ∉ best cs) : d.rank < a.rank := by
  obtain ⟨hmem, hgreatest⟩ := mem_best.mp ha
  refine lt_of_le_of_ne (hgreatest d hd) fun hsame => hnot (mem_best.mpr ⟨hd, fun e he => ?_⟩)
  exact hsame ▸ hgreatest e he

/-- The items a test accepts come first if a test that accepts an item accepts all before it. -/
theorem eq_filter_append {β : Type} {p : β → Bool} {l : List β}
    (h : l.Pairwise fun a b => p b = true → p a = true) :
    l = l.filter p ++ l.filter fun a => !p a := by
  induction h with
  | nil => rfl
  | @cons a l hhead _ ih =>
    by_cases ha : p a = true
    · rw [List.filter_cons_of_pos ha, List.filter_cons_of_neg (by simp [ha]), List.cons_append, ← ih]
    · have hnone : l.filter p = [] :=
        List.filter_eq_nil_iff.mpr fun b hb hpb => ha (hhead b hb hpb)
      rw [List.filter_cons_of_neg ha, List.filter_cons_of_pos (by simp [ha]), hnone,
        List.nil_append]
      rw [hnone, List.nil_append] at ih
      rw [← ih]

theorem pairwise_ranked (cs : List (Candidate α)) :
    (ranked cs).Pairwise fun a b => b.rank ≤ a.rank := by
  refine (List.pairwise_mergeSort (fun a b c hab hbc => ?_) (fun a b => ?_) cs).imp ranksAtMost_iff.mp
  · exact ranksAtMost_iff.mpr ((ranksAtMost_iff.mp hbc).trans (ranksAtMost_iff.mp hab))
  · simpa [ranksAtMost_iff] using le_total b.rank a.rank

theorem mem_ranked {cs : List (Candidate α)} {c : Candidate α} : c ∈ ranked cs ↔ c ∈ cs :=
  (List.mergeSort_perm cs _).mem_iff

/-- The sort keeps the order of the candidates of the greatest rank, since they are of the same
rank. -/
theorem best_sublist_ranked (cs : List (Candidate α)) : List.Sublist (best cs) (ranked cs) := by
  refine List.sublist_mergeSort (fun a b c hab hbc => ?_) (fun a b => ?_) ?_ List.filter_sublist
  · exact ranksAtMost_iff.mpr ((ranksAtMost_iff.mp hbc).trans (ranksAtMost_iff.mp hab))
  · simpa [ranksAtMost_iff] using le_total b.rank a.rank
  · exact List.pairwise_of_forall_mem_list fun a ha b hb =>
      ranksAtMost_iff.mpr (rank_eq_of_mem_best hb ha).le

/-- The sorted candidates start with those of the greatest rank. -/
theorem ranked_eq_append (cs : List (Candidate α)) :
    ∃ others, ranked cs = best cs ++ others ∧ ∀ d ∈ others, d ∈ cs ∧ d ∉ best cs := by
  let greatest : Candidate α → Bool := fun c => decide (∀ d ∈ cs, d.rank ≤ c.rank)
  have hfilter : (ranked cs).filter greatest = best cs := by
    have hsublist : List.Sublist (best cs) ((ranked cs).filter greatest) := by
      have := (best_sublist_ranked cs).filter greatest
      rwa [best, List.filter_filter, show (fun c => greatest c && greatest c) = greatest by simp]
        at this
    exact (hsublist.eq_of_length ((List.mergeSort_perm cs _).filter greatest).length_eq.symm).symm
  -- sorted by rank, the greatest come first
  have hsplit := eq_filter_append (p := greatest) ((pairwise_ranked cs).imp fun {a b} hab hb => by
    exact decide_eq_true fun d hd => (of_decide_eq_true hb d hd).trans hab)
  rw [hfilter] at hsplit
  refine ⟨_, hsplit, fun d hd => ?_⟩
  obtain ⟨hmem, hnot⟩ := List.mem_filter.mp hd
  refine ⟨mem_ranked.mp hmem, fun hbest => ?_⟩
  have hgreatest : greatest d = true := decide_eq_true (mem_best.mp hbest).2
  rw [hgreatest] at hnot
  cases hnot

theorem best_eq_nil_iff {cs : List (Candidate α)} : best cs = [] ↔ cs = [] := by
  constructor
  · intro hnone
    cases hranked : ranked cs with
    | nil =>
      refine List.eq_nil_iff_forall_not_mem.mpr fun c hc => ?_
      have hmem := mem_ranked.mpr hc
      rw [hranked] at hmem
      cases hmem
    | cons first others =>
      have hbest : first ∈ best cs := by
        refine mem_best.mpr ⟨mem_ranked.mp (by simp [hranked]), fun d hd => ?_⟩
        have hpairwise := pairwise_ranked cs
        rw [hranked, List.pairwise_cons] at hpairwise
        rcases List.mem_cons.mp (hranked ▸ mem_ranked.mpr hd) with rfl | hothers
        · exact le_rfl
        · exact hpairwise.1 d hothers
      rw [hnone] at hbest
      cases hbest
  · rintro rfl
    rfl

/-- A single candidate has the greatest rank if all others rank lower. -/
theorem best_eq_singleton_iff {cs : List (Candidate α)} {c : Candidate α} :
    best cs = [c] ↔ ∃ before after, cs = before ++ c :: after ∧
      ∀ d ∈ before ++ after, d.rank < c.rank := by
  constructor
  · intro h
    have hc : c ∈ best cs := by simp [h]
    obtain ⟨before, after, hcs, hbefore, -, hafter⟩ := List.filter_eq_cons_iff.mp h
    -- whoever is not among the best ranks below the best
    refine ⟨before, after, hcs, fun d hd => rank_lt_of_not_mem_best hc ?_ fun hbest => ?_⟩
    · rw [hcs]
      rcases List.mem_append.mp hd with hd | hd <;> simp [hd]
    · have hgreatest := decide_eq_true (mem_best.mp hbest).2
      rcases List.mem_append.mp hd with hd | hd
      · exact hbefore d hd hgreatest
      · exact List.filter_eq_nil_iff.mp hafter d hd hgreatest
  · rintro ⟨before, after, rfl, hlower⟩
    refine List.filter_eq_cons_iff.mpr ⟨before, after, rfl, fun d hd hgreatest => ?_, ?_,
      List.filter_eq_nil_iff.mpr fun d hd hgreatest => ?_⟩
    · exact absurd (of_decide_eq_true hgreatest c (by simp)) (hlower d (by simp [hd])).not_ge
    · refine decide_eq_true fun d hd => ?_
      rcases List.mem_append.mp hd with hd | hd
      · exact (hlower d (by simp [hd])).le
      · rcases List.mem_cons.mp hd with rfl | hd
        · exact le_rfl
        · exact (hlower d (by simp [hd])).le
    · exact absurd (of_decide_eq_true hgreatest c (by simp)) (hlower d (by simp [hd])).not_ge

/-- Two candidates of the greatest rank are the first of them if all before the second rank lower,
but for the first. -/
theorem split_of_best_eq {cs more : List (Candidate α)} {a b : Candidate α}
    (h : best cs = a :: b :: more) : ∃ before between after,
      cs = before ++ a :: (between ++ b :: after) ∧ ∀ d ∈ before ++ between, d.rank < a.rank := by
  have ha : a ∈ best cs := by simp [h]
  obtain ⟨before, rest, hcs, hbefore, -, hrest⟩ := List.filter_eq_cons_iff.mp h
  obtain ⟨between, after, rfl, hbetween, -, -⟩ := List.filter_eq_cons_iff.mp hrest
  refine ⟨before, between, after, hcs, fun d hd => rank_lt_of_not_mem_best ha ?_ fun hbest => ?_⟩
  · rw [hcs]
    rcases List.mem_append.mp hd with hd | hd <;> simp [hd]
  · have hgreatest := decide_eq_true (mem_best.mp hbest).2
    rcases List.mem_append.mp hd with hd | hd
    · exact hbefore d hd hgreatest
    · exact hbetween d hd hgreatest

/-- There are several candidates of the greatest rank if two share it. -/
theorem best_eq_cons_cons_iff {cs : List (Candidate α)} :
    (∃ a b more, best cs = a :: b :: more) ↔ ∃ before a between b after,
      cs = before ++ a :: (between ++ b :: after) ∧ a.rank = b.rank ∧ ∀ d ∈ cs, d.rank ≤ a.rank := by
  constructor
  · rintro ⟨a, b, more, h⟩
    obtain ⟨before, between, after, hcs, -⟩ := split_of_best_eq h
    have ha : a ∈ best cs := by simp [h]
    have hb : b ∈ best cs := by simp [h]
    exact ⟨before, a, between, b, after, hcs, rank_eq_of_mem_best ha hb, (mem_best.mp ha).2⟩
  · rintro ⟨before, a, between, b, after, hcs, hsame, hgreatest⟩
    -- the filter keeps both, in the order in which they stand among the candidates
    have hpair : List.Sublist [a, b] (best cs) := by
      have hsublist : List.Sublist [a, b] cs := by
        rw [hcs]
        exact ((List.nil_sublist between).append
          ((List.nil_sublist after).cons_cons b)).cons_cons a |>.trans (List.sublist_append_right _ _)
      have hkept := hsublist.filter fun c => decide (∀ d ∈ cs, d.rank ≤ c.rank)
      have hboth : [a, b].filter (fun c => decide (∀ d ∈ cs, d.rank ≤ c.rank)) = [a, b] := by
        refine List.filter_eq_self.mpr fun c hc => decide_eq_true ?_
        rcases List.mem_pair.mp hc with rfl | rfl
        · exact hgreatest
        · exact hsame ▸ hgreatest
      rwa [hboth] at hkept
    have hlength := hpair.length_le
    rcases hbest : best cs with _ | ⟨first, _ | ⟨second, more⟩⟩
    · simp [hbest] at hlength
    · simp [hbest] at hlength
    · exact ⟨first, second, more, rfl⟩

end Candidate

/-! ## Constructors and candidates -/

/-- The candidates of some constructors. -/
def accepted (r : Registry α) (d : TypeDescription α) (columns : List Column)
    (cs : List (Constructor α)) : List (Candidate α) :=
  cs.filterMap fun c => (evaluate r d columns c).toOption

/-- A candidate ranks higher than what any of some constructors comes to. -/
def Candidate.Outranks (r : Registry α) (d : TypeDescription α) (columns : List Column)
    (candidate : Candidate α) (cs : List (Constructor α)) : Prop :=
  ∀ c ∈ cs, ∀ other, evaluate r d columns c = .ok other → other.rank < candidate.rank

section Accepted

variable {r : Registry α} {d : TypeDescription α} {columns : List Column}

theorem toOption_eq_some_iff {β ε : Type} {result : Except ε β} {x : β} :
    result.toOption = some x ↔ result = .ok x := by
  cases result <;> simp [Except.toOption]

theorem mem_accepted {cs : List (Constructor α)} {candidate : Candidate α} :
    candidate ∈ accepted r d columns cs ↔ ∃ c ∈ cs, evaluate r d columns c = .ok candidate := by
  simp only [accepted, List.mem_filterMap, toOption_eq_some_iff]

theorem accepted_append (before after : List (Constructor α)) :
    accepted r d columns (before ++ after) =
      accepted r d columns before ++ accepted r d columns after :=
  List.filterMap_append

theorem accepted_cons_of_ok {c : Constructor α} {candidate : Candidate α}
    (h : evaluate r d columns c = .ok candidate) (cs : List (Constructor α)) :
    accepted r d columns (c :: cs) = candidate :: accepted r d columns cs :=
  List.filterMap_cons_some (toOption_eq_some_iff.mpr h)

theorem accepted_cons_of_error {c : Constructor α} {reason : Rejection}
    (h : evaluate r d columns c = .error reason) (cs : List (Constructor α)) :
    accepted r d columns (c :: cs) = accepted r d columns cs :=
  List.filterMap_cons_none (by rw [h, Except.toOption])

/-- Where a candidate stands among others, its constructor stands among theirs. -/
theorem accepted_eq_append_cons_iff {cs : List (Constructor α)} {candidate : Candidate α}
    {before after : List (Candidate α)} :
    accepted r d columns cs = before ++ candidate :: after ↔ ∃ csBefore c csAfter,
      cs = csBefore ++ c :: csAfter ∧ accepted r d columns csBefore = before ∧
      evaluate r d columns c = .ok candidate ∧ accepted r d columns csAfter = after := by
  constructor
  · intro h
    obtain ⟨first, rest, rfl, hbefore, hrest⟩ := List.filterMap_eq_append_iff.mp h
    obtain ⟨skipped, c, csAfter, rfl, hskipped, hc, hafter⟩ := List.filterMap_eq_cons_iff.mp hrest
    refine ⟨first ++ skipped, c, csAfter, by simp, ?_, toOption_eq_some_iff.mp hc, hafter⟩
    have hnone : accepted r d columns skipped = [] := List.filterMap_eq_nil_iff.mpr hskipped
    rw [accepted_append, hnone, List.append_nil]
    exact hbefore
  · rintro ⟨csBefore, c, csAfter, rfl, rfl, hc, rfl⟩
    rw [accepted_append, accepted_cons_of_ok hc]

theorem outranks_iff {candidate : Candidate α} {cs : List (Constructor α)} :
    candidate.Outranks r d columns cs ↔
      ∀ other ∈ accepted r d columns cs, other.rank < candidate.rank := by
  constructor
  · intro h other hother
    obtain ⟨c, hc, hevaluate⟩ := mem_accepted.mp hother
    exact h c hc other hevaluate
  · intro h c hc other hevaluate
    exact h other (mem_accepted.mpr ⟨c, hc, hevaluate⟩)

/-- No constructor is accepted if and only if the rejections list them all, each with its
reason. -/
theorem accepted_eq_nil_iff {rejected : List (List Parameter × Rejection)} :
    accepted r d columns d.constructors = [] ∧ rejections r d columns = rejected ↔
      List.Forall₂ (fun c entry => entry.1 = c.parameters ∧
        evaluate r d columns c = .error entry.2) d.constructors rejected := by
  rw [rejections]
  -- a constructor is evaluated without regard to the others, so these can be any
  generalize d.constructors = cs
  induction cs generalizing rejected with
  | nil => simp [accepted, eq_comm]
  | cons c cs ih =>
    cases hc : evaluate r d columns c with
    | ok candidate =>
      rw [accepted_cons_of_ok hc, List.forall₂_cons_left_iff]
      simp [hc]
    | error reason =>
      rw [accepted_cons_of_error hc, List.forall₂_cons_left_iff]
      simp only [List.filterMap_cons, hc]
      constructor
      · rintro ⟨hnone, rfl⟩
        exact ⟨_, _, ⟨rfl, rfl⟩, ih.mp ⟨hnone, rfl⟩, rfl⟩
      · rintro ⟨⟨parameters, reason'⟩, rest, ⟨rfl, hreason⟩, hrest, rfl⟩
        cases hreason
        obtain ⟨hnone, rfl⟩ := ih.mpr hrest
        exact ⟨hnone, rfl⟩

end Accepted

/-! ## The choice -/

theorem constructor_of_evaluate {r : Registry α} {d : TypeDescription α} {columns : List Column}
    {c : Constructor α} {candidate : Candidate α} (h : evaluate r d columns c = .ok candidate) :
    candidate.constructor = c :=
  (evaluate_eq_ok h).2.1

section Choice

variable {r : Registry α} {t : Target α} {columns : List Column}

/-- What the search for a plan makes of the candidates of the greatest rank. -/
theorem findPlan_eq_best (hsome : t.description.constructors ≠ [])
    (hdirect : directPlan? r t columns = none) :
    findPlan r t columns = match Candidate.best (candidates r t.description columns) with
      | [] =>
        .error (.instantiation (.allRejected t.type columns (rejections r t.description columns)))
      | [candidate] => .ok (.reflective candidate)
      | first :: second :: _ =>
        .error (.instantiation (.ambiguous t.type columns first.constructor.parameters
          second.constructor.parameters first.score)) := by
  have hnonempty : t.description.constructors.isEmpty = false := by simpa using hsome
  rw [findPlan, hdirect]
  simp only [hnonempty, Bool.false_eq_true, if_false]
  obtain ⟨others, hranked, hothers⟩ := Candidate.ranked_eq_append (candidates r t.description columns)
  rcases hbest : Candidate.best (candidates r t.description columns) with
    _ | ⟨first, _ | ⟨second, more⟩⟩
  · have hnone : Candidate.ranked (candidates r t.description columns) = [] := by
      rw [Candidate.best_eq_nil_iff.mp hbest, Candidate.ranked, List.mergeSort_nil]
    rw [hnone]
  · rw [hranked, hbest]
    cases others with
    | nil => rfl
    | cons second others =>
      -- the second one in the sorted list is not of the greatest rank, so it is no tie
      obtain ⟨hmem, hnot⟩ := hothers second List.mem_cons_self
      have hfirst : first ∈ Candidate.best (candidates r t.description columns) := by
        simp [hbest]
      have hlower := Candidate.rank_lt_of_not_mem_best hfirst hmem hnot
      exact if_neg fun hsame => hlower.ne (Candidate.sameRank_iff.mp hsame)
  · have hfirst : first ∈ Candidate.best (candidates r t.description columns) := by simp [hbest]
    have hsecond : second ∈ Candidate.best (candidates r t.description columns) := by simp [hbest]
    rw [hranked, hbest]
    exact if_pos (Candidate.sameRank_iff.mpr (Candidate.rank_eq_of_mem_best hsecond hfirst))

/-- A constructor is chosen if and only if it outranks all others. -/
theorem findPlan_eq_ok_iff (hsome : t.description.constructors ≠ [])
    (hdirect : directPlan? r t columns = none) {plan : Plan α} :
    findPlan r t columns = .ok plan ↔ ∃ before c after candidate,
      t.description.constructors = before ++ c :: after ∧
      evaluate r t.description columns c = .ok candidate ∧ plan = .reflective candidate ∧
      candidate.Outranks r t.description columns (before ++ after) := by
  -- a plan is made of one best candidate, and not of none or of several
  have hsingle : findPlan r t columns = .ok plan ↔ ∃ candidate, plan = .reflective candidate ∧
      Candidate.best (accepted r t.description columns t.description.constructors)
        = [candidate] := by
    rw [findPlan_eq_best hsome hdirect, candidates, ← accepted]
    generalize Candidate.best (accepted r t.description columns t.description.constructors)
      = greatest
    rcases greatest with _ | ⟨a, _ | ⟨b, more⟩⟩ <;> simp [eq_comm]
  rw [hsingle]
  constructor
  · rintro ⟨candidate, rfl, hbest⟩
    obtain ⟨before, after, hsplit, hlower⟩ := Candidate.best_eq_singleton_iff.mp hbest
    obtain ⟨csBefore, c, csAfter, hcs, rfl, hc, rfl⟩ := accepted_eq_append_cons_iff.mp hsplit
    exact ⟨csBefore, c, csAfter, candidate, hcs, hc, rfl, outranks_iff.mpr
      (accepted_append csBefore csAfter ▸ hlower)⟩
  · rintro ⟨before, c, after, candidate, hcs, hc, rfl, hlower⟩
    refine ⟨candidate, rfl, Candidate.best_eq_singleton_iff.mpr
      ⟨_, _, accepted_eq_append_cons_iff.mpr ⟨before, c, after, hcs, rfl, hc, rfl⟩, ?_⟩⟩
    exact accepted_append before after ▸ outranks_iff.mp hlower

/-- A plan converts a single column or uses a constructor that is accepted. -/
theorem findPlan_ok_cases {plan : Plan α} (h : findPlan r t columns = .ok plan) :
    (∃ column conversion, columns = [column] ∧ plan = .direct conversion ∧
      ColumnConversion.find? r column t.type = some conversion) ∨
    ∃ c ∈ t.description.constructors, ∃ candidate,
      evaluate r t.description columns c = .ok candidate ∧ plan = .reflective candidate := by
  cases hdirect : directPlan? r t columns with
  | some conversion =>
    rw [findPlan, hdirect] at h
    cases h
    unfold directPlan? at hdirect
    split at hdirect
    · split at hdirect
      · cases hdirect
      · exact .inl ⟨_, conversion, rfl, rfl, hdirect⟩
    · cases hdirect
  | none =>
    have hsome : t.description.constructors ≠ [] := by
      intro hempty
      simp [findPlan, hdirect, hempty] at h
    obtain ⟨before, c, after, candidate, hcs, hc, rfl, -⟩ :=
      (findPlan_eq_ok_iff hsome hdirect).mp h
    exact .inr ⟨c, by simp [hcs], candidate, hc, rfl⟩

/-- There is a tie if and only if two constructors share the greatest rank. -/
theorem findPlan_ambiguous_iff (hsome : t.description.constructors ≠ [])
    (hdirect : directPlan? r t columns = none) :
    (∃ first second score, findPlan r t columns =
      .error (.instantiation (.ambiguous t.type columns first second score))) ↔
      ∃ before c between c' after candidate candidate',
        t.description.constructors = before ++ c :: (between ++ c' :: after) ∧
        evaluate r t.description columns c = .ok candidate ∧
        evaluate r t.description columns c' = .ok candidate' ∧
        candidate.rank = candidate'.rank ∧
        ∀ d ∈ t.description.constructors, ∀ other,
          evaluate r t.description columns d = .ok other → other.rank ≤ candidate.rank := by
  -- this error is that of several best candidates, and of nothing else
  have htwo : (∃ first second score, findPlan r t columns =
      .error (.instantiation (.ambiguous t.type columns first second score))) ↔ ∃ a b more,
      Candidate.best (accepted r t.description columns t.description.constructors)
        = a :: b :: more := by
    rw [findPlan_eq_best hsome hdirect, candidates, ← accepted]
    generalize Candidate.best (accepted r t.description columns t.description.constructors)
      = greatest
    rcases greatest with _ | ⟨a, _ | ⟨b, more⟩⟩ <;> simp
  rw [htwo, Candidate.best_eq_cons_cons_iff]
  constructor
  · rintro ⟨before, a, rest, b, after, hsplit, hsame, hgreatest⟩
    obtain ⟨csBefore, c, csRest, hcs, -, hc, hrest⟩ := accepted_eq_append_cons_iff.mp hsplit
    obtain ⟨csBetween, c', csAfter, rfl, -, hc', -⟩ := accepted_eq_append_cons_iff.mp hrest
    exact ⟨csBefore, c, csBetween, c', csAfter, a, b, hcs, hc, hc', hsame, fun d hd other hother =>
      hgreatest other (mem_accepted.mpr ⟨d, hd, hother⟩)⟩
  · rintro ⟨before, c, between, c', after, candidate, candidate', hcs, hc, hc', hsame, hgreatest⟩
    have hrest := accepted_eq_append_cons_iff.mpr ⟨between, c', after, rfl, rfl, hc', rfl⟩
    refine ⟨_, candidate, _, candidate', _,
      accepted_eq_append_cons_iff.mpr ⟨before, c, _, hcs, rfl, hc, hrest⟩, hsame,
      fun other hother => ?_⟩
    obtain ⟨d, hd, hevaluate⟩ := mem_accepted.mp hother
    exact hgreatest d hd other hevaluate

/-- A tie is told of the first two constructors of the greatest rank. -/
theorem first_of_ambiguous (hsome : t.description.constructors ≠ [])
    (hdirect : directPlan? r t columns = none) {first second : List Parameter} {score : Nat}
    (h : findPlan r t columns =
      .error (.instantiation (.ambiguous t.type columns first second score))) :
    ∃ before c between c' after candidate,
      t.description.constructors = before ++ c :: (between ++ c' :: after) ∧
      evaluate r t.description columns c = .ok candidate ∧
      candidate.Outranks r t.description columns (before ++ between) ∧
      first = c.parameters ∧ second = c'.parameters ∧ score = candidate.score := by
  rw [findPlan_eq_best hsome hdirect, candidates, ← accepted] at h
  rcases hbest : Candidate.best (accepted r t.description columns t.description.constructors) with
    _ | ⟨a, _ | ⟨b, more⟩⟩
  · simp [hbest] at h
  · simp [hbest] at h
  · rw [hbest] at h
    cases h
    obtain ⟨before, between, after, hsplit, hlower⟩ := Candidate.split_of_best_eq hbest
    obtain ⟨csBefore, c, csRest, hcs, rfl, hc, hrest⟩ := accepted_eq_append_cons_iff.mp hsplit
    obtain ⟨csBetween, c', csAfter, rfl, rfl, hc', -⟩ := accepted_eq_append_cons_iff.mp hrest
    refine ⟨csBefore, c, csBetween, c', csAfter, a, hcs, hc, outranks_iff.mpr ?_, ?_, ?_, rfl⟩
    · exact accepted_append csBefore csBetween ▸ hlower
    · rw [constructor_of_evaluate hc]
    · rw [constructor_of_evaluate hc']

/-- All constructors are listed with their reasons if and only if none is accepted. -/
theorem findPlan_allRejected_iff (hsome : t.description.constructors ≠ [])
    (hdirect : directPlan? r t columns = none) {rejected : List (List Parameter × Rejection)} :
    findPlan r t columns = .error (.instantiation (.allRejected t.type columns rejected)) ↔
      List.Forall₂ (fun c entry => entry.1 = c.parameters ∧
        evaluate r t.description columns c = .error entry.2)
        t.description.constructors rejected := by
  rw [← accepted_eq_nil_iff, ← Candidate.best_eq_nil_iff, findPlan_eq_best hsome hdirect,
    candidates, ← accepted]
  generalize Candidate.best (accepted r t.description columns t.description.constructors) = greatest
  rcases greatest with _ | ⟨a, _ | ⟨b, more⟩⟩ <;> simp

/-! ## What the choice does not depend on -/

/-- What a search for a plan comes to, without what the messages tell. -/
inductive Choice (α : Type) where
  | chosen (plan : Plan α)
  | tied
  | noneAccepted
  | failed (e : Error)

/-- What the result of a search tells of the choice. -/
def Choice.of : Except Error (Plan α) → Choice α
  | .ok plan => .chosen plan
  | .error (.instantiation (.ambiguous ..)) => .tied
  | .error (.instantiation (.allRejected ..)) => .noneAccepted
  | .error e => .failed e

/-- A target with other constructors. -/
def Target.withConstructors (t : Target α) (cs : List (Constructor α)) : Target α :=
  { t with description := { t.description with constructors := cs } }

/-- What the candidates of the greatest rank come to. -/
def Choice.among : List (Candidate α) → Choice α
  | [] => .noneAccepted
  | [candidate] => .chosen (.reflective candidate)
  | _ => .tied

theorem choice_eq_among (hsome : t.description.constructors ≠ [])
    (hdirect : directPlan? r t columns = none) :
    Choice.of (findPlan r t columns) =
      .among (Candidate.best (accepted r t.description columns t.description.constructors)) := by
  rw [findPlan_eq_best hsome hdirect, candidates, ← accepted]
  generalize Candidate.best (accepted r t.description columns t.description.constructors) = greatest
  rcases greatest with _ | ⟨a, _ | ⟨b, more⟩⟩ <;> rfl

/-- The order of the candidates of the greatest rank does not matter. -/
theorem among_perm {cs cs' : List (Candidate α)} (h : cs.Perm cs') :
    Choice.among cs = Choice.among cs' := by
  have hlength := h.length_eq
  match cs, cs' with
  | [], [] => rfl
  | [c], [c'] => rw [List.singleton_perm_singleton.mp h]
  | _ :: _ :: _, _ :: _ :: _ => rfl
  | [], _ :: _ | _ :: _, [] | [_], _ :: _ :: _ | _ :: _ :: _, [_] => simp at hlength

theorem Candidate.best_perm {cs cs' : List (Candidate α)} (h : cs.Perm cs') :
    (best cs).Perm (best cs') := by
  have hsame : (fun c : Candidate α => decide (∀ d ∈ cs, d.rank ≤ c.rank)) =
      fun c => decide (∀ d ∈ cs', d.rank ≤ c.rank) := by
    funext c
    exact decide_eq_decide.mpr ⟨fun hc d hd => hc d (h.mem_iff.mpr hd),
      fun hc d hd => hc d (h.mem_iff.mp hd)⟩
  rw [best, best, hsame]
  exact h.filter _

/-- A candidate that another one outranks is not missed among those of the greatest rank. -/
theorem Candidate.best_remove {before after : List (Candidate α)} {c d : Candidate α}
    (hd : d ∈ before ++ after) (hlower : c.rank < d.rank) :
    best (before ++ c :: after) = best (before ++ after) := by
  have hsame : (fun x : Candidate α => decide (∀ y ∈ before ++ c :: after, y.rank ≤ x.rank)) =
      fun x => decide (∀ y ∈ before ++ after, y.rank ≤ x.rank) := by
    funext x
    refine decide_eq_decide.mpr ⟨fun h y hy => h y ?_, fun h y hy => ?_⟩
    · rcases List.mem_append.mp hy with hy | hy <;> simp [hy]
    · rcases List.mem_append.mp hy with hy | hy
      · exact h y (by simp [hy])
      · rcases List.mem_cons.mp hy with rfl | hy
        · exact hlower.le.trans (h d hd)
        · exact h y (by simp [hy])
  rw [best, best, hsame, List.filter_append, List.filter_append, List.filter_cons_of_neg]
  exact fun hgreatest => absurd (of_decide_eq_true hgreatest d hd) hlower.not_ge

/-- A single column is converted directly whatever the constructors are, as long as there are
any. -/
theorem directPlan?_withConstructors {cs : List (Constructor α)}
    (hsome : t.description.constructors ≠ []) (hcs : cs ≠ []) :
    directPlan? r (t.withConstructors cs) columns = directPlan? r t columns := by
  have hempty : cs.isEmpty = t.description.constructors.isEmpty := by
    rw [List.isEmpty_eq_false_iff.mpr hcs, List.isEmpty_eq_false_iff.mpr hsome]
  unfold directPlan?
  simp only [Target.withConstructors, hempty]

theorem choice_withConstructors (hsome : t.description.constructors ≠ [])
    (hdirect : directPlan? r t columns = none) {cs : List (Constructor α)} (hcs : cs ≠ []) :
    Choice.of (findPlan r (t.withConstructors cs) columns) =
      .among (Candidate.best (accepted r t.description columns cs)) :=
  choice_eq_among (t := t.withConstructors cs) hcs
    ((directPlan?_withConstructors hsome hcs).trans hdirect)

/-- The order in which constructors are declared does not matter. -/
theorem choice_perm (hsome : t.description.constructors ≠ [])
    (hdirect : directPlan? r t columns = none) {cs : List (Constructor α)}
    (h : cs.Perm t.description.constructors) :
    Choice.of (findPlan r (t.withConstructors cs) columns) = Choice.of (findPlan r t columns) := by
  have hcs : cs ≠ [] := fun hnil => hsome (List.nil_perm.mp (hnil ▸ h))
  rw [choice_withConstructors hsome hdirect hcs, choice_eq_among hsome hdirect]
  exact among_perm (Candidate.best_perm (h.filterMap _))

/-- A constructor that is rejected or outranked by another one does not matter. -/
theorem choice_remove (hdirect : directPlan? r t columns = none)
    {before after : List (Constructor α)} {c : Constructor α}
    (hsplit : t.description.constructors = before ++ c :: after) (hothers : before ++ after ≠ [])
    (hc : ∀ candidate, evaluate r t.description columns c = .ok candidate →
      ∃ d ∈ before ++ after, ∃ other, evaluate r t.description columns d = .ok other ∧
        candidate.rank < other.rank) :
    Choice.of (findPlan r (t.withConstructors (before ++ after)) columns) =
      Choice.of (findPlan r t columns) := by
  have hsome : t.description.constructors ≠ [] := by simp [hsplit]
  rw [choice_withConstructors hsome hdirect hothers, choice_eq_among hsome hdirect, hsplit,
    accepted_append, accepted_append]
  cases hevaluate : evaluate r t.description columns c with
  | error reason => rw [accepted_cons_of_error hevaluate]
  | ok candidate =>
    obtain ⟨d, hd, other, hother, hlower⟩ := hc candidate hevaluate
    have hmem := mem_accepted.mpr ⟨d, hd, hother⟩
    rw [accepted_append] at hmem
    rw [accepted_cons_of_ok hevaluate, Candidate.best_remove hmem hlower]

/-- The search for a plan ends with a chosen constructor, with a tie, or with no constructor
accepted. -/
theorem findPlan_error_cases (hsome : t.description.constructors ≠ [])
    (hdirect : directPlan? r t columns = none) {e : Error} (h : findPlan r t columns = .error e) :
    (∃ first second score, e = .instantiation (.ambiguous t.type columns first second score)) ∨
      ∃ rejected, e = .instantiation (.allRejected t.type columns rejected) := by
  rw [findPlan_eq_best hsome hdirect] at h
  generalize Candidate.best (candidates r t.description columns) = greatest at h
  rcases greatest with _ | ⟨a, _ | ⟨b, more⟩⟩
  · cases h
    exact .inr ⟨_, rfl⟩
  · cases h
  · cases h
    exact .inl ⟨_, _, _, rfl⟩

/-- If no constructor is accepted, there is a list of the reasons. -/
theorem forall_rejected_iff {d : TypeDescription α} {cs : List (Constructor α)} :
    (∃ rejected : List (List Parameter × Rejection), List.Forall₂ (fun c entry =>
      entry.1 = c.parameters ∧ evaluate r d columns c = .error entry.2) cs rejected) ↔
      ∀ c ∈ cs, ∃ reason, evaluate r d columns c = .error reason := by
  induction cs with
  | nil => exact ⟨fun _ c hc => absurd hc List.not_mem_nil, fun _ => ⟨[], .nil⟩⟩
  | cons c cs ih =>
    rw [List.forall_mem_cons, ← ih]
    constructor
    · rintro ⟨_, _ | ⟨⟨-, hc⟩, hrest⟩⟩
      exact ⟨⟨_, hc⟩, _, hrest⟩
    · rintro ⟨⟨reason, hc⟩, rejected, hrest⟩
      exact ⟨(c.parameters, reason) :: rejected, .cons ⟨rfl, hc⟩ hrest⟩

end Choice

/-- Instances are built with the constructor that is accepted and outranks all others that are.
Two that share the greatest rank are a tie, which is told of the first two; if none is accepted,
the failure lists every constructor in order with its reason; and there is no other outcome. So
neither the order of the constructors matters, nor one that is rejected or outranked. -/
theorem findPlan_choosesGreatestRank {r : Registry α} {t : Target α} {columns : List Column}
    (hsome : t.description.constructors ≠ []) (hdirect : directPlan? r t columns = none) :
    (∀ plan, findPlan r t columns = .ok plan ↔ ∃ before c after candidate,
      t.description.constructors = before ++ c :: after ∧
      evaluate r t.description columns c = .ok candidate ∧ plan = .reflective candidate ∧
      candidate.Outranks r t.description columns (before ++ after)) ∧
    ((∃ first second score, findPlan r t columns =
      .error (.instantiation (.ambiguous t.type columns first second score))) ↔
      ∃ before c between c' after candidate candidate',
        t.description.constructors = before ++ c :: (between ++ c' :: after) ∧
        evaluate r t.description columns c = .ok candidate ∧
        evaluate r t.description columns c' = .ok candidate' ∧
        candidate.rank = candidate'.rank ∧
        ∀ d ∈ t.description.constructors, ∀ other,
          evaluate r t.description columns d = .ok other → other.rank ≤ candidate.rank) ∧
    (∀ first second score, findPlan r t columns =
      .error (.instantiation (.ambiguous t.type columns first second score)) →
      ∃ before c between c' after candidate,
        t.description.constructors = before ++ c :: (between ++ c' :: after) ∧
        evaluate r t.description columns c = .ok candidate ∧
        candidate.Outranks r t.description columns (before ++ between) ∧
        first = c.parameters ∧ second = c'.parameters ∧ score = candidate.score) ∧
    ((∃ rejected, findPlan r t columns =
      .error (.instantiation (.allRejected t.type columns rejected))) ↔
      ∀ c ∈ t.description.constructors, ∃ reason,
        evaluate r t.description columns c = .error reason) ∧
    (∀ rejected, findPlan r t columns =
      .error (.instantiation (.allRejected t.type columns rejected)) →
      List.Forall₂ (fun c entry => entry.1 = c.parameters ∧
        evaluate r t.description columns c = .error entry.2)
        t.description.constructors rejected) ∧
    (∀ e, findPlan r t columns = .error e →
      (∃ first second score, e = .instantiation (.ambiguous t.type columns first second score)) ∨
      ∃ rejected, e = .instantiation (.allRejected t.type columns rejected)) ∧
    (∀ cs, cs.Perm t.description.constructors →
      Choice.of (findPlan r (t.withConstructors cs) columns) =
        Choice.of (findPlan r t columns)) ∧
    ∀ before c after, t.description.constructors = before ++ c :: after → before ++ after ≠ [] →
      (∀ candidate, evaluate r t.description columns c = .ok candidate →
        ∃ d ∈ before ++ after, ∃ other, evaluate r t.description columns d = .ok other ∧
          candidate.rank < other.rank) →
      Choice.of (findPlan r (t.withConstructors (before ++ after)) columns) =
        Choice.of (findPlan r t columns) := by
  refine ⟨fun _ => findPlan_eq_ok_iff hsome hdirect, findPlan_ambiguous_iff hsome hdirect,
    fun _ _ _ => first_of_ambiguous hsome hdirect, ?_,
    fun _ => (findPlan_allRejected_iff hsome hdirect).mp,
    fun _ => findPlan_error_cases hsome hdirect, fun _ => choice_perm hsome hdirect,
    fun _ _ _ => choice_remove hdirect⟩
  simp only [findPlan_allRejected_iff hsome hdirect]
  exact forall_rejected_iff

/-- A constructor of a parameter that a column is named after. -/
def namedSingle : Constructor Empty := ⟨[⟨"first", .string⟩], nextArgument .string⟩

/-- A constructor of two parameters that no column is named after. -/
def unnamedPair : Constructor Empty := ⟨[⟨"left", .string⟩, ⟨"right", .string⟩], nextArgument .string⟩

/-- A target with both constructors, and a property for the second column. -/
def pairTarget : Target Empty where
  type := .string
  description :=
    { constructors := [namedSingle, unnamedPair]
      members := [.property "second" .string fun _ owner => owner] }

/-- Two columns of unknown kind. -/
def pairColumns : List Column := [⟨0, "first", .null, none⟩, ⟨1, "second", .null, none⟩]

/-- Both constructors are accepted, the first one by name, and the one with more parameters is
chosen, also where it is the only one. -/
theorem findPlan_choosesGreatestRank_pair :
    pairTarget.description.constructors ≠ [] ∧
    directPlan? Registry.empty pairTarget pairColumns = none ∧
    (∃ candidate,
      evaluate Registry.empty pairTarget.description pairColumns namedSingle = .ok candidate) ∧
    ∃ candidate, candidate.constructor = unnamedPair ∧
      findPlan Registry.empty pairTarget pairColumns = .ok (.reflective candidate) ∧
      Choice.of (findPlan Registry.empty (pairTarget.withConstructors [unnamedPair]) pairColumns) =
        .chosen (.reflective candidate) := by
  have hsome : pairTarget.description.constructors ≠ [] := List.cons_ne_nil _ _
  have hdirect : directPlan? Registry.empty pairTarget pairColumns = none := rfl
  obtain ⟨hchosen, -, -, -, -, -, -, hremove⟩ := findPlan_choosesGreatestRank hsome hdirect
  obtain ⟨one, hone⟩ : ∃ one,
      evaluate Registry.empty pairTarget.description pairColumns namedSingle = .ok one := ⟨_, rfl⟩
  obtain ⟨two, htwo⟩ : ∃ two,
      evaluate Registry.empty pairTarget.description pairColumns unnamedPair = .ok two := ⟨_, rfl⟩
  have hlower : ∀ candidate,
      evaluate Registry.empty pairTarget.description pairColumns namedSingle = .ok candidate →
        candidate.rank < two.rank := fun candidate hcandidate => by
    refine Candidate.rank_lt_of_parameters ?_
    rw [constructor_of_evaluate hcandidate, constructor_of_evaluate htwo]
    decide
  have hplan : findPlan Registry.empty pairTarget pairColumns = .ok (.reflective two) := by
    refine (hchosen _).mpr
      ⟨[namedSingle], unnamedPair, [], two, rfl, htwo, rfl, fun c hc other hother => ?_⟩
    rw [List.append_nil, List.mem_singleton] at hc
    exact hlower other (hc ▸ hother)
  refine ⟨hsome, hdirect, ⟨one, hone⟩, two, constructor_of_evaluate htwo, hplan, ?_⟩
  have hsame := hremove [] namedSingle [unnamedPair] rfl (List.cons_ne_nil _ _)
    fun candidate hcandidate =>
      ⟨unnamedPair, List.mem_singleton_self _, two, htwo, hlower candidate hcandidate⟩
  rw [hplan] at hsame
  exact hsame

end RowMapping
