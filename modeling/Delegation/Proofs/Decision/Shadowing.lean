import Delegation.Config.Matchers
import Delegation.Proofs.Decision.Governing
import Delegation.Proofs.Pattern.Denotation
import Delegation.Proofs.Pattern.Laws

namespace Delegation

namespace Segment

variable {p q : Segment} {ps qs piece : List Segment}

theorem rank_le (p : Segment) : p.rank ≤ 3 := by
  cases p <;> simp [rank]

theorem rank_of_not_isWildcard (h : p.isWildcard = false) : p.rank = 3 := by
  cases p with
  | literal => rfl
  | _ => cases h

theorem rank_pos (h : p ≠ anyDepth) : rank anyDepth < p.rank := by
  cases p with
  | anyDepth => exact absurd rfl h
  | _ => simp [rank]

theorem compare_ranks_cons (hq : q.rank = 3) (qs : List Segment) :
    compare (qs.map rank) ((q :: qs).map rank) = .lt := by
  rw [List.map_cons, hq]
  induction qs with
  | nil => rfl
  | cons r qs ih =>
    rw [List.map_cons, List.compare_cons_cons]
    rcases Nat.lt_or_eq_of_le r.rank_le with hlt | heq
    · rw [Nat.compare_eq_lt.2 hlt]
      rfl
    · rw [heq, Nat.compare_eq_eq.2 rfl]
      exact ih

theorem compare_ranks_append {names : List Segment} (hnames : ∀ q ∈ names, q.isWildcard = false)
    (h : (compare (ps.map rank) (qs.map rank)).isLE = true) :
    names = [] ∨ compare (ps.map rank) ((names ++ qs).map rank) = .lt := by
  induction names with
  | nil => exact .inl rfl
  | cons q names ih =>
    obtain ⟨hq, hnames⟩ := List.forall_mem_cons.1 hnames
    have hle : (compare (ps.map rank) ((names ++ qs).map rank)).isLE = true := by
      rcases ih hnames with rfl | hlt
      · exact h
      · rw [hlt]
        rfl
    exact .inr (Std.TransCmp.lt_of_isLE_of_lt hle (compare_ranks_cons (rank_of_not_isWildcard hq) _))

/-- A run with one wildcard ranks higher than the two stars that stand for it, unless it is these two stars. -/
theorem eq_or_lt_of_run (hone : piece.countP isWildcard = 1)
    (h : ps = qs ∨ compare (ps.map rank) (qs.map rank) = .lt) :
    anyDepth :: ps = piece ++ qs ∨ compare ((anyDepth :: ps).map rank) ((piece ++ qs).map rank) = .lt := by
  cases piece with
  | nil => cases hone
  | cons q names =>
    rw [List.cons_append, List.map_cons, List.map_cons, List.compare_cons_cons]
    by_cases hq : q = anyDepth
    · rw [hq, Nat.compare_eq_eq.2 rfl]
      have hnames : ∀ r ∈ names, r.isWildcard = false := by
        rw [hq, List.countP_cons_of_pos rfl, Nat.add_eq_right, List.countP_eq_zero] at hone
        exact fun r hr => Bool.eq_false_iff.2 (hone r hr)
      have hle : (compare (ps.map rank) (qs.map rank)).isLE = true := by
        rcases h with rfl | hlt
        · exact Std.ReflCmp.isLE_rfl
        · rw [hlt]
          rfl
      rcases compare_ranks_append hnames hle with rfl | hlt
      · exact h.imp_left (congrArg _)
      · exact .inr hlt
    · rw [Nat.compare_eq_lt.2 (rank_pos hq)]
      exact .inr rfl

variable [Matchers]

/-- What a segment takes of a narrower pattern, if two stars take at most one wildcard. -/
inductive TakesThinly : Segment → List Segment → Prop
  | anyDepth {piece : List Segment} : piece.countP isWildcard ≤ 1 → TakesThinly anyDepth piece
  | single {p q : Segment} : p.isAnyDepth = false → q.isAnyDepth = false → p.covers q = true →
      TakesThinly p [q]

theorem covering_of_cuts (h : Cuts TakesThinly ps qs) : covering.holds ps qs = true := by
  rw [covering_eq, wildcardMatch_iff_cuts]
  obtain ⟨pieces, hflatten, hpieces⟩ := h
  refine ⟨pieces, hflatten, hpieces.imp ?_⟩
  rintro p piece (hcount | ⟨-, hq, hcovers⟩)
  · exact .inl rfl
  · refine .inr ⟨_, rfl, ?_⟩
    rw [hq, hcovers]
    rfl

theorem isWildcard_of_covers (h : p.covers q = true) (hq : q.isWildcard = true) : p.isWildcard = true := by
  cases p with
  | literal =>
    cases q with
    | literal => cases hq
    | _ => cases h
  | _ => rfl

theorem rank_lt_or_eq_of_covers (h : p.covers q = true) : p.rank < q.rank ∨ p = q := by
  cases p <;> cases q <;> simp_all [covers, rank]

theorem TakesThinly.countP_le (h : TakesThinly p piece) :
    piece.countP isWildcard ≤ [p].countP isWildcard := by
  cases h with
  | anyDepth hcount => exact hcount
  | single _ _ hcovers =>
    rw [List.countP_singleton, List.countP_singleton]
    split
    next hq => rw [if_pos (isWildcard_of_covers hcovers hq)]
    next => exact Nat.zero_le _

theorem countP_le_of_cuts (h : Cuts TakesThinly ps qs) :
    qs.countP isWildcard ≤ ps.countP isWildcard := by
  induction ps generalizing qs with
  | nil => rw [cuts_nil.1 h]
  | cons p ps ih =>
    obtain ⟨piece, rest, rfl, hpiece, hrest⟩ := cuts_cons.1 h
    rw [← List.singleton_append, List.countP_append, List.countP_append]
    exact Nat.add_le_add hpiece.countP_le (ih hrest)

/-- With as many wildcards, the narrower of two patterns ranks higher, unless they are one pattern. -/
theorem eq_or_lt_of_cuts (h : Cuts TakesThinly ps qs)
    (hcount : qs.countP isWildcard = ps.countP isWildcard) :
    ps = qs ∨ compare (ps.map rank) (qs.map rank) = .lt := by
  induction ps generalizing qs with
  | nil => exact .inl (cuts_nil.1 h).symm
  | cons p ps ih =>
    obtain ⟨piece, rest, rfl, hpiece, hrest⟩ := cuts_cons.1 h
    rw [← List.singleton_append, List.countP_append, List.countP_append] at hcount
    -- no piece takes fewer wildcards than it may, as the others could not make up for it
    have hpieceCount := hpiece.countP_le
    have hrestCount := countP_le_of_cuts hrest
    have hall : piece.countP isWildcard = [p].countP isWildcard := by omega
    have hsame : rest.countP isWildcard = ps.countP isWildcard := by omega
    cases hpiece with
    | anyDepth => exact eq_or_lt_of_run hall (ih hrest hsame)
    | single _ _ hcovers =>
      rw [List.singleton_append, List.map_cons, List.map_cons, List.compare_cons_cons]
      rcases rank_lt_or_eq_of_covers hcovers with hlt | rfl
      · rw [Nat.compare_eq_lt.2 hlt]
        exact .inr rfl
      · rw [Nat.compare_eq_eq.2 rfl]
        exact (ih hrest hsame).imp_left (congrArg _)

end Segment

namespace PatternKind

variable [Matchers] {kind : PatternKind} {broad narrow : String}

/-- Covers so that two stars of the broad pattern stand for at most one wildcard of the narrow one. -/
def CoversThinly (kind : PatternKind) (broad narrow : String) : Prop :=
  Cuts Segment.TakesThinly (kind.pattern broad) (kind.pattern narrow)

theorem CoversThinly.covers (h : kind.CoversThinly broad narrow) : kind.covers broad narrow = true :=
  Segment.covering_of_cuts h

end PatternKind

namespace LimitRule

variable {g h : LimitRule}

theorem wildcards_specificity (l : LimitRule) :
    l.specificity.wildcards = (PatternKind.action.pattern l.action).countP Segment.isWildcard + 1 :=
  List.countP_append ..

variable [Matchers]

theorem order_of_coversThinly (hthin : PatternKind.action.CoversThinly g.action h.action)
    (hstrict : h.covers g = false) : h.specificity.order g.specificity = .gt := by
  have hcount := Segment.countP_le_of_cuts hthin
  rw [Specificity.order, wildcards_specificity, wildcards_specificity]
  rcases Nat.lt_or_eq_of_le hcount with hlt | heq
  · rw [Nat.compare_eq_gt.2 (Nat.succ_lt_succ hlt)]
    rfl
  · have hranks : compare h.specificity.actionRanks g.specificity.actionRanks = .gt := by
      rcases Segment.eq_or_lt_of_cuts hthin heq with hsame | hlt
      · rw [covers, PatternKind.covers, hsame, Segment.covering_refl] at hstrict
        cases hstrict
      · exact Std.OrientedCmp.gt_iff_lt.2 hlt
    rw [Nat.compare_eq_eq.2 (congrArg (· + 1) heq).symm, hranks]
    rfl

end LimitRule

namespace Document

/-- No limit for an action has a strictly narrower pattern than the one that governs, unless some two stars of
the governing pattern stand for several wildcards. -/
theorem covers_of_governing [Matchers] (d : Document) (action : String) (g h : LimitRule)
    (hg : d.governingLimit? action = some g) (hmem : h ∈ d.limits) (hdescribes : h.describes action = true)
    (hthin : PatternKind.action.CoversThinly g.action h.action) : h.covers g = true := by
  obtain ⟨i, hgoverns⟩ := exists_governs hg
  obtain ⟨j, hj⟩ := exists_limitsAt hmem hdescribes
  rw [← Bool.not_eq_false]
  intro hstrict
  exact hgoverns.precise h j hj (LimitRule.order_of_coversThinly hthin hstrict)

def versionedCalls : Document where
  statements := [limiting "api.**" 1000 3600, limiting "api.**" 5 3600, limiting "api.v1.*" 50 3600]
  wellFormed := by decide +kernel

/-- The tighter of two limits with one pattern governs; the looser one's pattern covers it. The limit on the
version has a strictly narrower pattern, and so none on the whole interface governs there. -/
theorem covers_of_governing_versionedCalls :
    let loose : LimitRule := ⟨"api.**", 1000, 3600, .high, 1⟩
    let tight : LimitRule := ⟨"api.**", 5, 3600, .high, 1⟩
    let narrow : LimitRule := ⟨"api.v1.*", 50, 3600, .high, 1⟩
    (versionedCalls.governingLimit? "api.health" = some tight ∧ loose ∈ versionedCalls.limits ∧
      loose.describes "api.health" = true ∧ PatternKind.action.CoversThinly tight.action loose.action ∧
      loose.covers tight = true) ∧
    narrow ∈ versionedCalls.limits ∧ narrow.describes "api.v1.call" = true ∧
      PatternKind.action.CoversThinly tight.action narrow.action ∧
      versionedCalls.governingLimit? "api.v1.call" ≠ some tight := by
  intro loose tight narrow
  have hbroad : PatternKind.action.pattern "api.**" = [.literal "api".toList, .anyDepth] := by
    decide +kernel
  have hself : PatternKind.action.CoversThinly tight.action loose.action := by
    rw [PatternKind.CoversThinly, hbroad]
    exact ⟨[[.literal "api".toList], [.anyDepth]], rfl,
      .cons (.single rfl rfl (by decide)) (.cons (.anyDepth (by decide)) .nil)⟩
  have hnarrow : PatternKind.action.CoversThinly tight.action narrow.action := by
    rw [PatternKind.CoversThinly, hbroad]
    exact ⟨[[.literal "api".toList], [.literal "v1".toList, .any]], by decide +kernel,
      .cons (.single rfl rfl (by decide)) (.cons (.anyDepth (by decide)) .nil)⟩
  have hgoverns : versionedCalls.governingLimit? "api.health" = some tight := by decide +kernel
  have hloose : loose.describes "api.health" = true := by decide +kernel
  have hdescribes : narrow.describes "api.v1.call" = true := by decide +kernel
  have hmem : narrow ∈ versionedCalls.limits := .tail _ (.tail _ (.head _))
  refine ⟨⟨hgoverns, .head _, hloose, hself, ?_⟩, hmem, hdescribes, hnarrow, fun hbroader => ?_⟩
  · exact covers_of_governing versionedCalls "api.health" tight loose hgoverns (.head _) hloose hself
  · have hcovers := covers_of_governing versionedCalls "api.v1.call" tight narrow hbroader hmem hdescribes hnarrow
    exact absurd hcovers (by decide +kernel)

def pooledCalls : Document where
  statements := [limiting "api.**" 1000 3600, limiting "api.*.*" 5 3600]
  wellFormed := by decide +kernel

/-- Two stars are one wildcard, and so go before two wildcards that they stand for. -/
theorem not_covers_of_governing : ¬ ∀ (d : Document) (action : String) (g h : LimitRule),
    d.governingLimit? action = some g → h ∈ d.limits → h.describes action = true → g.covers h = true →
      h.covers g = true := by
  intro hall
  have hgoverns : pooledCalls.governingLimit? "api.v1.call" = some ⟨"api.**", 1000, 3600, .high, 1⟩ := by
    decide +kernel
  have hcovers := hall pooledCalls "api.v1.call" _ ⟨"api.*.*", 5, 3600, .high, 1⟩ hgoverns
    (.tail _ (.head _)) (by decide +kernel) (by decide +kernel)
  exact absurd hcovers (by decide +kernel)

end Document

end Delegation
