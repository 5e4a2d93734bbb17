import Delegation.Proofs.Decision.Governing
import Delegation.Proofs.Decision.Interleaving
import Delegation.Proofs.Policy.Regrouping

namespace Delegation

namespace Match

variable {m n : Match} {ms ns rest : List Match}

theorem precedes_of_head (h : ms.mergeSort precedes = m :: rest) (hn : n ∈ ms) :
    m.precedes n = true := by
  have hsorted := List.pairwise_mergeSort precedes_trans precedes_total ms
  have hmem : n ∈ ms.mergeSort precedes := List.mem_mergeSort.2 hn
  rw [h] at hsorted hmem
  rcases List.mem_cons.1 hmem with rfl | hmem
  · exact (ties_iff.1 n.ties_refl).1
  · exact List.rel_of_pairwise_cons hsorted hmem

theorem find?_ties_of_head (h : ms.mergeSort precedes = m :: rest) (hn : n.ties m = true) :
    ms.find? n.ties = some m := by
  rw [← List.head?_filter, ← filter_ties_mergeSort, h, List.filter_cons_of_pos hn]
  rfl

theorem head?_mergeSort_of_find? (h : ∀ m : Match, ms.find? m.ties = ns.find? m.ties)
    (hm : (ms.mergeSort precedes).head? = some m) : (ns.mergeSort precedes).head? = some m := by
  obtain ⟨rest, hms⟩ := List.head?_eq_some_iff.1 hm
  have hfirst : ns.find? m.ties = some m := (h m).symm.trans (find?_ties_of_head hms m.ties_refl)
  have hmem : m ∈ ns := List.mem_of_find?_eq_some hfirst
  obtain ⟨n, rest', hns⟩ := List.exists_cons_of_ne_nil (List.ne_nil_of_mem (List.mem_mergeSort.2 hmem))
  have hmem' : n ∈ ms := List.mem_of_find?_eq_some ((h n).trans (find?_ties_of_head hns n.ties_refl))
  have hties : m.ties n = true := ties_iff.2 ⟨precedes_of_head hms hmem', precedes_of_head hns hmem⟩
  rw [hns, ← hfirst, find?_ties_of_head hns hties]
  rfl

/-- Lists that have the same first match in each class of ties are led by the same match. -/
theorem head?_mergeSort_congr (h : ∀ m : Match, ms.find? m.ties = ns.find? m.ties) :
    (ms.mergeSort precedes).head? = (ns.mergeSort precedes).head? :=
  Option.ext fun _ => ⟨head?_mergeSort_of_find? h, head?_mergeSort_of_find? fun m => (h m).symm⟩

end Match

namespace LimitRule

variable {g l : LimitRule} {limits : List LimitRule}

theorem outranks_irrefl (l : LimitRule) : l.outranks l = false :=
  outranks_eq_false_iff.2 (.inr ⟨Specificity.order_eq_iff.2 rfl, .refl l⟩)

theorem not_outranks_governing (hpos : ∀ m ∈ limits, 0 < m.period) (hg : governing? limits = some g)
    (hl : l ∈ limits) : l.outranks g = false := by
  obtain ⟨before, after, rfl, hbefore, hafter⟩ := heads_of_governing? hpos hg
  rcases List.mem_append.1 hl with hl | hl
  · exact outranks_asymm (hbefore l hl)
  · rcases List.mem_cons.1 hl with rfl | hl
    · exact outranks_irrefl l
    · exact hafter l hl

end LimitRule

namespace Document

variable [Matchers] {parent child d e : Document} {options : EvaluateOptions} {request : Request}

def keeps (parent : Document) : Statement → Bool
  | .access .permit r => parent.grants r
  | _ => true

theorem keeps_access {kind : AccessKind} {r : AccessRule} (h : kind ≠ .permit) :
    parent.keeps (.access kind r) = true := by
  cases kind with
  | permit => exact absurd rfl h
  | _ => rfl

/-- The parent's statements, followed by those of the child that a merge keeps. -/
def extend (parent child : Document) : Document where
  statements := parent.statements ++ child.statements.filter parent.keeps
  wellFormed := by
    intro s hs
    rcases List.mem_append.1 hs with hs | hs
    · exact parent.wellFormed s hs
    · exact child.wellFormed s (List.mem_filter.1 hs).1

theorem extend_empty (d : Document) : d.extend empty = d := by
  obtain ⟨statements, hstatements⟩ := d
  simp only [extend, empty, List.filter_nil, List.append_nil]

theorem rules_extend (parent child : Document) (kind : AccessKind) :
    (parent.extend child).rules kind = (parent.merge child).rules kind := by
  have hkept : (child.statements.filter parent.keeps).filterMap (·.rule? kind) =
      (child.rules kind).filter fun r => parent.keeps (.access kind r) := by
    rw [rules, List.filterMap_filter, List.filter_filterMap]
    refine List.filterMap_congr fun s _ => ?_
    cases hs : s.rule? kind with
    | none => exact ite_self none
    | some r =>
      rw [← Statement.access_of_rule? hs]
      rfl
  have hsplit : (parent.extend child).rules kind = parent.rules kind ++ _ := List.filterMap_append
  rw [hsplit, hkept]
  by_cases hkind : kind = .permit
  · rw [hkind, permits_merge]
    rfl
  · rw [rules_merge parent child hkind, List.filter_eq_self.2 fun r _ => keeps_access hkind]

theorem limits_extend (parent child : Document) :
    (parent.extend child).limits = (parent.merge child).limits := by
  have hkept : (child.statements.filter parent.keeps).filterMap (·.limit?) = child.limits := by
    rw [limits, List.filterMap_filter]
    refine List.filterMap_congr fun s _ => ?_
    cases s with
    | access => exact ite_self none
    | limit => rfl
  have hsplit : (parent.extend child).limits = parent.limits ++ _ := List.filterMap_append
  rw [hsplit, hkept, limits_merge]

/-- A merge ranks as if the kept statements of the child stood behind the parent's. -/
theorem ranked_merge (parent child : Document) (options : EvaluateOptions) (request : Request) :
    (parent.merge child).ranked options request = (parent.extend child).ranked options request := by
  have hlimit : (parent.merge child).limitMatch? options request =
      (parent.extend child).limitMatch? options request := by
    rw [limitMatch?, limitMatch?, governingLimit?_eq_of_limits (limits_extend parent child)]
  refine Match.mergeSort_eq_of_filter_ties fun m => ?_
  have haccess : ((parent.merge child).accessMatches options request).filter m.ties =
      ((parent.extend child).accessMatches options request).filter m.ties :=
    filter_ties_accessMatches (fun kind => (rules_extend parent child kind).symm) m
  rw [List.filter_append, List.filter_append, hlimit]
  exact congrArg (· ++ _) haccess

theorem governingLimit?_merge_of_subset (h : child.limits ⊆ parent.limits) (action : String) :
    (parent.merge child).governingLimit? action = parent.governingLimit? action := by
  cases hp : parent.governingLimit? action with
  | none =>
    rw [governingLimit?_merge_of_child hp, governingLimit?_eq_none]
    exact fun l hl => governingLimit?_eq_none.1 hp l (h hl)
  | some p =>
    cases hc : child.governingLimit? action with
    | none =>
      have hnone : child.limits.filter (·.describes action) = [] := LimitRule.governing?_eq_none.1 hc
      rw [governingLimit?_merge, hnone, List.append_nil]
      exact hp
    | some c =>
      obtain ⟨hmem, hdescribes⟩ := mem_of_governingLimit? hc
      have hc' : c ∈ parent.limits.filter (·.describes action) := List.mem_filter.2 ⟨h hmem, hdescribes⟩
      have hpos : ∀ l ∈ parent.limits.filter (·.describes action), 0 < l.period :=
        fun l hl => period_pos (List.mem_filter.1 hl).1
      rw [governingLimit?_merge_of_both hp hc,
        LimitRule.prefer_of_not_outranks (LimitRule.not_outranks_governing hpos hp hc')]

theorem find?_ties_extend (h : child.statements ⊆ parent.statements) (m : Match) :
    ((parent.extend child).accessMatches options request).find? m.ties =
      (parent.accessMatches options request).find? m.ties := by
  have hsplit : (parent.extend child).accessMatches options request =
      parent.accessMatches options request ++
        (child.statements.filter parent.keeps).filterMap (accessMatch? options request) :=
    List.filterMap_append
  rw [hsplit, List.find?_append]
  cases hfind : (parent.accessMatches options request).find? m.ties with
  | some n => rfl
  | none =>
    rw [Option.none_or, List.find?_eq_none]
    intro n hn
    obtain ⟨s, hs, hmatch⟩ := List.mem_filterMap.1 hn
    have hs' : s ∈ parent.statements := h (List.mem_filter.1 hs).1
    exact List.find?_eq_none.1 hfind n (List.mem_filterMap.2 ⟨s, hs', hmatch⟩)

theorem limits_subset (h : child.statements ⊆ parent.statements) : child.limits ⊆ parent.limits := by
  intro l hl
  obtain ⟨s, hs, hlimit⟩ := List.mem_filterMap.1 hl
  exact List.mem_filterMap.2 ⟨s, h hs, hlimit⟩

/-- What is ranked first stays first when a child repeats statements of its parent. -/
theorem head?_ranked_merge (h : child.statements ⊆ parent.statements) :
    ((parent.merge child).ranked options request).head? = (parent.ranked options request).head? := by
  have hlimit : (parent.extend child).limitMatch? options request =
      parent.limitMatch? options request := by
    rw [limitMatch?, limitMatch?, governingLimit?_eq_of_limits (limits_extend parent child),
      governingLimit?_merge_of_subset (limits_subset h)]
  rw [ranked_merge]
  refine Match.head?_mergeSort_congr fun m => ?_
  have haccess : ((parent.extend child).accessMatches options request).find? m.ties =
      (parent.accessMatches options request).find? m.ties := find?_ties_extend h m
  rw [accessMatches, accessMatches] at haccess
  rw [List.find?_append, List.find?_append, haccess, hlimit]

/-- All of a decision but what is listed behind the deciding statement is read off the first match. -/
theorem outcome_eq_of_head? (h : (d.ranked options request).head? = (e.ranked options request).head?) :
    (d.evaluate options request).permitted = (e.evaluate options request).permitted ∧
      (d.evaluate options request).matched.head? = (e.evaluate options request).matched.head? ∧
      (d.evaluate options request).reason = (e.evaluate options request).reason := by
  rw [evaluate, evaluate]
  cases hd : d.ranked options request with
  | nil =>
    rw [hd, List.head?_nil, eq_comm, List.head?_eq_none_iff] at h
    rw [h]
    exact ⟨rfl, rfl, rfl⟩
  | cons m ms =>
    rw [hd, List.head?_cons, eq_comm, List.head?_eq_some_iff] at h
    obtain ⟨ns, he⟩ := h
    rw [he]
    exact ⟨rfl, rfl, rfl⟩

/-- Merging in a document without statements changes no decision. Merging a document into itself changes none
but in what is listed behind the deciding statement. -/
theorem merge_decides_alike (d : Document) (options : EvaluateOptions) (request : Request) :
    (d.merge empty).evaluate options request = d.evaluate options request ∧
      ((d.merge d).evaluate options request).permitted = (d.evaluate options request).permitted ∧
      ((d.merge d).evaluate options request).matched.head? =
        (d.evaluate options request).matched.head? ∧
      ((d.merge d).evaluate options request).reason = (d.evaluate options request).reason ∧
      ((d.merge d).evaluate options request).severity? = (d.evaluate options request).severity? := by
  obtain ⟨hpermitted, hmatched, hreason⟩ :=
    outcome_eq_of_head? (head?_ranked_merge (List.Subset.refl d.statements))
  refine ⟨?_, hpermitted, hmatched, hreason, congrArg (·.map Statement.severity) hmatched⟩
  rw [evaluate, evaluate, ranked_merge, extend_empty]

end Document

end Delegation
