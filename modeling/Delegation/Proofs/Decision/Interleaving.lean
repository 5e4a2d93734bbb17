import Delegation.Config.Matchers
import Delegation.Proofs.Decision.Ranking
import Delegation.Proofs.Decision.Stability

namespace Delegation

namespace Match

variable {m n : Match} {ms ns : List Match}

/-- Whether neither of two matches is ranked before the other. -/
def ties (m n : Match) : Bool := m.precedes n && n.precedes m

theorem ties_iff : m.ties n = true ↔ m.precedes n = true ∧ n.precedes m = true :=
  Bool.and_eq_true_iff

theorem ties_refl (m : Match) : m.ties m = true := by
  have h : m.precedes m = true := by simpa only [Bool.or_self] using precedes_total m m
  exact ties_iff.2 ⟨h, h⟩

theorem level_eq_of_ties (h : m.ties n = true) : m.bearing.level = n.bearing.level := by
  obtain ⟨hmn, hnm⟩ := ties_iff.1 h
  exact Nat.le_antisymm (level_le_of_precedes hmn) (level_le_of_precedes hnm)

theorem filter_ties_mergeSort (m : Match) (ms : List Match) :
    (ms.mergeSort precedes).filter m.ties = ms.filter m.ties :=
  filter_mergeSort precedes_trans precedes_total m ms

/-- A sorted list is made up of its classes of ties. -/
theorem eq_of_filter_ties (hms : ms.Pairwise fun a b => a.precedes b = true)
    (hns : ns.Pairwise fun a b => a.precedes b = true) (h : ∀ m : Match, ms.filter m.ties = ns.filter m.ties) :
    ms = ns := by
  induction ms generalizing ns with
  | nil =>
    cases ns with
    | nil => rfl
    | cons n ns =>
      have hn := h n
      rw [List.filter_cons_of_pos n.ties_refl] at hn
      cases hn
  | cons m ms ih =>
    cases ns with
    | nil =>
      have hm := h m
      rw [List.filter_cons_of_pos m.ties_refl] at hm
      cases hm
    | cons n ns =>
      have hmem : ∀ k, k ∈ m :: ms ↔ k ∈ n :: ns := by
        intro k
        have hk : k ∈ (m :: ms).filter k.ties ↔ k ∈ (n :: ns).filter k.ties := by rw [h k]
        simpa only [List.mem_filter, ties_refl, and_true] using hk
      rw [List.pairwise_cons] at hms hns
      have hmn : m.precedes n = true := by
        rcases List.mem_cons.1 ((hmem n).2 List.mem_cons_self) with rfl | hn
        · exact (ties_iff.1 n.ties_refl).1
        · exact hms.1 n hn
      have hnm : n.precedes m = true := by
        rcases List.mem_cons.1 ((hmem m).1 List.mem_cons_self) with rfl | hm
        · exact (ties_iff.1 m.ties_refl).1
        · exact hns.1 m hm
      have hheads := h m
      rw [List.filter_cons_of_pos m.ties_refl, List.filter_cons_of_pos (ties_iff.2 ⟨hmn, hnm⟩)] at hheads
      obtain ⟨rfl, -⟩ := List.cons_eq_cons.1 hheads
      congr 1
      refine ih hms.2 hns.2 fun k => ?_
      have hk := h k
      rw [List.filter_cons, List.filter_cons] at hk
      split at hk
      · exact List.tail_eq_of_cons_eq hk
      · exact hk

theorem mergeSort_eq_of_filter_ties (h : ∀ m : Match, ms.filter m.ties = ns.filter m.ties) :
    ms.mergeSort precedes = ns.mergeSort precedes := by
  refine eq_of_filter_ties ?_ ?_ fun m => ?_
  · exact List.pairwise_mergeSort precedes_trans precedes_total _
  · exact List.pairwise_mergeSort precedes_trans precedes_total _
  · rw [filter_ties_mergeSort, filter_ties_mergeSort, h]

end Match

def Bearing.kind? : Bearing → Option AccessKind
  | denied => some .deny
  | unmet | met => some .require
  | permitted => some .permit
  | exceeded _ | within => none

theorem Bearing.kind?_eq_of_level {b c : Bearing} (h : b.level = c.level) : b.kind? = c.kind? := by
  cases b <;> cases c <;> first | rfl | cases h

namespace Document

section

variable [Matchers] {d e : Document} {options : EvaluateOptions} {request : Request} {kind : AccessKind}

theorem kind?_bearing (kind : AccessKind) (r : AccessRule) (options : EvaluateOptions)
    (context : Context) : (bearing kind r options context).kind? = some kind := by
  cases kind with
  | permit => rfl
  | deny => rfl
  | require =>
    rw [bearing]
    split <;> rfl

def accessMatches (d : Document) (options : EvaluateOptions) (request : Request) : List Match :=
  d.statements.filterMap (accessMatch? options request)

theorem kind?_of_mem_accessMatches {m : Match} (h : m ∈ d.accessMatches options request) :
    m.bearing.kind? ≠ none := by
  obtain ⟨s, -, hs⟩ := List.mem_filterMap.1 h
  cases s with
  | limit l => cases hs
  | access kind r =>
    simp only [accessMatch?] at hs
    split at hs
    · cases hs
      rw [kind?_bearing]
      exact Option.some_ne_none kind
    · cases hs

theorem filter_kind_accessMatch? (kind : AccessKind) (s : Statement) :
    (accessMatch? options request s).filter (·.bearing.kind? = some kind) =
      (s.rule? kind).bind fun r => accessMatch? options request (.access kind r) := by
  cases s with
  | limit l => rfl
  | access kind' r =>
    by_cases hkind : kind = kind'
    · subst hkind
      by_cases ha : r.applies request = true
      · simp [accessMatch?, Statement.rule?, ha, kind?_bearing]
      · simp [accessMatch?, Statement.rule?, ha]
    · by_cases ha : r.applies request = true
      · simp [accessMatch?, Statement.rule?, ha, kind?_bearing, hkind, Ne.symm hkind]
      · simp [accessMatch?, Statement.rule?, ha, hkind]

/-- The matches of one kind are those of the rules of that kind. -/
theorem filter_kind_accessMatches (d : Document) (kind : AccessKind) :
    (d.accessMatches options request).filter (·.bearing.kind? = some kind) =
      (d.rules kind).filterMap fun r => accessMatch? options request (.access kind r) := by
  rw [accessMatches, rules, List.filter_filterMap, List.filterMap_filterMap]
  exact congrArg (List.filterMap · d.statements) (funext (filter_kind_accessMatch? kind))

theorem filter_ties_accessMatches (hrules : ∀ kind, d.rules kind = e.rules kind) (m : Match) :
    (d.accessMatches options request).filter m.ties =
      (e.accessMatches options request).filter m.ties := by
  have hkinds : ∀ ms : List Match, ms.filter m.ties =
      (ms.filter (·.bearing.kind? = m.bearing.kind?)).filter m.ties := by
    intro ms
    rw [List.filter_filter]
    refine List.filter_congr fun n _ => ?_
    cases hties : m.ties n with
    | false => rfl
    | true =>
      have hkind := Bearing.kind?_eq_of_level (Match.level_eq_of_ties hties)
      rw [Bool.true_and, decide_eq_true hkind.symm]
  rw [hkinds, hkinds (e.accessMatches options request)]
  congr 1
  cases m.bearing.kind? with
  | some kind => rw [filter_kind_accessMatches, filter_kind_accessMatches, hrules]
  | none =>
    rw [List.filter_eq_nil_iff.2 fun n hn => ?_, List.filter_eq_nil_iff.2 fun n hn => ?_]
    · exact fun h => kind?_of_mem_accessMatches hn (of_decide_eq_true h)
    · exact fun h => kind?_of_mem_accessMatches hn (of_decide_eq_true h)

theorem governingLimit?_eq_of_limits (h : d.limits = e.limits) (action : String) :
    d.governingLimit? action = e.governingLimit? action := by
  rw [governingLimit?, governingLimit?, h]

/-- Documents with the same permits, denials, obligations and limits, each kind in the same order, decide
alike: the same statements match in the same order, and for the same reason. -/
theorem evaluate_eq_of_kinds (d e : Document) (hrules : ∀ kind, d.rules kind = e.rules kind)
    (hlimits : d.limits = e.limits) (options : EvaluateOptions) (request : Request) :
    d.evaluate options request = e.evaluate options request := by
  have hlimit : d.limitMatch? options request = e.limitMatch? options request := by
    rw [limitMatch?, limitMatch?, governingLimit?_eq_of_limits hlimits]
  have hranked : d.ranked options request = e.ranked options request := by
    refine Match.mergeSort_eq_of_filter_ties fun m => ?_
    have haccess : (d.accessMatches options request).filter m.ties =
        (e.accessMatches options request).filter m.ties := filter_ties_accessMatches hrules m
    rw [List.filter_append, List.filter_append, hlimit]
    exact congrArg (· ++ _) haccess
  rw [evaluate, evaluate, hranked]

end

def dataRule (action resource : String) (line : Nat) : AccessRule := ⟨action, resource, none, .high, line⟩

def dailyReads (line : Nat) : LimitRule := ⟨"file.read", 10, 86400, .high, line⟩

/-- Rules as they come to mind: two permits that are as precise as each other, with the rest between. -/
def mixedRules : Document where
  statements := [.access .permit (dataRule "file.read" "/data/r*" 1), .limit (dailyReads 2),
    .access .require (dataRule "audit.*" "/data/**" 3),
    .access .permit (dataRule "file.read" "/data/*t" 4),
    .access .deny (dataRule "file.write" "/data/**" 5), .limit (dailyReads 6)]
  wellFormed := by decide +kernel

def sortedRules : Document where
  statements := [.limit (dailyReads 2), .limit (dailyReads 6),
    .access .deny (dataRule "file.write" "/data/**" 5),
    .access .require (dataRule "audit.*" "/data/**" 3),
    .access .permit (dataRule "file.read" "/data/r*" 1),
    .access .permit (dataRule "file.read" "/data/*t" 4)]
  wellFormed := by decide +kernel

def reportRead : Request := ⟨"file.read", "/data/report", ⟨[("_limit_count", .int 3)]⟩⟩

theorem evaluate_sortedRules :
    (∀ kind, mixedRules.rules kind = sortedRules.rules kind) ∧
      mixedRules.limits = sortedRules.limits ∧
      mixedRules.evaluate {} reportRead = sortedRules.evaluate {} reportRead := by
  have hrules : ∀ kind, mixedRules.rules kind = sortedRules.rules kind := by
    intro kind
    cases kind <;> rfl
  have hlimits : mixedRules.limits = sortedRules.limits := rfl
  exact ⟨hrules, hlimits, evaluate_eq_of_kinds mixedRules sortedRules hrules hlimits {} reportRead⟩

end Document

end Delegation
