import Delegation.Proofs.Decision.Permission
import Delegation.Proofs.Decision.Stability

namespace Delegation

def LimitRule.isExceeded (l : LimitRule) (options : EvaluateOptions) (context : Context) : Bool :=
  ((context.resolve options.limitCountKey).bind (·.number?)).any fun used =>
    (Binary64.ofNat l.count).atMost used

namespace Statement

def specificity (s : Statement) : Specificity := .of s.action s.resource

variable [Matchers]

/-- Where a statement goes among those that bear on a request: denials, obligations that are not met, an
exceeded limit, permits, obligations that are met, a limit that is not exceeded. -/
def rank (options : EvaluateOptions) (context : Context) : Statement → Nat
  | access .deny _ => 0
  | access .require r => if r.isMet options context then 4 else 1
  | access .permit _ => 3
  | limit l => if l.isExceeded options context then 2 else 5

def applies (request : Request) : Statement → Bool
  | access _ r => r.applies request
  | limit _ => false

def bearing (options : EvaluateOptions) (context : Context) : Statement → Bearing
  | access kind r => Document.bearing kind r options context
  | limit l => l.bearing options context

variable {options : EvaluateOptions} {context : Context}

theorem level_bearing (s : Statement) : (s.bearing options context).level = s.rank options context := by
  cases s with
  | access kind r =>
    cases kind with
    | permit => rfl
    | deny => rfl
    | require =>
      simp only [bearing, Document.bearing, rank]
      split <;> rfl
  | limit l =>
    have hexceeded : l.isExceeded options context = ((context.resolve options.limitCountKey).bind
      (·.number?)).any fun used => (Binary64.ofNat l.count).atMost used := rfl
    simp only [bearing, LimitRule.bearing, rank]
    split
    next used hused =>
      rw [hexceeded, hused, Option.any_some]
      split <;> rfl
    next hused =>
      rw [hexceeded, hused]
      rfl

theorem bearing_eq_permitted {s : Statement} :
    s.bearing options context = .permitted ↔ ∃ r, s = .access .permit r := by
  constructor
  · intro h
    cases s with
    | access kind r =>
      cases kind with
      | permit => exact ⟨r, rfl⟩
      | deny => cases h
      | require =>
        simp only [bearing, Document.bearing] at h
        split at h <;> cases h
    | limit l => exact absurd h l.bearing_ne_permitted
  · rintro ⟨r, rfl⟩
    rfl

theorem rank_access_ne_limit (kind : AccessKind) (r : AccessRule) (l : LimitRule) :
    (access kind r).rank options context ≠ (limit l).rank options context := by
  have hlimit : (limit l).rank options context = 2 ∨ (limit l).rank options context = 5 := by
    rw [rank]
    split
    · exact .inl rfl
    · exact .inr rfl
  cases kind with
  | require =>
    rw [rank]
    split <;> omega
  | _ =>
    rw [rank]
    omega

end Statement

variable [Matchers]

/-- The order of statements with their places: by rank, of one rank the more precise first, and of equally
precise ones the earlier. -/
def GoesBefore (options : EvaluateOptions) (context : Context) (p q : Statement × Nat) : Prop :=
  p.1.rank options context < q.1.rank options context ∨
    p.1.rank options context = q.1.rank options context ∧
      (q.1.specificity.order p.1.specificity = .lt ∨
        q.1.specificity = p.1.specificity ∧ p.2 < q.2)

def Match.ofPlaced (options : EvaluateOptions) (context : Context) (p : Statement × Nat) : Match :=
  ⟨p.1.bearing options context, p.1⟩

namespace Match

variable {options : EvaluateOptions} {context : Context} {p q : Statement × Nat}

theorem precedes_ofPlaced : (ofPlaced options context p).precedes (ofPlaced options context q) = true ↔
    p.1.rank options context < q.1.rank options context ∨
      p.1.rank options context = q.1.rank options context ∧
        q.1.specificity.order p.1.specificity ≠ .gt := by
  simp only [precedes, ofPlaced, Statement.level_bearing, Bool.or_eq_true, Bool.and_eq_true,
    decide_eq_true_eq, beq_iff_eq, bne_iff_ne]
  rfl

theorem goesBefore_of_precedes
    (h : (ofPlaced options context p).precedes (ofPlaced options context q) = true)
    (hties : (ofPlaced options context q).precedes (ofPlaced options context p) = true → p.2 < q.2) :
    GoesBefore options context p q := by
  rw [precedes_ofPlaced] at h hties
  rcases h with hlt | ⟨heq, horder⟩
  · exact .inl hlt
  · refine .inr ⟨heq, ?_⟩
    cases hcompare : q.1.specificity.order p.1.specificity with
    | lt => exact .inl rfl
    | eq =>
      have hsame := Std.LawfulEqCmp.eq_of_compare hcompare
      refine .inr ⟨hsame, hties (.inr ⟨heq.symm, ?_⟩)⟩
      rw [hsame] at horder ⊢
      exact horder
    | gt => exact absurd hcompare horder

end Match

namespace Document

variable {d : Document} {options : EvaluateOptions} {request : Request} {action : String}

/-- The governing limit of an action, with the first place at which it stands. -/
def placedLimit? (d : Document) (action : String) : Option (Statement × Nat) :=
  (d.governingLimit? action).bind fun l => d.statements.zipIdx.find? (·.1.limit? = some l)

def entries (d : Document) (request : Request) : List (Statement × Nat) :=
  d.statements.zipIdx.filter (·.1.applies request) ++ (d.placedLimit? request.action).toList

theorem exists_placedLimit {l : LimitRule} (h : d.governingLimit? action = some l) :
    ∃ i, d.placedLimit? action = some (.limit l, i) ∧ d.statements[i]? = some (.limit l) := by
  obtain ⟨j, hj⟩ := exists_getElem?_of_mem_limits (mem_of_governingLimit? h).1
  cases hfind : d.statements.zipIdx.find? (·.1.limit? = some l) with
  | none =>
    have hnone := List.find?_eq_none.1 hfind (.limit l, j) (List.mk_mem_zipIdx_iff_getElem?.2 hj)
    exact absurd (decide_eq_true rfl) hnone
  | some entry =>
    obtain ⟨s', i⟩ := entry
    have hplace := List.mk_mem_zipIdx_iff_getElem?.1 (List.mem_of_find?_eq_some hfind)
    have hlimit' : s'.limit? = some l := of_decide_eq_true (List.find?_some hfind :)
    cases s' with
    | access => cases hlimit'
    | limit l' =>
      cases hlimit'
      refine ⟨i, ?_, hplace⟩
      rw [placedLimit?, h, Option.bind_some, hfind]

theorem accessMatch?_eq (s : Statement) : accessMatch? options request s =
    if s.applies request then some ⟨s.bearing options request.context, s⟩ else none := by
  cases s <;> rfl

theorem map_ofPlaced_filter (ps : List (Statement × Nat)) :
    (ps.filter (·.1.applies request)).map (Match.ofPlaced options request.context) =
      (ps.map Prod.fst).filterMap (accessMatch? options request) := by
  induction ps with
  | nil => rfl
  | cons p ps ih =>
    rw [List.map_cons, List.filter_cons, List.filterMap_cons, accessMatch?_eq]
    cases p.1.applies request with
    | true => exact congrArg (_ :: ·) ih
    | false => exact ih

theorem map_ofPlaced_placedLimit : (d.placedLimit? request.action).toList.map
    (Match.ofPlaced options request.context) = (d.limitMatch? options request).toList := by
  rw [limitMatch?]
  cases hl : d.governingLimit? request.action with
  | none => rw [placedLimit?, hl]; rfl
  | some l =>
    obtain ⟨i, hentry, -⟩ := exists_placedLimit hl
    rw [hentry]
    rfl

def placed (d : Document) (options : EvaluateOptions) (request : Request) : List (Statement × Nat) :=
  (d.entries request).mergeSort fun p q =>
    (Match.ofPlaced options request.context p).precedes (Match.ofPlaced options request.context q)

theorem placed_perm (d : Document) (options : EvaluateOptions) (request : Request) :
    (d.placed options request).Perm (d.entries request) :=
  List.mergeSort_perm ..

theorem ranked_eq_map (d : Document) (options : EvaluateOptions) (request : Request) :
    d.ranked options request = (d.placed options request).map (Match.ofPlaced options request.context) := by
  have hfst : d.statements.zipIdx.map Prod.fst = d.statements := List.zipIdx_map_fst 0 d.statements
  have hentries : (d.entries request).map (Match.ofPlaced options request.context) =
      d.statements.filterMap (accessMatch? options request) ++ (d.limitMatch? options request).toList := by
    rw [entries, List.map_append, map_ofPlaced_filter, hfst, map_ofPlaced_placedLimit]
  rw [ranked, ← hentries, placed]
  symm
  apply List.map_mergeSort
  intro p _ q _
  rfl

theorem placedLimit?_eq_some {p : Statement × Nat} (h : d.placedLimit? action = some p) :
    ∃ l, d.governingLimit? action = some l ∧ p.1 = .limit l ∧ d.statements[p.2]? = some (.limit l) := by
  cases hl : d.governingLimit? action with
  | none =>
    rw [placedLimit?, hl] at h
    cases h
  | some l =>
    obtain ⟨i, hentry, hplace⟩ := exists_placedLimit hl
    rw [hentry] at h
    cases h
    exact ⟨l, rfl, rfl, hplace⟩

theorem mem_placed {p : Statement × Nat} : p ∈ d.placed options request ↔
    d.statements[p.2]? = some p.1 ∧ p.1.applies request = true ∨
      d.placedLimit? request.action = some p := by
  rw [(d.placed_perm options request).mem_iff, entries, List.mem_append, List.mem_filter,
    List.mem_zipIdx_iff_getElem?, Option.mem_toList]

theorem pairwise_entries (d : Document) (options : EvaluateOptions) (request : Request) :
    (d.entries request).Pairwise fun p q =>
      p.1.rank options request.context = q.1.rank options request.context → p.2 < q.2 := by
  have hplaces : d.statements.zipIdx.Pairwise fun p q => p.2 < q.2 := by
    rw [← List.pairwise_map, List.zipIdx_map_snd]
    exact List.pairwise_lt_range'
  rw [entries, List.pairwise_append]
  refine ⟨?_, ?_, ?_⟩
  · apply (hplaces.filter fun p => p.1.applies request).imp
    intro p q hlt _
    exact hlt
  · cases d.placedLimit? request.action with
    | none => exact .nil
    | some p => exact List.pairwise_singleton _ p
  · intro p hp q hq
    obtain ⟨l, -, hl, -⟩ := placedLimit?_eq_some (Option.mem_toList.1 hq)
    obtain ⟨s, i⟩ := p
    cases s with
    | access kind r =>
      rw [hl]
      exact fun heq => absurd heq (Statement.rank_access_ne_limit kind r l)
    | limit l' => cases (List.mem_filter.1 hp).2

theorem nodup_entries (d : Document) (request : Request) : (d.entries request).Nodup := by
  apply (d.pairwise_entries {} request).imp
  rintro p q hplace rfl
  exact absurd (hplace rfl) (Nat.lt_irrefl p.2)

theorem pairwise_placed (d : Document) (options : EvaluateOptions) (request : Request) :
    (d.placed options request).Pairwise (GoesBefore options request.context) := by
  have hties : (d.entries request).Pairwise fun p q =>
      (Match.ofPlaced options request.context p).precedes (.ofPlaced options request.context q) = true →
      (Match.ofPlaced options request.context q).precedes (.ofPlaced options request.context p) = true →
        p.2 < q.2 := by
    apply (d.pairwise_entries options request).imp
    intro p q hplace hpq hqp
    have hle := Match.level_le_of_precedes hpq
    have hge := Match.level_le_of_precedes hqp
    rw [Match.ofPlaced, Match.ofPlaced, Statement.level_bearing, Statement.level_bearing] at hle hge
    exact hplace (Nat.le_antisymm hle hge)
  apply (pairwise_mergeSort_of_ties ?_ ?_ hties).imp
  · intro p q h
    exact Match.goesBefore_of_precedes h.1 h.2
  · intro p q r
    exact Match.precedes_trans _ _ _
  · intro p q
    exact Match.precedes_total _ _

/-- The limits among the entries are the governing one, if there is one. -/
theorem limits_placed (d : Document) (options : EvaluateOptions) (request : Request) :
    (d.placed options request).filterMap (·.1.limit?) = (d.governingLimit? request.action).toList := by
  have hperm := (d.placed_perm options request).filterMap (·.1.limit?)
  have haccess : (d.statements.zipIdx.filter (·.1.applies request)).filterMap (·.1.limit?) = [] := by
    rw [List.filterMap_eq_nil_iff]
    rintro ⟨s, i⟩ hs
    cases s with
    | access => rfl
    | limit l => cases (List.mem_filter.1 hs).2
  rw [entries, List.filterMap_append, haccess, List.nil_append] at hperm
  cases hl : d.governingLimit? request.action with
  | none =>
    rw [placedLimit?, hl] at hperm
    exact hperm.eq_nil
  | some l =>
    obtain ⟨i, hentry, -⟩ := exists_placedLimit hl
    rw [hentry] at hperm
    exact hperm.eq_singleton

/-- Statements with their places that are just those which bear on a request, in order. -/
structure Lists (d : Document) (options : EvaluateOptions) (request : Request)
    (placed : List (Statement × Nat)) : Prop where
  nodup : placed.Nodup
  place : ∀ p ∈ placed, d.statements[p.2]? = some p.1
  access : ∀ kind r i, d.statements[i]? = some (.access kind r) →
    ((.access kind r, i) ∈ placed ↔ r.applies request = true)
  limit : placed.filterMap (·.1.limit?) = (d.governingLimit? request.action).toList
  sorted : placed.Pairwise (GoesBefore options request.context)

theorem lists_placed (d : Document) (options : EvaluateOptions) (request : Request) :
    d.Lists options request (d.placed options request) where
  nodup := (d.placed_perm options request).nodup_iff.2 (d.nodup_entries request)
  place p hp := by
    rcases mem_placed.1 hp with ⟨hplace, -⟩ | hentry
    · exact hplace
    · obtain ⟨l, -, hl, hplace⟩ := placedLimit?_eq_some hentry
      rw [hl]
      exact hplace
  access kind r i hplace := by
    rw [mem_placed]
    constructor
    · rintro (⟨-, happlies⟩ | hentry)
      · exact happlies
      · obtain ⟨l, -, hl, -⟩ := placedLimit?_eq_some hentry
        cases hl
    · intro happlies
      exact .inl ⟨hplace, happlies⟩
  limit := d.limits_placed options request
  sorted := d.pairwise_placed options request

/-- A decision lists what bears on the request and nothing else, in order; the first of the list gives the
severity, and the request is permitted just if it is a permit. -/
theorem evaluate_lists (d : Document) (options : EvaluateOptions) (request : Request) :
    ∃ placed, d.Lists options request placed ∧
      (d.evaluate options request).matched = placed.map Prod.fst ∧
      (d.evaluate options request).matched.head? = placed.head?.map Prod.fst ∧
      (d.evaluate options request).severity? = placed.head?.map (·.1.severity) ∧
      ((d.evaluate options request).permitted = true ↔
        ∃ r i, placed.head? = some (.access .permit r, i)) := by
  refine ⟨d.placed options request, d.lists_placed options request, ?_⟩
  have hranked := d.ranked_eq_map options request
  cases hplaced : d.placed options request with
  | nil =>
    rw [hplaced] at hranked
    rw [evaluate, hranked]
    refine ⟨rfl, rfl, rfl, iff_of_false Bool.false_ne_true ?_⟩
    rintro ⟨r, i, hhead⟩
    cases hhead
  | cons p ps =>
    rw [hplaced, List.map_cons] at hranked
    simp only [evaluate, hranked]
    refine ⟨?_, rfl, rfl, ?_⟩
    · rw [← List.map_cons, List.map_map]
      rfl
    · obtain ⟨s, i⟩ := p
      rw [decide_eq_true_eq]
      refine Statement.bearing_eq_permitted.trans ?_
      constructor
      · rintro ⟨r, rfl⟩
        exact ⟨r, i, rfl⟩
      · rintro ⟨r, i', hhead⟩
        cases hhead
        exact ⟨r, rfl⟩

end Document

end Delegation
