import Delegation.Config.Matchers
import Delegation.Pattern.Relation
import Delegation.Proofs.Pattern.Wildcards

namespace Delegation

namespace Segment

variable [Matchers] {p q : Segment} {ps qs : List Segment} {c : List Char} {cs : List (List Char)}

theorem overlaps_of_fits (hp : p.fits c = true) (hq : q.fits c = true) :
    p.overlaps q = true := by
  cases p <;> cases q <;> simp_all [fits, overlaps]

theorem fits_of_covers (h : p.covers q = true) (hq : q.fits c = true) : p.fits c = true := by
  cases p <;> cases q <;> simp_all [fits, covers]

theorem sharing_nil_right : sharing.holds ps [] = ps.all isAnyDepth := by
  induction ps with
  | nil => rfl
  | cons p ps ih =>
    rw [Alignment.holds_cons_nil, List.all_cons, ← ih]
    rfl

theorem sharing_wild_left (hp : p.isAnyDepth = true) : sharing.holds (p :: ps) (q :: qs) =
    (sharing.holds ps (q :: qs) || sharing.holds (p :: ps) qs) :=
  (Alignment.holds_cons_cons ..).trans (if_pos hp)

/-- Two stars of the first pattern leave some end of the second to the segments behind them. -/
theorem sharing_wild_iff (hp : p.isAnyDepth = true) : sharing.holds (p :: ps) qs = true ↔
    ∃ rest, rest <:+ qs ∧ sharing.holds ps rest = true := by
  apply Alignment.holds_cons_iff_suffix
  · intro below
    exact (congrArg (· && below) hp).trans (Bool.true_and below)
  · intro q dropFirst dropSecond dropBoth
    exact if_pos hp

theorem sharing_wild_right (hp : p.isAnyDepth = false) (hq : q.isAnyDepth = true) :
    sharing.holds (p :: ps) (q :: qs) = (sharing.holds (p :: ps) qs || sharing.holds ps (q :: qs)) :=
  (Alignment.holds_cons_cons ..).trans ((if_neg (ne_true_of_eq_false hp)).trans (if_pos hq))

theorem sharing_cons_cons (hp : p.isAnyDepth = false) (hq : q.isAnyDepth = false) :
    sharing.holds (p :: ps) (q :: qs) = (p.overlaps q && sharing.holds ps qs) :=
  (Alignment.holds_cons_cons ..).trans
    ((if_neg (ne_true_of_eq_false hp)).trans (if_neg (ne_true_of_eq_false hq)))

/-- No overlap is missed: lists of segments that fit a common identifier overlap. -/
theorem sharing_of_matching (hp : matching.holds ps cs = true) (hq : matching.holds qs cs = true) :
    sharing.holds ps qs = true := by
  induction ps generalizing qs cs with
  | nil =>
    rw [wildcardMatch_nil.1 hp] at hq
    rw [Alignment.holds_nil]
    exact wildcardMatch_empty.symm.trans hq
  | cons p ps ihp =>
    cases hp₀ : p.isAnyDepth with
    | true =>
      obtain ⟨cs', hcs, hps⟩ := (wildcardMatch_wild_iff hp₀).1 hp
      obtain ⟨qs', hqs, hq⟩ := exists_suffix_of_suffix_right hq hcs
      exact (sharing_wild_iff hp₀).2 ⟨qs', hqs, ihp hps hq⟩
    | false =>
      obtain ⟨c, cs, rfl, hpc, hps⟩ := (wildcardMatch_not_wild_iff hp₀).1 hp
      induction qs with
      | nil => cases hq
      | cons q qs ihq =>
        cases hq₀ : q.isAnyDepth with
        | true =>
          rw [matching, wildcardMatch_cons_of_wild hq₀, Bool.or_eq_true] at hq
          rw [sharing_wild_right hp₀ hq₀, Bool.or_eq_true]
          rcases hq with hqs | hq
          · exact .inl (ihq hqs)
          · exact .inr (ihp hps hq)
        | false =>
          rw [matching, wildcardMatch_cons_of_not_wild hq₀, Bool.and_eq_true] at hq
          rw [sharing_cons_cons hp₀ hq₀, overlaps_of_fits hpc hq.1, ihp hps hq.2]
          rfl

theorem covering_eq :
    covering = wildcardMatch isAnyDepth fun p q => !q.isAnyDepth && p.covers q := rfl

/-- Covering is never claimed wrongly: what the narrow segments match, the broad ones do. -/
theorem matching_of_covering (h : covering.holds ps qs = true) (hq : matching.holds qs cs = true) :
    matching.holds ps cs = true := by
  rw [covering_eq] at h
  refine wildcardMatch_trans (fun p q _ hpq => ?_) h hq
  rw [Bool.and_eq_true, Bool.not_eq_true'] at hpq
  exact ⟨hpq.1, fun c => fits_of_covers hpq.2⟩

end Segment

namespace PatternKind

/-- Patterns that describe one identifier overlap. -/
theorem overlaps_of_common [Matchers] (kind : PatternKind) (p q identifier : String)
    (hp : kind.describes p identifier = true) (hq : kind.describes q identifier = true) :
    kind.overlaps p q = true :=
  Segment.sharing_of_matching hp hq

theorem overlaps_of_common_sources :
    resource.describes "/src/**/*.rs" "src/lib/main.rs/" = true ∧
      resource.describes "**/ma*/**" "src/lib/main.rs/" = true ∧
      resource.overlaps "/src/**/*.rs" "**/ma*/**" = true := by
  have hp : resource.describes "/src/**/*.rs" "src/lib/main.rs/" = true := by decide +kernel
  have hq : resource.describes "**/ma*/**" "src/lib/main.rs/" = true := by decide +kernel
  exact ⟨hp, hq, overlaps_of_common resource _ _ _ hp hq⟩

/-- A pattern describes everything that a pattern covered by it does. -/
theorem describes_of_covered [Matchers] (kind : PatternKind) (broad narrow identifier : String)
    (hcovers : kind.covers broad narrow = true) (hnarrow : kind.describes narrow identifier = true) :
    kind.describes broad identifier = true :=
  Segment.matching_of_covering hcovers hnarrow

theorem describes_of_covered_sources :
    resource.covers "/src/**/*.rs" "src/*/**/*.rs" = true ∧
      resource.describes "src/*/**/*.rs" "/src/lib/main.rs" = true ∧
      resource.describes "/src/**/*.rs" "/src/lib/main.rs" = true := by
  have hcovers : resource.covers "/src/**/*.rs" "src/*/**/*.rs" = true := by decide +kernel
  have hnarrow : resource.describes "src/*/**/*.rs" "/src/lib/main.rs" = true := by
    decide +kernel
  exact ⟨hcovers, hnarrow, describes_of_covered resource _ _ _ hcovers hnarrow⟩

end PatternKind

end Delegation
