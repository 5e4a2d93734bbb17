import Delegation.Config.Matchers
import Delegation.Decision.Evaluate
import Delegation.Proofs.Pattern.Overlap

namespace Delegation

/-- Two stars in a row only as the whole of a segment. -/
def PatternKind.DoubleStarsWhole (kind : PatternKind) (pattern : String) : Prop :=
  ∀ segment ∈ kind.segments pattern.toList, ['*', '*'] <:+: segment → segment = ['*', '*']

instance (kind : PatternKind) (pattern : String) : Decidable (kind.DoubleStarsWhole pattern) :=
  inferInstanceAs (Decidable (∀ segment ∈ _, _))

theorem PatternKind.IsPlain.doubleStarsWhole {kind : PatternKind} {pattern : String}
    (h : kind.IsPlain pattern) : kind.DoubleStarsWhole pattern := by
  intro segment hsegment hdouble
  rcases (h.wholeStars segment hsegment).2 (hdouble.subset List.mem_cons_self) with hone | htwo
  · rw [hone] at hdouble
    exact absurd hdouble (by decide)
  · exact htwo

namespace Segment

theorem starsReplaced_filter (g : List Char) : StarsReplaced g (g.filter (· ≠ '*')) := by
  induction g with
  | nil => exact cuts_nil.2 rfl
  | cons c cs ih =>
    by_cases hc : c = '*'
    · rw [List.filter_cons_of_neg (by simpa using hc)]
      exact cuts_cons.2 ⟨[], _, rfl, .inl hc, ih⟩
    · rw [List.filter_cons_of_pos (by simpa using hc)]
      exact cuts_cons.2 ⟨[c], _, rfl, .inr rfl, ih⟩

/-- A segment with a star stands for other texts than its own, unless it has two stars within it. -/
theorem exists_takes_ne_iff {g : List Char} (hstar : '*' ∈ g) :
    (∃ text, text ≠ g ∧ Takes g [text]) ↔ (['*', '*'] <:+: g → g = ['*', '*']) := by
  constructor
  · rintro ⟨text, hne, htakes⟩ hdouble
    cases htakes with
    | anyDepth => rfl
    | any => exact absurd hdouble (by decide)
    | literal => exact absurd rfl hne
    | replaced _ hsingle => exact absurd hdouble hsingle
    | doubled => exact absurd rfl hne
  · intro h
    by_cases hdouble : ['*', '*'] <:+: g
    · rw [h hdouble]
      exact ⟨[], nofun, .anyDepth _⟩
    · refine ⟨g.filter (· ≠ '*'), ?_, .replaced hstar hdouble (starsReplaced_filter g)⟩
      intro hsame
      rw [← hsame] at hstar
      exact of_decide_eq_true (List.mem_filter.1 hstar).2 rfl

end Segment

namespace Statement

def mapResource (f : String → String) : Statement → Statement
  | access kind r => access kind { r with resource := f r.resource }
  | limit r => limit r

variable [Matchers]

/-- Of a resource the check of a statement sees only whether it is empty. -/
theorem fault?_mapResource {f : String → String} (hf : ∀ resource, (f resource).isEmpty = resource.isEmpty)
    (s : Statement) : (s.mapResource f).fault? = s.fault? := by
  cases s with
  | access kind r => simp only [mapResource, fault?, action, hf]
  | limit r => rfl

end Statement

namespace Document

/-- In the actions of a document two stars in a row are whole segments. In its resources they are just if every
segment with a star in it stands for something else than its own text; but that is not asked of them, since
with any other resources, as long as none is empty, the statements are a document as well. -/
theorem doubleStars_whole_iff [Matchers] (d : Document) :
    (∀ s ∈ d.statements, PatternKind.action.DoubleStarsWhole s.action) ∧
      ((∀ s ∈ d.statements, PatternKind.resource.DoubleStarsWhole s.resource) ↔
        ∀ s ∈ d.statements, ∀ segment ∈ PatternKind.resource.segments s.resource.toList, '*' ∈ segment →
          ∃ text, text ≠ segment ∧ Segment.Takes segment [text]) ∧
      ∀ f : String → String, (∀ resource, (f resource).isEmpty = resource.isEmpty) →
        ∃ e, ofStatements (d.statements.map (·.mapResource f)) = .ok e := by
  refine ⟨?_, ?_, ?_⟩
  · intro s hs
    have haction : PatternKind.action.IsPlain s.action := Statement.action_fault?_eq_none (d.wellFormed s hs)
    exact haction.doubleStarsWhole
  · refine forall₂_congr fun s _ => forall₂_congr fun segment _ => ?_
    constructor
    · intro h hstar
      exact (Segment.exists_takes_ne_iff hstar).2 h
    · intro h hdouble
      have hstar := hdouble.subset List.mem_cons_self
      exact (Segment.exists_takes_ne_iff hstar).1 (h hstar) hdouble
  · intro f hf
    have hwell : ∀ s ∈ d.statements.map (·.mapResource f), s.fault? = none := by
      intro s hs
      obtain ⟨t, ht, rfl⟩ := List.mem_map.1 hs
      rw [Statement.fault?_mapResource hf]
      exact d.wellFormed t ht
    exact ⟨⟨_, hwell⟩, ofStatements_statements ⟨_, hwell⟩⟩

example : AccessRule.applies ⟨"file.read", "/vault/key**", none, .high, 1⟩ ⟨"file.read", "/vault/keys", ⟨[]⟩⟩ =
    false := by
  decide +kernel

def vaultKeys : Document where
  statements := [.access .permit ⟨"file.read", "/vault/**", none, .high, 1⟩,
    .access .deny ⟨"file.read", "/vault/key**", none, .high, 2⟩]
  wellFormed := by decide +kernel

theorem not_doubleStars_whole : ¬ ∀ (statements : List Statement) (d : Document),
    ofStatements statements = .ok d → ∀ s ∈ d.statements,
      PatternKind.action.DoubleStarsWhole s.action ∧ PatternKind.resource.DoubleStarsWhole s.resource := by
  intro h
  have hwhole := (h vaultKeys.statements vaultKeys vaultKeys.ofStatements_statements
    (.access .deny ⟨"file.read", "/vault/key**", none, .high, 2⟩) (.tail _ (.head _))).2
  exact absurd hwhole (by decide +kernel)

end Document

end Delegation
