import Delegation.Config.Matchers
import Delegation.Proofs.Pattern.Denotation
import Delegation.Proofs.Pattern.Soundness
import Delegation.Proofs.Source.Words

namespace Delegation

namespace PatternKind

variable {kind : PatternKind} {s : List Char} {names : List (List Char)}

def separator : PatternKind → Char
  | action => '.'
  | resource => '/'

/-- A text that can be a segment, without a star. -/
def IsName (kind : PatternKind) (s : List Char) : Prop := s ≠ [] ∧ kind.separator ∉ s ∧ '*' ∉ s

theorem exists_isName (kind : PatternKind) : ∃ s, kind.IsName s := by
  refine ⟨['x'], List.cons_ne_nil _ _, ?_, by decide⟩
  cases kind <;> decide

theorem separator_ne_star (kind : PatternKind) : kind.separator ≠ '*' := by
  cases kind <;> decide

theorem exists_segments_eq (kind : PatternKind) (text : List Char) : ∃ inner,
    kind.segments text = if inner.isEmpty then [] else splitOn kind.separator inner := by
  cases kind with
  | action => exact ⟨text, rfl⟩
  | resource => exact ⟨trimBoth '/' text, rfl⟩

theorem separator_notMem {text : List Char} (h : s ∈ kind.segments text) : kind.separator ∉ s := by
  obtain ⟨inner, hinner⟩ := kind.exists_segments_eq text
  rw [hinner] at h
  split at h
  · cases h
  · exact notMem_of_mem_splitOn h

theorem segments_of_ends {text : List Char} (hne : text ≠ []) (hhead : text.head? ≠ some kind.separator)
    (hlast : text.getLast? ≠ some kind.separator) :
    kind.segments text = splitOn kind.separator text := by
  have hempty : ¬text.isEmpty = true := fun h => hne (List.isEmpty_iff.1 h)
  cases kind with
  | action => exact if_neg hempty
  | resource =>
    have htrim : trimBoth '/' text = text := trimBoth_eq_self hhead hlast
    rw [segments, htrim]
    exact if_neg hempty

theorem head?_joinWith {c : Char} (hs : s ≠ []) : (joinWith [c] (s :: names)).head? = s.head? := by
  cases names with
  | nil => rfl
  | cons name names =>
    cases s with
    | nil => exact absurd rfl hs
    | cons d ds => rfl

theorem exists_getLast?_joinWith {c : Char} (hnames : ∀ name ∈ s :: names, name ≠ []) :
    ∃ last ∈ s :: names, (joinWith [c] (s :: names)).getLast? = last.getLast? := by
  induction names generalizing s with
  | nil => exact ⟨s, List.mem_cons_self, rfl⟩
  | cons name names ih =>
    obtain ⟨last, hmem, hlast⟩ := ih fun t ht => hnames t (List.mem_cons_of_mem s ht)
    have hne : last ≠ [] := hnames last (List.mem_cons_of_mem s hmem)
    refine ⟨last, List.mem_cons_of_mem s hmem, ?_⟩
    rw [joinWith_cons_cons, List.getLast?_append, hlast, List.getLast?_eq_some_getLast hne,
      Option.some_or]

theorem segments_joinWith (hnames : ∀ name ∈ names, kind.IsName name) :
    kind.segments (joinWith [kind.separator] names) = names := by
  cases names with
  | nil => cases kind <;> rfl
  | cons s names =>
    have hs := hnames s List.mem_cons_self
    have hhead : (joinWith [kind.separator] (s :: names)).head? = s.head? := head?_joinWith hs.1
    have hsplit : kind.segments (joinWith [kind.separator] (s :: names)) =
        splitOn kind.separator (joinWith [kind.separator] (s :: names)) := by
      apply segments_of_ends
      · intro hempty
        rw [hempty] at hhead
        exact hs.1 (List.head?_eq_none_iff.1 hhead.symm)
      · intro hsep
        exact hs.2.1 (List.mem_of_mem_head? (hhead.symm.trans hsep))
      · intro hsep
        obtain ⟨last, hmem, hlast⟩ := exists_getLast?_joinWith fun t ht => (hnames t ht).1
        exact (hnames last hmem).2.1 (List.mem_of_getLast? (hlast.symm.trans hsep))
    rw [hsplit]
    exact splitOn_joinWith fun t ht => (hnames t ht).2.1

end PatternKind

namespace Segment

variable {kind : PatternKind} {p q : Segment} {ps qs : List Segment} {cs : List (List Char)}

/-- A segment of a pattern with whole stars only. -/
inductive Plain (kind : PatternKind) : Segment → Prop
  | any : Plain kind any
  | anyDepth : Plain kind anyDepth
  | literal {s : List Char} : kind.IsName s → Plain kind (literal s)

variable [Matchers]

theorem Plain.exists_fits (h : p.Plain kind) : ∃ c, kind.IsName c ∧ p.fits c = true := by
  cases h with
  | literal hs => exact ⟨_, hs, beq_self_eq_true _⟩
  | _ =>
    obtain ⟨c, hc⟩ := kind.exists_isName
    exact ⟨c, hc, rfl⟩

theorem Plain.exists_common (hp : p.Plain kind) (hq : q.Plain kind) (h : p.overlaps q = true) :
    ∃ c, kind.IsName c ∧ p.fits c = true ∧ q.fits c = true := by
  cases hp with
  | literal hs =>
    cases hq with
    | literal ht => exact ⟨_, hs, beq_self_eq_true _, (Bool.beq_comm ..).trans h⟩
    | _ => exact ⟨_, hs, beq_self_eq_true _, rfl⟩
  | _ =>
    obtain ⟨c, hc, hfits⟩ := hq.exists_fits
    exact ⟨c, hc, rfl, hfits⟩

/-- A segment more in front asks for at most a name more in front. -/
theorem Plain.exists_matching_cons (hq : q.Plain kind) (hcs : ∀ c ∈ cs, kind.IsName c)
    (h : matching.holds qs cs = true) :
    ∃ cs', (∀ c ∈ cs', kind.IsName c) ∧ cs <:+ cs' ∧ matching.holds (q :: qs) cs' = true := by
  cases hq₀ : q.isAnyDepth with
  | true => exact ⟨cs, hcs, List.suffix_rfl, wildcardMatch_wild_of_rest hq₀ h⟩
  | false =>
    obtain ⟨c, hc, hfits⟩ := hq.exists_fits
    exact ⟨c :: cs, List.forall_mem_cons.2 ⟨hc, hcs⟩, List.suffix_cons c cs,
      (wildcardMatch_not_wild_iff hq₀).2 ⟨c, cs, rfl, hfits, h⟩⟩

theorem exists_matching_of_sharing (hps : ∀ p ∈ ps, p.Plain kind) (hqs : ∀ q ∈ qs, q.Plain kind)
    (h : sharing.holds ps qs = true) :
    ∃ cs, (∀ c ∈ cs, kind.IsName c) ∧ matching.holds ps cs = true ∧ matching.holds qs cs = true := by
  induction ps generalizing qs with
  | nil =>
    rw [Alignment.holds_nil] at h
    exact ⟨[], nofun, rfl, wildcardMatch_empty.trans h⟩
  | cons p ps ihp =>
    induction qs with
    | nil =>
      rw [sharing_nil_right] at h
      exact ⟨[], nofun, wildcardMatch_empty.trans h, rfl⟩
    | cons q qs ihq =>
      have hp := hps p List.mem_cons_self
      have hq := hqs q List.mem_cons_self
      have hps' := fun r hr => hps r (List.mem_cons_of_mem p hr)
      have hqs' := fun r hr => hqs r (List.mem_cons_of_mem q hr)
      cases hp₀ : p.isAnyDepth with
      | true =>
        rw [sharing_wild_left hp₀, Bool.or_eq_true] at h
        rcases h with h | h
        · obtain ⟨cs, hcs, hmp, hmq⟩ := ihp hps' hqs h
          exact ⟨cs, hcs, wildcardMatch_wild_of_rest hp₀ hmp, hmq⟩
        · obtain ⟨cs, hcs, hmp, hmq⟩ := ihq hqs' h
          obtain ⟨cs', hcs', hsuffix, hmq'⟩ := hq.exists_matching_cons hcs hmq
          exact ⟨cs', hcs', wildcardMatch_wild_of_suffix hp₀ hsuffix hmp, hmq'⟩
      | false =>
        cases hq₀ : q.isAnyDepth with
        | true =>
          rw [sharing_wild_right hp₀ hq₀, Bool.or_eq_true] at h
          rcases h with h | h
          · obtain ⟨cs, hcs, hmp, hmq⟩ := ihq hqs' h
            exact ⟨cs, hcs, hmp, wildcardMatch_wild_of_rest hq₀ hmq⟩
          · obtain ⟨cs, hcs, hmp, hmq⟩ := ihp hps' hqs h
            obtain ⟨cs', hcs', hsuffix, hmp'⟩ := hp.exists_matching_cons hcs hmp
            exact ⟨cs', hcs', hmp', wildcardMatch_wild_of_suffix hq₀ hsuffix hmq⟩
        | false =>
          rw [sharing_cons_cons hp₀ hq₀, Bool.and_eq_true] at h
          obtain ⟨cs, hcs, hmp, hmq⟩ := ihp hps' hqs' h.2
          obtain ⟨c, hc, hpc, hqc⟩ := hp.exists_common hq h.1
          exact ⟨c :: cs, List.forall_mem_cons.2 ⟨hc, hcs⟩,
            (wildcardMatch_not_wild_iff hp₀).2 ⟨c, cs, rfl, hpc, hmp⟩,
            (wildcardMatch_not_wild_iff hq₀).2 ⟨c, cs, rfl, hqc, hmq⟩⟩

end Segment

/-- No star, or one star or two and nothing else. -/
def WholeStars (s : List Char) : Prop := '*' ∈ s → s = ['*'] ∨ s = ['*', '*']

instance (s : List Char) : Decidable (WholeStars s) :=
  inferInstanceAs (Decidable (_ → _))

theorem WholeStars.ofText_cases {s : List Char} (h : WholeStars s) :
    s = ['*', '*'] ∧ Segment.ofText s = .anyDepth ∨ s = ['*'] ∧ Segment.ofText s = .any ∨
      '*' ∉ s ∧ Segment.ofText s = .literal s := by
  by_cases hstar : '*' ∈ s
  · rcases h hstar with rfl | rfl
    · exact .inr (.inl ⟨rfl, rfl⟩)
    · exact .inl ⟨rfl, rfl⟩
  · exact .inr (.inr ⟨hstar, Segment.ofText_of_plain hstar⟩)

namespace PatternKind

variable {kind : PatternKind} {p q : String}

/-- Actions as a document may hold them; resources without empty segments whose stars are whole segments. -/
def IsPlain : PatternKind → String → Prop
  | action, p => ActionPattern.fault? p = none
  | resource, p => ∀ s ∈ resource.segments p.toList, s ≠ [] ∧ WholeStars s

instance : Decidable (kind.IsPlain p) :=
  match kind with
  | action => inferInstanceAs (Decidable (_ = _))
  | resource => inferInstanceAs (Decidable (∀ s ∈ _, _))

theorem wholeStars_of_isSegment {afterDot : Bool} {s : List Char} (h : Lexer.IsSegment afterDot s) :
    s ≠ [] ∧ WholeStars s := by
  obtain rfl | rfl | ⟨_, _, rfl, hstar, -, -, -⟩ := h.cases
  · exact ⟨List.cons_ne_nil _ _, fun _ => .inl rfl⟩
  · exact ⟨List.cons_ne_nil _ _, fun _ => .inr rfl⟩
  · exact ⟨List.cons_ne_nil _ _, fun h => absurd h hstar⟩

theorem IsPlain.wholeStars (h : kind.IsPlain p) :
    ∀ s ∈ kind.segments p.toList, s ≠ [] ∧ WholeStars s := by
  cases kind with
  | action =>
    obtain ⟨first, more, hsplit, hfirst, hmore⟩ := Lexer.exists_segments h
    intro s hs
    simp only [segments] at hs
    split at hs
    · cases hs
    · rw [hsplit] at hs
      rcases List.mem_cons.1 hs with rfl | hs
      · exact wholeStars_of_isSegment hfirst
      · exact wholeStars_of_isSegment (hmore s hs)
  | resource => exact h

theorem IsPlain.plain (h : kind.IsPlain p) : ∀ segment ∈ kind.pattern p, segment.Plain kind := by
  intro segment hsegment
  obtain ⟨s, hs, rfl⟩ := List.mem_map.1 hsegment
  obtain ⟨hne, hstars⟩ := h.wholeStars s hs
  rcases hstars.ofText_cases with ⟨-, hs'⟩ | ⟨-, hs'⟩ | ⟨hstar, hs'⟩
  · rw [hs']
    exact .anyDepth
  · rw [hs']
    exact .any
  · rw [hs']
    exact .literal ⟨hne, separator_notMem hs, hstar⟩

section

variable [Matchers]

theorem describes_joinWith {names : List (List Char)} (hnames : ∀ name ∈ names, kind.IsName name) :
    kind.describes p (String.ofList (joinWith [kind.separator] names)) =
      Segment.matching.holds (kind.pattern p) names := by
  rw [describes, String.toList_ofList, segments_joinWith hnames]

/-- Plain patterns overlap just if they describe a common identifier, one without stars. -/
theorem overlaps_iff_exists_common (hp : kind.IsPlain p) (hq : kind.IsPlain q) :
    kind.overlaps p q = true ↔ ∃ identifier : String, '*' ∉ identifier.toList ∧
      kind.describes p identifier = true ∧ kind.describes q identifier = true := by
  constructor
  · intro h
    obtain ⟨names, hnames, hmp, hmq⟩ := Segment.exists_matching_of_sharing hp.plain hq.plain h
    refine ⟨String.ofList (joinWith [kind.separator] names), ?_, ?_, ?_⟩
    · rw [String.toList_ofList]
      intro hstar
      rcases mem_joinWith hstar with hsep | ⟨name, hname, hstar⟩
      · exact kind.separator_ne_star (List.mem_singleton.1 hsep).symm
      · exact (hnames name hname).2.2 hstar
    · exact (describes_joinWith hnames).trans hmp
    · exact (describes_joinWith hnames).trans hmq
  · rintro ⟨identifier, -, hdp, hdq⟩
    exact Segment.sharing_of_matching hdp hdq

end

theorem overlaps_iff_exists_common_ends :
    (action.IsPlain "**.v1.*" ∧ action.IsPlain "api.*.**" ∧ ∃ identifier : String,
      '*' ∉ identifier.toList ∧ action.describes "**.v1.*" identifier = true ∧
        action.describes "api.*.**" identifier = true) ∧
    resource.IsPlain "/**/v1/*" ∧ resource.IsPlain "data/*/**/" ∧ ∃ identifier : String,
      '*' ∉ identifier.toList ∧ resource.describes "/**/v1/*" identifier = true ∧
        resource.describes "data/*/**/" identifier = true := by
  have ha : action.IsPlain "**.v1.*" := by decide +kernel
  have hb : action.IsPlain "api.*.**" := by decide +kernel
  have hr : resource.IsPlain "/**/v1/*" := by decide +kernel
  have hs : resource.IsPlain "data/*/**/" := by decide +kernel
  exact ⟨⟨ha, hb, (overlaps_iff_exists_common ha hb).1 (by decide +kernel)⟩,
    hr, hs, (overlaps_iff_exists_common hr hs).1 (by decide +kernel)⟩

end PatternKind

end Delegation
