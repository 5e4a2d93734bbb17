import Delegation.Config.Matchers
import Delegation.Pattern.Relation
import Delegation.Proofs.Pattern.Wildcards
import Mathlib.Data.List.Forall2

namespace Delegation

section Cuts

variable {α β : Type} {takes takes' : α → List β → Prop} {a : α} {as : List α} {bs : List β}

/-- The second list can be cut into consecutive pieces that the elements of the first take, each one. -/
def Cuts (takes : α → List β → Prop) (as : List α) (bs : List β) : Prop :=
  ∃ pieces : List (List β), pieces.flatten = bs ∧ List.Forall₂ takes as pieces

theorem cuts_nil : Cuts takes [] bs ↔ bs = [] := by
  constructor
  · rintro ⟨pieces, rfl, h⟩
    cases h
    rfl
  · rintro rfl
    exact ⟨[], rfl, .nil⟩

theorem cuts_cons : Cuts takes (a :: as) bs ↔
    ∃ piece rest, bs = piece ++ rest ∧ takes a piece ∧ Cuts takes as rest := by
  constructor
  · rintro ⟨_, rfl, h⟩
    cases h with
    | @cons _ piece _ pieces ha has => exact ⟨piece, pieces.flatten, rfl, ha, pieces, rfl, has⟩
  · rintro ⟨piece, _, rfl, ha, pieces, rfl, has⟩
    exact ⟨piece :: pieces, rfl, .cons ha has⟩

theorem cuts_congr (h : ∀ a ∈ as, ∀ piece, takes a piece ↔ takes' a piece) :
    Cuts takes as bs ↔ Cuts takes' as bs := by
  induction as generalizing bs with
  | nil => rw [cuts_nil, cuts_nil]
  | cons a as ih =>
    rw [List.forall_mem_cons] at h
    simp only [cuts_cons, h.1, ih h.2]

theorem cuts_map {γ : Type} {f : γ → α} {cs : List γ} :
    Cuts takes (cs.map f) bs ↔ Cuts (fun c piece => takes (f c) piece) cs bs := by
  simp only [Cuts, List.forall₂_map_left_iff]

variable {wild : α → Bool} {fits : α → β → Bool}

/-- Wildcard matching finds a cut if there is one. -/
theorem wildcardMatch_iff_cuts : (wildcardMatch wild fits).holds as bs = true ↔
    Cuts (fun a piece => wild a = true ∨ ∃ b, piece = [b] ∧ fits a b = true) as bs := by
  induction as generalizing bs with
  | nil => rw [wildcardMatch_nil, cuts_nil]
  | cons a as ih =>
    rw [cuts_cons]
    cases ha : wild a with
    | true =>
      rw [wildcardMatch_wild_iff ha]
      constructor
      · rintro ⟨rest, ⟨piece, hsplit⟩, hrest⟩
        exact ⟨piece, rest, hsplit.symm, .inl rfl, ih.1 hrest⟩
      · rintro ⟨piece, rest, hsplit, -, hrest⟩
        exact ⟨rest, ⟨piece, hsplit.symm⟩, ih.2 hrest⟩
    | false =>
      rw [wildcardMatch_not_wild_iff ha]
      constructor
      · rintro ⟨b, rest, hsplit, hb, hrest⟩
        exact ⟨[b], rest, hsplit, .inr ⟨b, rfl, hb⟩, ih.1 hrest⟩
      · rintro ⟨piece, rest, hsplit, hwild | ⟨b, rfl, hb⟩, hrest⟩
        · cases hwild
        · exact ⟨b, rest, hsplit, hb, ih.2 hrest⟩

end Cuts

namespace Segment

variable {g s text : List Char} {piece : List (List Char)}

/-- A text got from another one by putting some text for each of its stars. -/
def StarsReplaced (g text : List Char) : Prop := Cuts (fun c piece => c = '*' ∨ piece = [c]) g text

theorem starsReplaced_self (g : List Char) : StarsReplaced g g := by
  induction g with
  | nil => exact cuts_nil.2 rfl
  | cons c cs ih => exact cuts_cons.2 ⟨[c], cs, rfl, .inr rfl, ih⟩

theorem starsReplaced_iff : (wildcardMatch (· == '*') (· == ·)).holds g text = true ↔ StarsReplaced g text := by
  rw [wildcardMatch_iff_cuts]
  refine cuts_congr fun c _ piece => or_congr beq_iff_eq ?_
  constructor
  · rintro ⟨c', hpiece, hc⟩
    rw [hpiece, beq_iff_eq.1 hc]
  · intro hpiece
    exact ⟨c, hpiece, beq_self_eq_true c⟩

/-- What is documented of globs: one with two stars in a row is invalid; in any other each star stands for some
text, and what is escaped stands for itself. -/
def GlobDocumented [Matchers] (g : List Char) : Prop :=
  (['*', '*'] <:+: g → Matchers.glob? (starsOnly g) = none) ∧
    (¬['*', '*'] <:+: g → ∃ test, Matchers.glob? (starsOnly g) = some test ∧
      ∀ text, test text = true ↔ StarsReplaced g text)

theorem globFits_self [Matchers] (g : List Char) : globFits g g = true := by
  rw [globFits, beq_self_eq_true, Bool.true_or]

theorem globFits_iff [Matchers] (h : GlobDocumented g) : globFits g text = true ↔
    ['*', '*'] <:+: g ∧ text = g ∨ ¬['*', '*'] <:+: g ∧ StarsReplaced g text := by
  rw [globFits, Bool.or_eq_true, beq_iff_eq]
  by_cases hdouble : ['*', '*'] <:+: g
  · rw [h.1 hdouble, Option.any_none]
    simp only [hdouble, true_and, not_true, false_and, or_false, Bool.false_eq_true, eq_comm]
  · obtain ⟨test, htest, hreplaced⟩ := h.2 hdouble
    rw [htest, Option.any_some, hreplaced]
    simp only [hdouble, false_and, not_false_iff, true_and, false_or]
    refine or_iff_right_of_imp ?_
    rintro rfl
    exact starsReplaced_self g

/-- The pieces of an identifier that a segment of a pattern takes. -/
inductive Takes : List Char → List (List Char) → Prop
  | anyDepth (piece : List (List Char)) : Takes ['*', '*'] piece
  | any (s : List Char) : Takes ['*'] [s]
  | literal {t : List Char} : '*' ∉ t → Takes t [t]
  | replaced {g s : List Char} : '*' ∈ g → ¬['*', '*'] <:+: g → StarsReplaced g s → Takes g [s]
  /-- Two stars within a segment stand for themselves. -/
  | doubled {g : List Char} : ['*', '*'] <:+: g → Takes g [g]

theorem ofText_of_star (h : '*' ∈ g) : g = ['*', '*'] ∨ g = ['*'] ∨ ofText g = glob g := by
  by_cases hdepth : g = ['*', '*']
  · exact .inl hdepth
  · by_cases hany : g = ['*']
    · exact .inr (.inl hany)
    · rw [ofText, if_neg hdepth, if_neg hany, if_pos h]
      exact .inr (.inr rfl)

theorem ofText_of_plain (h : '*' ∉ text) : ofText text = literal text := by
  have hne : ∀ stars : List Char, '*' ∈ stars → text ≠ stars := by
    rintro stars hstars rfl
    exact h hstars
  rw [ofText, if_neg (hne _ List.mem_cons_self), if_neg (hne _ List.mem_cons_self), if_neg h]

section

variable [Matchers] (hglob : ofText text = glob text → GlobDocumented text)

include hglob

theorem takes_of_ofText (h : (ofText text).isAnyDepth = true ∨ ∃ s, piece = [s] ∧ (ofText text).fits s = true) :
    Takes text piece := by
  by_cases hstar : '*' ∈ text
  · rcases ofText_of_star hstar with rfl | rfl | htext
    · exact .anyDepth piece
    · obtain ⟨s, rfl, -⟩ := h.resolve_left Bool.false_ne_true
      exact .any s
    · rw [htext] at h
      obtain ⟨s, rfl, hfits⟩ := h.resolve_left Bool.false_ne_true
      rcases (globFits_iff (hglob htext)).1 hfits with ⟨hdouble, rfl⟩ | ⟨hdouble, hreplaced⟩
      · exact .doubled hdouble
      · exact .replaced hstar hdouble hreplaced
  · rw [ofText_of_plain hstar] at h
    obtain ⟨s, rfl, hfits⟩ := h.resolve_left Bool.false_ne_true
    exact beq_iff_eq.1 hfits ▸ .literal hstar

theorem ofText_of_takes (h : Takes text piece) :
    (ofText text).isAnyDepth = true ∨ ∃ s, piece = [s] ∧ (ofText text).fits s = true := by
  have hstarred : ∀ s, '*' ∈ text → (ofText text = glob text → globFits text s = true) →
      (ofText text).isAnyDepth = true ∨ ∃ s', [s] = [s'] ∧ (ofText text).fits s' = true := by
    intro s hstar hfits
    rcases ofText_of_star hstar with rfl | rfl | htext
    · exact .inl rfl
    · exact .inr ⟨s, rfl, rfl⟩
    · have hs := hfits htext
      rw [htext]
      exact .inr ⟨s, rfl, hs⟩
  cases h with
  | anyDepth => exact .inl rfl
  | any s => exact .inr ⟨s, rfl, rfl⟩
  | literal hplain =>
    rw [ofText_of_plain hplain]
    exact .inr ⟨text, rfl, beq_self_eq_true text⟩
  | replaced hstar hdouble hreplaced =>
    exact hstarred _ hstar fun htext => (globFits_iff (hglob htext)).2 (.inr ⟨hdouble, hreplaced⟩)
  | doubled hdouble =>
    exact hstarred _ (hdouble.subset List.mem_cons_self) fun _ => globFits_self text

end

end Segment

/-- If the globs in it are read as is documented, a pattern describes just the identifiers that can be cut into
pieces which its segments take. -/
theorem PatternKind.describes_iff_cuts [Matchers] (kind : PatternKind) (pattern identifier : String)
    (hglobs : ∀ g ∈ kind.segments pattern.toList, Segment.ofText g = .glob g → Segment.GlobDocumented g) :
    kind.describes pattern identifier = true ↔ ∃ pieces : List (List (List Char)),
      pieces.flatten = kind.segments identifier.toList ∧
        List.Forall₂ Segment.Takes (kind.segments pattern.toList) pieces := by
  rw [describes, PatternKind.pattern, Segment.matching, wildcardMatch_iff_cuts, cuts_map]
  refine cuts_congr fun g hg piece => ?_
  exact ⟨Segment.takes_of_ofText (hglobs g hg), Segment.ofText_of_takes (hglobs g hg)⟩

theorem hasDoubleStar_iff {g : List Char} : hasDoubleStar g = true ↔ ['*', '*'] <:+: g := by
  fun_induction hasDoubleStar g with
  | case1 cs => exact iff_of_true rfl ⟨[], cs, rfl⟩
  | case2 c cs hdouble ih =>
    rw [ih, List.infix_cons_iff]
    refine (or_iff_right ?_).symm
    rintro ⟨cs', h⟩
    cases h
    exact hdouble cs' rfl rfl
  | case3 =>
    refine iff_of_false Bool.false_ne_true fun h => ?_
    cases List.infix_nil.1 h

theorem Segment.globDocumented_running (g : List Char) : GlobDocumented g := by
  have hstars : starsOnly g = g := by
    have hescape : (splitOn '*' g).map Matchers.escape = splitOn '*' g := List.map_id _
    rw [starsOnly, hescape, joinWith_splitOn]
  rw [GlobDocumented, hstars]
  constructor
  · intro hdouble
    exact if_pos (hasDoubleStar_iff.2 hdouble)
  · intro hdouble
    exact ⟨_, if_neg fun h => hdouble (hasDoubleStar_iff.1 h), fun _ => starsReplaced_iff⟩

theorem PatternKind.describes_iff_cuts_sources :
    (∀ g ∈ resource.segments "/a/**/m*n.rs".toList, Segment.ofText g = .glob g → Segment.GlobDocumented g) ∧
      resource.describes "/a/**/m*n.rs" "a/b/main.rs/" = true ∧
      ∃ pieces : List (List (List Char)), pieces.flatten = resource.segments "a/b/main.rs/".toList ∧
        List.Forall₂ Segment.Takes (resource.segments "/a/**/m*n.rs".toList) pieces := by
  have hglobs : ∀ g ∈ resource.segments "/a/**/m*n.rs".toList,
      Segment.ofText g = .glob g → Segment.GlobDocumented g :=
    fun g _ _ => Segment.globDocumented_running g
  have hdescribes : resource.describes "/a/**/m*n.rs" "a/b/main.rs/" = true := by decide +kernel
  exact ⟨hglobs, hdescribes, (describes_iff_cuts resource "/a/**/m*n.rs" "a/b/main.rs/" hglobs).1 hdescribes⟩

end Delegation
