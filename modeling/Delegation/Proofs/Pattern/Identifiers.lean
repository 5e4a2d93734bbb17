import Delegation.Config.Matchers
import Delegation.Proofs.Pattern.Laws
import Delegation.Proofs.Pattern.Overlap

namespace Delegation

theorem subset_joinWith {α : Type} {separator part : List α} {parts : List (List α)}
    (h : part ∈ parts) : part ⊆ joinWith separator parts := by
  induction parts with
  | nil => cases h
  | cons first parts ih =>
    cases parts with
    | nil =>
      rw [List.mem_singleton.1 h]
      exact List.Subset.refl first
    | cons second parts =>
      rw [joinWith_cons_cons, List.append_assoc]
      rcases List.mem_cons.1 h with rfl | h
      · exact List.subset_append_left ..
      · exact List.subset_append_of_subset_right _ (List.subset_append_of_subset_right _ (ih h))

theorem trimBoth_subset (c : Char) (text : List Char) : trimBoth c text ⊆ text := by
  intro d hd
  have hback := (List.dropWhile_sublist _).subset (List.mem_reverse.1 hd)
  exact (List.dropWhile_sublist _).subset (List.mem_reverse.1 hback)

namespace PatternKind

variable {kind : PatternKind} {s text : List Char} {identifier : String}

theorem subset_of_mem_segments (h : s ∈ kind.segments text) : s ⊆ text := by
  have hinner : ∃ inner, inner ⊆ text ∧
      kind.segments text = if inner.isEmpty then [] else splitOn kind.separator inner := by
    cases kind with
    | action => exact ⟨text, List.Subset.refl text, rfl⟩
    | resource => exact ⟨trimBoth '/' text, trimBoth_subset '/' text, rfl⟩
  obtain ⟨inner, hsub, hsegments⟩ := hinner
  rw [hsegments] at h
  split at h
  · cases h
  · have hjoin : s ⊆ joinWith [kind.separator] (splitOn kind.separator inner) := subset_joinWith h
    rw [joinWith_splitOn] at hjoin
    exact List.Subset.trans hjoin hsub

theorem pattern_of_plain (h : '*' ∉ identifier.toList) :
    kind.pattern identifier = (kind.segments identifier.toList).map .literal := by
  refine List.map_congr_left fun s hs => Segment.ofText_of_plain ?_
  exact fun hstar => h (subset_of_mem_segments hs hstar)

end PatternKind

section

variable {α β γ : Type} {wild : α → Bool} {fits : α → β → Bool} {fits' : α → γ → Bool} {g : γ → β}

theorem wildcardMatch_map (h : ∀ a c, wild a = false → fits a (g c) = fits' a c) (as : List α)
    (cs : List γ) :
    (wildcardMatch wild fits).holds as (cs.map g) = (wildcardMatch wild fits').holds as cs := by
  induction as generalizing cs with
  | nil => cases cs <;> rfl
  | cons a as iha =>
    induction cs with
    | nil =>
      rw [List.map_nil, wildcardMatch_cons_nil, wildcardMatch_cons_nil, ← iha, List.map_nil]
    | cons c cs ihc =>
      rw [List.map_cons]
      cases ha : wild a with
      | true =>
        rw [wildcardMatch_cons_of_wild ha, wildcardMatch_cons_of_wild ha, ihc, ← List.map_cons, iha]
      | false =>
        rw [wildcardMatch_cons_of_not_wild ha, wildcardMatch_cons_of_not_wild ha, h a c ha, iha]

end

namespace Segment

variable [Matchers]

theorem overlaps_literal (p : Segment) (s : List Char) : p.overlaps (literal s) = p.fits s := by
  cases p <;> rfl

theorem covers_literal {p : Segment} (hp : p.isAnyDepth = false) (s : List Char) :
    p.covers (literal s) = p.fits s := by
  cases p with
  | anyDepth => cases hp
  | _ => rfl

theorem covering_literals (ps : List Segment) (cs : List (List Char)) :
    covering.holds ps (cs.map literal) = matching.holds ps cs := by
  rw [covering_eq, matching]
  refine wildcardMatch_map (fun p s hp => ?_) ps cs
  rw [covers_literal hp]
  rfl

/-- Against segments that stand for themselves, the stars of the first pattern alone are taken as runs. -/
theorem sharing_literals (ps : List Segment) (cs : List (List Char)) :
    sharing.holds ps (cs.map literal) = matching.holds ps cs := by
  induction ps generalizing cs with
  | nil => cases cs <;> rfl
  | cons p ps ihp =>
    induction cs with
    | nil => rw [List.map_nil, sharing_nil_right, matching, wildcardMatch_empty]
    | cons c cs ihc =>
      rw [List.map_cons]
      cases hp : p.isAnyDepth with
      | true =>
        rw [sharing_wild_left hp, ihc, ← List.map_cons, ihp, matching, wildcardMatch_cons_of_wild hp]
      | false =>
        rw [sharing_cons_cons hp rfl, overlaps_literal, ihp, matching, wildcardMatch_cons_of_not_wild hp]

end Segment

namespace PatternKind

/-- A pattern overlaps an identifier without stars, in either order, and covers it, just if it describes
it. -/
theorem relations_agree [Matchers] (kind : PatternKind) (pattern identifier : String)
    (h : '*' ∉ identifier.toList) :
    kind.overlaps pattern identifier = kind.describes pattern identifier ∧
      kind.overlaps identifier pattern = kind.describes pattern identifier ∧
      kind.covers pattern identifier = kind.describes pattern identifier := by
  have hoverlaps : kind.overlaps pattern identifier = kind.describes pattern identifier := by
    rw [overlaps, pattern_of_plain h]
    exact Segment.sharing_literals ..
  refine ⟨hoverlaps, ?_, ?_⟩
  · rw [← hoverlaps]
    exact Segment.sharing_comm ..
  · rw [covers, pattern_of_plain h]
    exact Segment.covering_literals ..

theorem relations_agree_mainFile :
    '*' ∉ "/src//main.rs/".toList ∧
      resource.describes "**/m*n.*" "/src//main.rs/" = true ∧
      resource.overlaps "**/m*n.*" "/src//main.rs/" = true ∧
      resource.overlaps "/src//main.rs/" "**/m*n.*" = true ∧
      resource.covers "**/m*n.*" "/src//main.rs/" = true ∧
      resource.describes "src/m**/*" "/src//main.rs/" = false ∧
      resource.overlaps "src/m**/*" "/src//main.rs/" = false ∧
      resource.overlaps "/src//main.rs/" "src/m**/*" = false ∧
      resource.covers "src/m**/*" "/src//main.rs/" = false := by
  have hplain : '*' ∉ "/src//main.rs/".toList := by decide
  have hdescribed : resource.describes "**/m*n.*" "/src//main.rs/" = true := by decide +kernel
  have hother : resource.describes "src/m**/*" "/src//main.rs/" = false := by decide +kernel
  obtain ⟨hright, hleft, hcovers⟩ := relations_agree resource "**/m*n.*" _ hplain
  obtain ⟨hright', hleft', hcovers'⟩ := relations_agree resource "src/m**/*" _ hplain
  exact ⟨hplain, hdescribed, hright.trans hdescribed, hleft.trans hdescribed,
    hcovers.trans hdescribed, hother, hright'.trans hother, hleft'.trans hother, hcovers'.trans hother⟩

end PatternKind

end Delegation
