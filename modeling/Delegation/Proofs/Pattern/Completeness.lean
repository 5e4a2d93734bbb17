import Delegation.Config.Matchers
import Delegation.Proofs.Pattern.Overlap

namespace Delegation

section Spelling

variable {c : Char} {f : Char → List Char}

theorem flatMap_joinWith (hc : f c = [c]) (parts : List (List Char)) :
    (joinWith [c] parts).flatMap f = joinWith [c] (parts.map (·.flatMap f)) := by
  induction parts with
  | nil => rfl
  | cons part parts ih =>
    cases parts with
    | nil => rfl
    | cons part' parts =>
      rw [joinWith_cons_cons, List.flatMap_append, List.flatMap_append, List.flatMap_singleton, hc, ih]
      rfl

theorem splitOn_flatMap (hc : f c = [c]) (hf : ∀ d, d ≠ c → c ∉ f d) (text : List Char) :
    splitOn c (text.flatMap f) = (splitOn c text).map (·.flatMap f) := by
  have hparts : ∀ part ∈ (splitOn c text).map (·.flatMap f), c ∉ part := by
    intro part hpart
    obtain ⟨part, hmem, rfl⟩ := List.mem_map.1 hpart
    rw [List.mem_flatMap]
    rintro ⟨d, hd, hc⟩
    refine hf d ?_ hc
    rintro rfl
    exact notMem_of_mem_splitOn hmem hd
  have htext := flatMap_joinWith hc (splitOn c text)
  rw [joinWith_splitOn] at htext
  rw [htext]
  cases hsplit : splitOn c text with
  | nil => exact absurd hsplit (splitOn_ne_nil c text)
  | cons part parts =>
    rw [hsplit] at hparts
    exact splitOn_joinWith hparts

theorem dropWhile_flatMap (hc : f c = [c]) (hf : ∀ d, d ≠ c → c ∉ f d) (hne : ∀ d, f d ≠ [])
    (text : List Char) :
    (text.flatMap f).dropWhile (· == c) = (text.dropWhile (· == c)).flatMap f := by
  induction text with
  | nil => rfl
  | cons d ds ih =>
    rw [List.flatMap_cons]
    by_cases hd : d = c
    · rw [hd, hc, List.singleton_append]
      simp only [List.dropWhile_cons, beq_self_eq_true, if_true]
      exact ih
    · obtain ⟨e, es, he⟩ := List.exists_cons_of_ne_nil (hne d)
      have hec : e ≠ c := by
        rintro rfl
        exact hf d hd (he ▸ List.mem_cons_self)
      rw [List.dropWhile_cons_of_neg (by simpa using hd), List.flatMap_cons, he, List.cons_append,
        List.dropWhile_cons_of_neg (by simpa using hec)]

theorem trimBoth_flatMap (hc : f c = [c]) (hf : ∀ d, d ≠ c → c ∉ f d) (hne : ∀ d, f d ≠ [])
    (text : List Char) : trimBoth c (text.flatMap f) = (trimBoth c text).flatMap f := by
  have hback := @dropWhile_flatMap c (List.reverse ∘ f) (congrArg List.reverse hc)
    (fun d hd => by simpa using hf d hd) (fun d => by simpa using hne d)
  rw [trimBoth, dropWhile_flatMap hc hf hne, List.reverse_flatMap, hback, List.reverse_flatMap]
  congr 1
  funext d
  simp

theorem segments_flatMap {kind : PatternKind} (hsep : f kind.separator = [kind.separator])
    (hf : ∀ d, d ≠ kind.separator → kind.separator ∉ f d) (hne : ∀ d, f d ≠ []) (text : List Char) :
    kind.segments (text.flatMap f) = (kind.segments text).map (·.flatMap f) := by
  have hempty : ∀ cs : List Char, (cs.flatMap f).isEmpty = cs.isEmpty := by
    intro cs
    cases cs with
    | nil => rfl
    | cons d ds => simp [hne d]
  have hsplit := splitOn_flatMap hsep hf
  cases kind with
  | action =>
    simp only [PatternKind.segments, hempty]
    split
    · rfl
    · exact hsplit text
  | resource =>
    have htrim : trimBoth '/' (text.flatMap f) = (trimBoth '/' text).flatMap f :=
      trimBoth_flatMap hsep hf hne text
    simp only [PatternKind.segments, htrim, hempty]
    split
    · rfl
    · exact hsplit (trimBoth '/' text)

end Spelling

/-- A word in place of a star, and any other character as it is. -/
def fillStar (word : List Char) (c : Char) : List Char := if c = '*' then word else [c]

/-- A text in which a word stands for each star. -/
def fillStars (word text : List Char) : List Char := text.flatMap (fillStar word)

theorem fillStars_star (word : List Char) : fillStars word ['*'] = word := List.append_nil word

theorem fillStars_of_plain {word text : List Char} (h : '*' ∉ text) : fillStars word text = text := by
  induction text with
  | nil => rfl
  | cons c cs ih =>
    rw [List.mem_cons, not_or] at h
    rw [fillStars, List.flatMap_cons, fillStar, if_neg (Ne.symm h.1), ← fillStars, ih h.2]
    rfl

namespace Segment

variable [Matchers] {word s t : List Char}

theorem fits_fillStars (hs : WholeStars s) (hsingle : s ≠ ['*', '*']) (word : List Char) :
    (ofText s).isAnyDepth = false ∧ (ofText s).fits (fillStars word s) = true := by
  rcases hs.ofText_cases with ⟨hdepth, -⟩ | ⟨-, hany⟩ | ⟨hplain, hliteral⟩
  · exact absurd hdepth hsingle
  · rw [hany]
    exact ⟨rfl, rfl⟩
  · rw [hliteral, fillStars_of_plain hplain]
    exact ⟨rfl, beq_self_eq_true s⟩

/-- Whatever fits a segment made with a word, and is not that word, covers the segment. -/
theorem covers_of_fits_fillStars (ht : WholeStars t) (hword : t ≠ word) (hs : WholeStars s)
    (hsingle : s ≠ ['*', '*']) (hwild : (ofText t).isAnyDepth = false)
    (hfits : (ofText t).fits (fillStars word s) = true) :
    (!(ofText s).isAnyDepth && (ofText t).covers (ofText s)) = true := by
  rw [(fits_fillStars hs hsingle word).1]
  rcases ht.ofText_cases with ⟨rfl, -⟩ | ⟨-, htany⟩ | ⟨-, htliteral⟩
  · cases hwild
  · rw [htany]
    rcases hs.ofText_cases with ⟨hdepth, -⟩ | ⟨-, hany⟩ | ⟨-, hliteral⟩
    · exact absurd hdepth hsingle
    · rw [hany]
      rfl
    · rw [hliteral]
      rfl
  · rw [htliteral] at hfits ⊢
    have heq : t = fillStars word s := beq_iff_eq.1 hfits
    rcases hs.ofText_cases with ⟨hdepth, -⟩ | ⟨rfl, -⟩ | ⟨hplain, hliteral⟩
    · exact absurd hdepth hsingle
    · exact absurd (heq.trans (fillStars_star word)) hword
    · rw [fillStars_of_plain hplain] at heq
      rw [hliteral, heq]
      exact beq_self_eq_true s

end Segment

namespace PatternKind

variable {kind : PatternKind} {broad narrow : String} {word : List Char}

theorem exists_new_name (kind : PatternKind) (words : List (List Char)) :
    ∃ word, kind.IsName word ∧ word ∉ words := by
  refine ⟨List.replicate (words.flatten.length + 1) 'x', ⟨?_, ?_, ?_⟩, ?_⟩
  · exact List.cons_ne_nil _ _
  · rw [List.mem_replicate]
    rintro ⟨-, hsep⟩
    cases kind <;> cases hsep
  · rw [List.mem_replicate]
    rintro ⟨-, hstar⟩
    cases hstar
  · intro hmem
    have hle := (List.sublist_flatten_of_mem hmem).length_le
    rw [List.length_replicate] at hle
    exact absurd hle (Nat.not_succ_le_self _)

theorem segments_fillStars (hword : kind.IsName word) (text : List Char) :
    kind.segments (fillStars word text) = (kind.segments text).map (fillStars word) := by
  apply segments_flatMap
  · exact if_neg kind.separator_ne_star
  · intro d hd
    unfold fillStar
    split
    · exact hword.2.1
    · rw [List.mem_singleton]
      exact Ne.symm hd
  · intro d
    unfold fillStar
    split
    · exact hword.1
    · exact List.cons_ne_nil _ _

/-- Of patterns whose stars are whole segments, the second without runs, one covers the other just if it
describes every identifier that the other does. -/
theorem covers_iff_describes [Matchers] (hbroad : ∀ s ∈ kind.segments broad.toList, WholeStars s)
    (hnarrow : ∀ s ∈ kind.segments narrow.toList, WholeStars s ∧ s ≠ ['*', '*']) :
    kind.covers broad narrow = true ↔ ∀ identifier : String,
      kind.describes narrow identifier = true → kind.describes broad identifier = true := by
  constructor
  · intro h identifier hdescribes
    exact Segment.matching_of_covering h hdescribes
  · intro h
    obtain ⟨word, hname, hnew⟩ := kind.exists_new_name (kind.segments broad.toList)
    have hsegments := segments_fillStars hname narrow.toList
    have hfilled : kind.describes narrow (String.ofList (fillStars word narrow.toList)) = true := by
      rw [describes, String.toList_ofList, hsegments]
      apply wildcardMatch_map_of_forall
      intro s hs
      exact Segment.fits_fillStars (hnarrow s hs).1 (hnarrow s hs).2 word
    have hdescribes := h _ hfilled
    rw [describes, String.toList_ofList, hsegments] at hdescribes
    rw [covers, Segment.covering_eq]
    refine wildcardMatch_map_imp ?_ hdescribes
    intro p hp s hs hwild hfits
    obtain ⟨t, ht, rfl⟩ := List.mem_map.1 hp
    have hword : t ≠ word := fun heq => hnew (heq ▸ ht)
    exact Segment.covers_of_fits_fillStars (hbroad t ht) hword (hnarrow s hs).1 (hnarrow s hs).2 hwild hfits

/-- One pattern is covered. Another one, which has no empty segment, is not, and so describes something that
the broad pattern does not. -/
theorem covers_iff_describes_archives :
    (∀ s ∈ resource.segments "/**/*/archive//*".toList, WholeStars s) ∧
      (∀ s ∈ resource.segments "data/*/archive//*/".toList, WholeStars s ∧ s ≠ ['*', '*']) ∧
      (∀ s ∈ resource.segments "*/archive/*".toList, WholeStars s ∧ s ≠ ['*', '*']) ∧
      (∀ identifier : String, resource.describes "data/*/archive//*/" identifier = true →
        resource.describes "/**/*/archive//*" identifier = true) ∧
      ∃ identifier : String, resource.describes "*/archive/*" identifier = true ∧
        resource.describes "/**/*/archive//*" identifier ≠ true := by
  have hbroad : ∀ s ∈ resource.segments "/**/*/archive//*".toList, WholeStars s := by
    decide +kernel
  have hnarrow : ∀ s ∈ resource.segments "data/*/archive//*/".toList, WholeStars s ∧ s ≠ ['*', '*'] := by
    decide +kernel
  have hother : ∀ s ∈ resource.segments "*/archive/*".toList, WholeStars s ∧ s ≠ ['*', '*'] := by
    decide +kernel
  refine ⟨hbroad, hnarrow, hother, ?_, ?_⟩
  · exact (covers_iff_describes hbroad hnarrow).1 (by decide +kernel)
  · have hnot := (covers_iff_describes hbroad hother).not.1 (by decide +kernel)
    simpa only [Classical.not_forall, exists_prop] using hnot

end PatternKind

end Delegation
