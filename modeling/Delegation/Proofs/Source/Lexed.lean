import Delegation.Proofs.Source.Words

namespace Delegation

namespace Lexer

variable {afterDot : Bool} {c : Char} {cs text : List Char} {kind : TokenKind}
  {ks ls : List TokenKind} {more : Nat}

def WellLexed (afterDot : Bool) : TokenKind → Prop
  | .word name =>
    IsSegment afterDot name.toList ∧ '*' ∉ name.toList ∧ Keyword.ofText? name = none
  | _ => True

/-- Every token is one that the lexer makes in its place. -/
def Lexed : Bool → List TokenKind → Prop
  | _, [] => True
  | afterDot, kind :: ks => WellLexed afterDot kind ∧ Lexed (kind = .dot) ks

theorem isSegment_of_word (hlead : ActionPattern.isLead (!afterDot) c = true)
    (hword : ∀ d ∈ c :: cs, isWordPart d = true)
    (hkeyword : Keyword.ofText? (String.ofList (c :: cs)) = none) :
    '*' ∉ c :: cs ∧ IsSegment afterDot (c :: cs) := by
  have hstar : '*' ∉ c :: cs := fun hmem => absurd (hword '*' hmem) (by decide)
  have hstars : ¬(c :: cs = ['*'] ∨ c :: cs = ['*', '*']) := by
    rintro (h | h)
    · exact hstar (by rw [h]; decide)
    · exact hstar (by rw [h]; decide)
  have hall : (c :: cs).all isWordPart = true := List.all_eq_true.2 hword
  refine ⟨hstar, ?_⟩
  rw [IsSegment, ActionPattern.segmentFault?, if_neg hstars, if_neg hstar, hall, hlead, hkeyword]
  cases afterDot <;> rfl

theorem IsSegment.after_dot {segment : List Char} (h : IsSegment false segment) :
    IsSegment true segment := by
  obtain rfl | rfl | ⟨c, cs, rfl, -, hlead, hword, hkeyword⟩ := h.cases
  · decide
  · decide
  · refine (isSegment_of_word ?_ hword (hkeyword rfl)).2
    rw [ActionPattern.isLead, Bool.or_eq_true] at hlead ⊢
    rcases hlead with hlead | hlead
    · exact .inl hlead
    · cases hlead

theorem WellLexed.weaken (h : WellLexed false kind) : WellLexed afterDot kind := by
  cases afterDot with
  | false => exact h
  | true =>
    cases kind with
    | word name => exact ⟨h.1.after_dot, h.2⟩
    | _ => trivial

theorem wellLexed_wordKind (hlead : ActionPattern.isLead (!afterDot) c = true) :
    WellLexed afterDot (wordKind (c :: cs.takeWhile isWordPart)) := by
  have hword : ∀ d ∈ c :: cs.takeWhile isWordPart, isWordPart d = true := by
    intro d hd
    rcases List.mem_cons.1 hd with rfl | hd
    · exact isWordPart_of_lead hlead
    · exact List.all_eq_true.1 List.all_takeWhile d hd
  rw [wordKind]
  split
  next => trivial
  next hkeyword =>
    obtain ⟨hstar, hsegment⟩ := isSegment_of_word hlead hword hkeyword
    rw [WellLexed, String.toList_ofList]
    exact ⟨hsegment, hstar, hkeyword⟩

theorem isLead_of_word (hword : (c.isDigit || isWordStart c) = true)
    (hdigit : ¬(c.isDigit && !afterDot) = true) : ActionPattern.isLead (!afterDot) c = true := by
  rw [ActionPattern.isLead, Bool.not_not]
  rw [Bool.or_eq_true] at hword ⊢
  rcases hword with h | h
  · rw [h, Bool.true_and, Bool.not_eq_true', Bool.not_eq_false] at hdigit
    rw [hdigit, h]
    exact .inr rfl
  · exact .inl h

theorem wellLexed_of_scan (h : scan afterDot c cs = .ok (kind, more)) : WellLexed afterDot kind := by
  unfold scan at h
  dsimp only at h
  split at h
  all_goals try (cases h; trivial)
  all_goals try (split at h <;> cases h <;> trivial)
  split at h
  next =>
    cases hq : quoted c 1 cs with
    | error e =>
      rw [hq] at h
      cases h
    | ok q =>
      rw [hq] at h
      cases h
      trivial
  next =>
    split at h
    next =>
      cases h
      trivial
    next hdigit =>
      split at h
      next =>
        cases h
        trivial
      next =>
        split at h
        next hword =>
          cases h
          exact wellLexed_wordKind (isLead_of_word hword hdigit)
        next => cases h

theorem lexed_of_tokens {start : Position} {stream : TokenStream}
    (h : tokens afterDot start text = .ok stream) : Lexed afterDot (kinds stream.tokens) := by
  induction hn : text.length using Nat.strongRecOn generalizing afterDot start text stream with
  | ind n ih =>
    rw [tokens_eq] at h
    split at h
    next =>
      cases h
      trivial
    next c cs hdrop =>
      split at h
      next => cases h
      next kind more hscan =>
        have hshort : (cs.drop more).length < n := by
          have hlen := congrArg List.length hdrop
          rw [List.length_drop, List.length_cons] at hlen
          rw [List.length_drop]
          omega
        cases hrest : tokens (kind = .dot) ((start.after (gap text)).after (c :: cs.take more))
            (cs.drop more) with
        | error e =>
          rw [hrest] at h
          cases h
        | ok rest =>
          rw [hrest] at h
          cases h
          refine ⟨?_, ih _ hshort hrest rfl⟩
          have hwell := wellLexed_of_scan hscan
          cases hblank : (afterDot && (gap text).isEmpty) with
          | false =>
            rw [hblank] at hwell
            exact hwell.weaken
          | true =>
            rw [hblank] at hwell
            rw [Bool.and_eq_true] at hblank
            rw [hblank.1]
            exact hwell

theorem Lexed.left (h : Lexed afterDot (ks ++ ls)) : Lexed afterDot ks := by
  induction ks generalizing afterDot with
  | nil => trivial
  | cons kind ks ih => exact ⟨h.1, ih h.2⟩

theorem Lexed.right (h : Lexed afterDot (ks ++ ls)) : ∃ afterDot', Lexed afterDot' ls := by
  induction ks generalizing afterDot with
  | nil => exact ⟨afterDot, h⟩
  | cons kind ks ih => exact ih h.2

theorem Lexed.tail (h : Lexed afterDot (kind :: ks)) (hdot : kind ≠ .dot) : Lexed false ks := by
  have htail := h.2
  rw [decide_eq_false hdot] at htail
  exact htail

end Lexer

end Delegation
