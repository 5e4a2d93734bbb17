import Delegation.Pattern.Action
import Delegation.Proofs.Source.Lexing

namespace Delegation

namespace Lexer

variable {afterDot : Bool} {c : Char} {cs text rest : List Char} {ks : List TokenKind}

theorem Stops.not_wordPart (h : Stops rest) : ∀ d, rest.head? = some d → isWordPart d = false := by
  intro d hd
  have hmem := h d hd
  simp only [List.mem_cons, List.not_mem_nil, or_false] at hmem
  rcases hmem with rfl | rfl | rfl | rfl | rfl <;> decide

theorem takeWhile_append_of_head {p : Char → Bool} (hcs : ∀ d ∈ cs, p d = true)
    (hrest : ∀ d, rest.head? = some d → p d = false) : (cs ++ rest).takeWhile p = cs := by
  rw [List.takeWhile_append_of_pos hcs]
  cases rest with
  | nil => rw [List.takeWhile_nil, List.append_nil]
  | cons d rest => rw [List.takeWhile_cons_of_neg (Bool.eq_false_iff.1 (hrest d rfl)), List.append_nil]

theorem not_isDigit_of_start (h : isWordStart c = true) : c.isDigit = false := by
  rw [Bool.eq_false_iff, Ne, Char.isDigit_iff_toNat]
  rintro ⟨-, hhigh⟩
  have hletter : (decide (c.val ≥ 'A'.val ∧ c.val ≤ 'Z'.val) ||
    (decide (c.val ≥ 'a'.val) && decide (c.val ≤ 'z'.val)) || decide (c = '_')) = true := h
  simp only [Bool.or_eq_true, Bool.and_eq_true, decide_eq_true_eq, UInt32.le_iff_toNat_le,
    ge_iff_le] at hletter
  change c.toNat ≤ 57 at hhigh
  change (65 ≤ c.toNat ∧ c.toNat ≤ 90 ∨ 97 ≤ c.toNat ∧ c.toNat ≤ 122) ∨ c = '_' at hletter
  rcases hletter with (⟨h, -⟩ | ⟨h, -⟩) | rfl
  · omega
  · omega
  · exact absurd hhigh (by decide)

theorem isLead_cases (h : ActionPattern.isLead (!afterDot) c = true) :
    isWordStart c = true ∨ (c.isDigit = true ∧ afterDot = true) := by
  rw [ActionPattern.isLead, Bool.not_not, Bool.or_eq_true, Bool.and_eq_true] at h
  rcases h with h | ⟨h, h'⟩
  · exact .inl h
  · exact .inr ⟨h', h⟩

theorem isWordPart_of_lead (h : ActionPattern.isLead (!afterDot) c = true) : isWordPart c = true := by
  simp only [isWordPart, Char.isAlphanum, Bool.or_eq_true]
  rcases isLead_cases h with h | ⟨h, -⟩
  · rw [isWordStart, Bool.or_eq_true] at h
    rcases h with h | h
    · exact .inl (.inl (.inl h))
    · exact .inl (.inr h)
  · exact .inl (.inl (.inr h))

theorem scan_word (hlead : ActionPattern.isLead (!afterDot) c = true)
    (hcs : ∀ d ∈ cs, isWordPart d = true)
    (hrest : ∀ d, rest.head? = some d → isWordPart d = false) :
    scan afterDot c (cs ++ rest) = .ok (wordKind (c :: cs), cs.length) := by
  have hpart := isWordPart_of_lead hlead
  unfold scan
  dsimp only
  split
  all_goals first | exact absurd hpart (by decide) | skip
  have hquote : ¬(c = '\'' ∨ c = '"') := by
    rintro (rfl | rfl) <;> exact absurd hpart (by decide)
  have hdigit : ¬(c.isDigit && !afterDot) = true := by
    rw [Bool.and_eq_true]
    rintro ⟨hd, hdot⟩
    rcases isLead_cases hlead with h | ⟨-, h⟩
    · rw [not_isDigit_of_start h] at hd
      cases hd
    · rw [h] at hdot
      cases hdot
  have hminus : ¬(decide (c = '-') && (cs ++ rest).head?.any Char.isDigit) = true := by
    rw [Bool.and_eq_true, decide_eq_true_eq]
    rintro ⟨rfl, -⟩
    cases afterDot <;> exact absurd hlead (by decide)
  have hword : (c.isDigit || isWordStart c) = true := by
    rw [Bool.or_eq_true]
    rcases isLead_cases hlead with h | ⟨h, -⟩
    · exact .inr h
    · exact .inl h
  rw [if_neg hquote, if_neg hdigit, if_neg hminus, if_pos hword, takeWhile_append_of_head hcs hrest]

theorem isLead_of_wordPart (h : isWordPart c = true) : IsLead c := by
  constructor
  · rw [Bool.eq_false_iff]
    intro hblank
    simp only [isBlank, Bool.or_eq_true, decide_eq_true_eq] at hblank
    rcases hblank with (rfl | rfl) | rfl <;> exact absurd h (by decide)
  · rintro rfl
    exact absurd h (by decide)

theorem newline_notMem_of_word (h : ∀ d ∈ cs, isWordPart d = true) : '\n' ∉ cs := by
  intro hmem
  exact absurd (h '\n' hmem) (by decide)

theorem wordKind_ne_dot (cs : List Char) : wordKind cs ≠ .dot := by
  rw [wordKind]
  split <;> nofun

theorem lexes_wordKind (hlead : ActionPattern.isLead (!afterDot) c = true)
    (hword : ∀ d ∈ c :: cs, isWordPart d = true) :
    LexesFrom afterDot (c :: cs) [wordKind (c :: cs)] := by
  have hstart : IsLead c := isLead_of_wordPart (isWordPart_of_lead hlead)
  apply lexes_one hstart (newline_notMem_of_word hword) (wordKind_ne_dot _)
  intro rest hrest
  exact scan_word hlead (List.forall_mem_cons.1 hword).2 hrest.not_wordPart

def isWordText (text : List Char) : Bool :=
  text.head?.any (ActionPattern.isLead true) && text.all isWordPart

theorem lexes_wordText (h : isWordText text = true) : Lexes text [wordKind text] := by
  rw [isWordText, Bool.and_eq_true, List.all_eq_true] at h
  cases text with
  | nil => cases h.1
  | cons c cs => exact lexes_wordKind h.1 h.2

theorem isWordText_keyword (k : Keyword) : isWordText k.text.toList = true := by
  cases k <;> decide

theorem wordKind_keyword (k : Keyword) : wordKind k.text.toList = .keyword k := by
  cases k <;> rfl

theorem lexes_keyword (k : Keyword) : Lexes k.text.toList [.keyword k] := by
  rw [← wordKind_keyword k]
  exact lexes_wordText (isWordText_keyword k)

def segmentKind (segment : List Char) : TokenKind :=
  if segment = ['*'] then .any else if segment = ['*', '*'] then .anyDepth else wordKind segment

/-- Segments that are read back, after a dot or not. -/
def IsSegment (afterDot : Bool) (segment : List Char) : Prop :=
  ActionPattern.segmentFault? (!afterDot) segment = none

instance (afterDot : Bool) (segment : List Char) : Decidable (IsSegment afterDot segment) :=
  inferInstanceAs (Decidable (_ = _))

theorem segmentKind_ne_dot (segment : List Char) : segmentKind segment ≠ .dot := by
  rw [segmentKind]
  split
  · nofun
  · split
    · nofun
    · exact wordKind_ne_dot segment

theorem IsSegment.cases {segment : List Char} (h : IsSegment afterDot segment) :
    segment = ['*'] ∨ segment = ['*', '*'] ∨
      ∃ c cs, segment = c :: cs ∧ '*' ∉ segment ∧ ActionPattern.isLead (!afterDot) c = true ∧
        (∀ d ∈ segment, isWordPart d = true) ∧
        (afterDot = false → Keyword.ofText? (String.ofList segment) = none) := by
  unfold IsSegment ActionPattern.segmentFault? at h
  split at h
  next => cases h
  next c cs =>
    split at h
    next hstars =>
      rcases hstars with hstar | hstars
      · exact .inl hstar
      · exact .inr (.inl hstars)
    next =>
      split at h
      next => cases h
      next hstar =>
        split at h
        next => cases h
        next hword =>
          split at h
          next => cases h
          next hkeyword =>
            simp only [Bool.or_eq_true, Bool.not_eq_true', not_or, Bool.not_eq_false,
              List.all_eq_true] at hword
            refine .inr (.inr ⟨c, cs, rfl, hstar, hword.2, hword.1, ?_⟩)
            rintro rfl
            simpa using hkeyword

theorem IsSegment.not_newline {segment : List Char} (h : IsSegment afterDot segment) :
    '\n' ∉ segment := by
  obtain rfl | rfl | ⟨_, _, -, -, -, hword, -⟩ := h.cases
  · decide
  · decide
  · exact newline_notMem_of_word hword

theorem IsSegment.isLead (h : IsSegment afterDot (c :: cs)) : IsLead c := by
  obtain hstar | hstars | ⟨_, _, -, -, -, hword, -⟩ := h.cases
  · cases hstar
    decide
  · cases hstars
    decide
  · exact isLead_of_wordPart (hword c List.mem_cons_self)

/-- An action pattern is a path of segments. -/
theorem exists_segments {pattern : String} (h : ActionPattern.fault? pattern = none) :
    ∃ first more, splitOn '.' pattern.toList = first :: more ∧ IsSegment false first ∧
      ∀ s ∈ more, IsSegment true s := by
  unfold ActionPattern.fault? at h
  split at h
  next => cases h
  next =>
    split at h
    next hnil => exact absurd hnil (splitOn_ne_nil _ _)
    next first more hsplit =>
      rw [Option.or_eq_none_iff, List.findSome?_eq_none_iff] at h
      exact ⟨first, more, hsplit, h.1, h.2⟩

theorem scan_segment (h : IsSegment afterDot (c :: cs))
    (hrest : ∀ d, rest.head? = some d → isWordPart d = false ∧ d ≠ '*') :
    scan afterDot c (cs ++ rest) = .ok (segmentKind (c :: cs), cs.length) := by
  obtain hstar | hstars | ⟨_, _, hcons, hstar, hlead, hword, -⟩ := h.cases
  · cases hstar
    have hnext : (rest.head? == some '*') = false := by
      rw [Bool.eq_false_iff]
      intro hnext
      exact (hrest '*' (beq_iff_eq.1 hnext)).2 rfl
    rw [List.nil_append]
    unfold scan
    simp only [hnext]
    rfl
  · cases hstars
    rfl
  · cases hcons
    have hkind : segmentKind (c :: cs) = wordKind (c :: cs) := by
      rw [segmentKind, if_neg, if_neg]
      · intro heq
        exact hstar (by rw [heq]; decide)
      · intro heq
        exact hstar (by rw [heq]; decide)
    rw [hkind]
    apply scan_word hlead (List.forall_mem_cons.1 hword).2
    intro d hd
    exact (hrest d hd).1

theorem Stops.ends_segment (h : Stops rest) :
    ∀ d, rest.head? = some d → isWordPart d = false ∧ d ≠ '*' := by
  intro d hd
  refine ⟨h.not_wordPart d hd, ?_⟩
  rintro rfl
  exact absurd (h '*' hd) (by decide)

theorem lexes_segment {segment : List Char} (h : IsSegment afterDot segment) :
    LexesFrom afterDot segment [segmentKind segment] := by
  cases segment with
  | nil => cases h
  | cons c cs =>
    apply lexes_one h.isLead h.not_newline (segmentKind_ne_dot _)
    intro rest hrest
    exact scan_segment h hrest.ends_segment

theorem LexesFrom.dot (h : LexesFrom true text ks) : Lexes ('.' :: text) (.dot :: ks) := by
  have hdot : LexesFrom (TokenKind.dot = .dot) text ks := h
  change LexesFrom false (['.'] ++ text) (.dot :: ks)
  exact hdot.cons (by decide) (by decide) fun _ _ => rfl

def pathKinds (segments : List (List Char)) : List TokenKind :=
  joinWith [.dot] (segments.map fun segment => [segmentKind segment])

theorem lexes_path {segment : List Char} {segments : List (List Char)}
    (h : IsSegment afterDot segment) (hs : ∀ s ∈ segments, IsSegment true s) :
    LexesFrom afterDot (joinWith ['.'] (segment :: segments)) (pathKinds (segment :: segments)) := by
  induction segments generalizing afterDot segment with
  | nil => exact lexes_segment h
  | cons segment' segments ih =>
    rw [List.forall_mem_cons] at hs
    have hrest := ih hs.1 hs.2
    have hdot : Lexes ('.' :: joinWith ['.'] (segment' :: segments))
        (.dot :: pathKinds (segment' :: segments)) := hrest.dot
    cases segment with
    | nil => cases h
    | cons c cs =>
      have hdot' : LexesFrom (segmentKind (c :: cs) = .dot)
          ('.' :: joinWith ['.'] (segment' :: segments)) (.dot :: pathKinds (segment' :: segments)) := by
        rw [decide_eq_false (segmentKind_ne_dot _)]
        exact hdot
      rw [joinWith_cons_cons, List.append_assoc]
      apply hdot'.cons h.isLead h.not_newline
      intro rest _
      apply scan_segment h
      intro d hd
      cases hd
      decide

end Lexer

end Delegation
