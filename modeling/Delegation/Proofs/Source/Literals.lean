import Delegation.Proofs.Number.Text
import Delegation.Proofs.Source.Words
import Delegation.Text.Quoted

namespace Delegation

namespace Lexer

variable {afterDot : Bool} {c : Char} {cs rest : List Char} {more : Nat}

theorem escapeQuoted_cases (c : Char) :
    (escapeQuoted c = [c] ∧ c ≠ '\n' ∧ c ≠ '\'' ∧ c ≠ '\\') ∨
      ∃ e, escapeQuoted c = ['\\', e] ∧ unescape? e = some c ∧ e ≠ '\n' := by
  unfold escapeQuoted
  split
  · exact .inr ⟨_, rfl, rfl, by decide⟩
  · exact .inr ⟨_, rfl, rfl, by decide⟩
  · exact .inr ⟨_, rfl, rfl, by decide⟩
  · exact .inr ⟨_, rfl, rfl, by decide⟩
  · exact .inr ⟨_, rfl, rfl, by decide⟩
  next hslash hquote hline _ _ => exact .inl ⟨rfl, hline, hquote, hslash⟩

theorem newline_notMem_quote (s : List Char) : '\n' ∉ quote s := by
  have hbody : '\n' ∉ s.flatMap escapeQuoted := by
    rw [List.mem_flatMap]
    rintro ⟨c, -, hc⟩
    rcases escapeQuoted_cases c with ⟨he, hline, -, -⟩ | ⟨e, he, -, hline⟩
    · rw [he, List.mem_singleton] at hc
      exact hline hc.symm
    · rw [he] at hc
      rcases List.mem_cons.1 hc with hc | hc
      · exact absurd hc (by decide)
      · exact hline (List.mem_singleton.1 hc).symm
  rw [quote, List.mem_cons, List.mem_append, List.mem_singleton]
  rintro (h | h | h)
  · exact absurd h (by decide)
  · exact hbody h
  · exact absurd h (by decide)

theorem quoted_close (rest : List Char) (offset : Nat) :
    quoted '\'' offset ('\'' :: rest) = .ok ([], offset) := by
  rw [quoted.eq_def]
  dsimp only
  rw [if_neg (by decide), if_pos rfl]

theorem quoted_plain (hline : c ≠ '\n') (hquote : c ≠ '\'') (hslash : c ≠ '\\') (offset : Nat) :
    quoted '\'' offset (c :: cs) =
      (quoted '\'' (offset + 1) cs).map fun (ds, close) => (c :: ds, close) := by
  rw [quoted.eq_def]
  dsimp only
  rw [if_neg hline, if_neg hquote, if_neg hslash]

theorem quoted_escape {e : Char} (h : unescape? e = some c) (offset : Nat) :
    quoted '\'' offset ('\\' :: e :: cs) =
      (quoted '\'' (offset + 2) cs).map fun (ds, close) => (c :: ds, close) := by
  rw [quoted.eq_def]
  dsimp only
  rw [if_neg (by decide), if_neg (by decide), if_pos rfl, h]

theorem quoted_escaped (s rest : List Char) (offset : Nat) :
    quoted '\'' offset (s.flatMap escapeQuoted ++ '\'' :: rest) =
      .ok (s, offset + (s.flatMap escapeQuoted).length) := by
  induction s generalizing offset with
  | nil => exact quoted_close rest offset
  | cons c s ih =>
    rw [List.flatMap_cons, List.append_assoc]
    rcases escapeQuoted_cases c with ⟨he, hline, hquote, hslash⟩ | ⟨e, he, hunescape, -⟩
    · rw [he, List.cons_append, List.nil_append, quoted_plain hline hquote hslash, ih]
      simp only [Except.map, List.cons_append, List.nil_append, List.length_cons, Nat.add_comm 1,
        Nat.add_assoc]
    · rw [he, List.cons_append, List.cons_append, List.nil_append, quoted_escape hunescape, ih]
      simp only [Except.map, List.cons_append, List.nil_append, List.length_cons, Nat.add_comm 2,
        Nat.add_assoc]

theorem scan_quote (s rest : List Char) :
    scan false '\'' (s.flatMap escapeQuoted ++ ['\''] ++ rest) =
      .ok (.text (String.ofList s), (s.flatMap escapeQuoted ++ ['\'']).length) := by
  have hquoted := quoted_escaped s rest 1
  rw [List.append_assoc, List.cons_append, List.nil_append, List.length_append, List.length_singleton,
    Nat.add_comm]
  unfold scan
  simp only [true_or, if_true, hquoted]
  rfl

theorem lexes_quote (s : List Char) : Lexes (quote s) [.text (String.ofList s)] := by
  refine lexes_one (by decide) (newline_notMem_quote s) nofun ?_
  intro rest _
  exact scan_quote s rest

theorem Stops.ends_number (h : Stops rest) :
    ∀ d, rest.head? = some d → d.isDigit = false ∧ d ≠ '.' := by
  intro d hd
  have hmem := h d hd
  simp only [List.mem_cons, List.not_mem_nil, or_false] at hmem
  rcases hmem with rfl | rfl | rfl | rfl | rfl <;> decide

theorem fraction_pointed {digits : List Char} (h : ∀ d ∈ digits, d.isDigit = true)
    (hrest : ∀ d, rest.head? = some d → d.isDigit = false ∧ d ≠ '.') :
    fraction (pointed digits ++ rest) = digits := by
  rw [pointed]
  split
  next hnil =>
    rw [hnil, List.nil_append]
    unfold fraction
    split
    next => exact absurd rfl (hrest '.' rfl).2
    next => rfl
  next =>
    rw [List.cons_append]
    exact takeWhile_append_of_head h fun d hd => (hrest d hd).1

theorem length_pointed (digits : List Char) :
    (pointed digits).length = if digits.isEmpty then 0 else 1 + digits.length := by
  cases digits with
  | nil => rfl
  | cons d ds => exact (Nat.add_comm ..)

theorem length_literal (l : Literal) : l.text.length =
    if l.fraction.isEmpty then l.whole.length else l.whole.length + 1 + l.fraction.length := by
  rw [Literal.text, List.length_append, length_pointed]
  split
  · rfl
  · exact (Nat.add_assoc ..).symm

theorem number_literal (negative : Bool) (l : Literal)
    (hrest : ∀ d, rest.head? = some d → d.isDigit = false ∧ d ≠ '.') :
    number negative (l.text ++ rest) =
      (.number (Binary64.ofLiteral negative l.whole l.fraction), l.text.length) := by
  have hhead : ∀ d, (pointed l.fraction ++ rest).head? = some d → d.isDigit = false := by
    intro d hd
    rw [pointed] at hd
    split at hd
    next => exact (hrest d hd).1
    next =>
      cases hd
      decide
  have hwhole : (l.text ++ rest).takeWhile Char.isDigit = l.whole := by
    rw [Literal.text, List.append_assoc]
    exact takeWhile_append_of_head l.isDigit_whole hhead
  have hdrop : (l.text ++ rest).drop l.whole.length = pointed l.fraction ++ rest := by
    rw [Literal.text, List.append_assoc, List.drop_left]
  rw [number]
  simp only [hwhole, hdrop, fraction_pointed l.isDigit_fraction hrest]
  rw [length_literal]

theorem isWordPart_of_digit (h : c.isDigit = true) : isWordPart c = true := by
  rw [isWordPart, Char.isAlphanum, h, Bool.or_true, Bool.true_or, Bool.true_or]

theorem scan_digit (h : c.isDigit = true) : scan false c cs =
    .ok ((number false (c :: cs)).1, (number false (c :: cs)).2 - 1) := by
  unfold scan
  dsimp only
  split
  all_goals first | exact absurd h (by decide) | skip
  have hquote : ¬(c = '\'' ∨ c = '"') := by
    rintro (rfl | rfl) <;> exact absurd h (by decide)
  rw [if_neg hquote, if_pos (by rw [h]; rfl)]

theorem scan_minus (h : cs.head?.any Char.isDigit = true) :
    scan false '-' cs = .ok (number true cs) := by
  have hquote : ¬('-' = '\'' ∨ '-' = '"') := by decide
  have hdigit : '-'.isDigit = false := by decide
  unfold scan
  simp only [if_neg hquote, hdigit, h]
  rfl

theorem not_newline_of_literal (l : Literal) : '\n' ∉ l.text := by
  rw [Literal.text, List.mem_append, pointed]
  rintro (h | h)
  · exact absurd (l.isDigit_whole _ h) (by decide)
  · split at h
    · cases h
    · rcases List.mem_cons.1 h with h | h
      · exact absurd h (by decide)
      · exact absurd (l.isDigit_fraction _ h) (by decide)

theorem exists_digit (l : Literal) : ∃ c cs, l.text = c :: cs ∧ c.isDigit = true := by
  obtain ⟨whole, fraction, hne, hwhole, hfraction⟩ := l
  cases whole with
  | nil => exact absurd rfl hne
  | cons c cs => exact ⟨c, cs ++ pointed fraction, rfl, hwhole c List.mem_cons_self⟩

theorem number_ne_dot (x : Binary64) : TokenKind.number x ≠ .dot := nofun

theorem lexes_literal (l : Literal) (negative : Bool) :
    Lexes (Binary64.sign negative ++ l.text)
      [.number (Binary64.ofLiteral negative l.whole l.fraction)] := by
  obtain ⟨c, cs, htext, hdigit⟩ := exists_digit l
  have hline := not_newline_of_literal l
  cases negative with
  | false =>
    rw [Binary64.sign, if_neg Bool.false_ne_true, List.nil_append]
    rw [htext] at hline ⊢
    refine lexes_one (isLead_of_wordPart (isWordPart_of_digit hdigit)) hline (number_ne_dot _) ?_
    intro rest hrest
    rw [scan_digit hdigit, ← List.cons_append, ← htext, number_literal false l hrest.ends_number, htext]
    rfl
  | true =>
    rw [Binary64.sign, if_pos rfl, List.cons_append, List.nil_append]
    have hline' : '\n' ∉ '-' :: l.text := by
      rw [List.mem_cons, not_or]
      exact ⟨by decide, hline⟩
    refine lexes_one (by decide) hline' (number_ne_dot _) ?_
    intro rest hrest
    rw [scan_minus, number_literal true l hrest.ends_number]
    rw [htext, List.cons_append, List.head?_cons, Option.any_some, hdigit]

theorem lexes_number {x : Binary64} (h : x.IsFinite) : Lexes x.text [.number x] := by
  obtain ⟨l, htext, hvalue⟩ := x.exists_literal h
  have hlexes := lexes_literal l x.negative
  rw [hvalue] at hlexes
  rw [htext]
  exact hlexes

theorem isDigit_of_mem_fraction (h : c ∈ fraction rest) : c.isDigit = true := by
  unfold fraction at h
  split at h
  next => exact List.mem_takeWhile_imp h
  next => cases h

theorem starts_pointed_fraction (rest : List Char) : pointed (fraction rest) <+: rest := by
  by_cases hnil : fraction rest = []
  · rw [pointed, if_pos hnil]
    exact List.nil_prefix
  · rw [pointed, if_neg hnil]
    unfold fraction at hnil ⊢
    split at hnil
    next cs => exact (List.prefix_cons_inj '.').2 (List.takeWhile_prefix _)
    next => exact absurd rfl hnil

theorem exists_literal_of_number (negative : Bool) (cs : List Char) (hc : c.isDigit = true) :
    ∃ l : Literal, l.text <+: c :: cs ∧ number negative (c :: cs) =
      (.number (Binary64.ofLiteral negative l.whole l.fraction), l.text.length) := by
  have hwhole : (c :: cs).takeWhile Char.isDigit ≠ [] := by
    rw [List.takeWhile_cons_of_pos hc]
    exact List.cons_ne_nil _ _
  let l : Literal := ⟨(c :: cs).takeWhile Char.isDigit,
    fraction ((c :: cs).drop ((c :: cs).takeWhile Char.isDigit).length), hwhole,
    fun _ => List.mem_takeWhile_imp, fun _ => isDigit_of_mem_fraction⟩
  have hprefix : l.text <+: c :: cs := by
    rw [← List.prefix_iff_eq_append.1 (List.takeWhile_prefix (l := c :: cs) Char.isDigit)]
    exact (List.prefix_append_right_inj _).2 (starts_pointed_fraction _)
  refine ⟨l, hprefix, ?_⟩
  rw [length_literal]
  rfl

theorem wordKind_ne_number (cs : List Char) (x : Binary64) : wordKind cs ≠ .number x := by
  intro h
  rw [wordKind] at h
  split at h <;> cases h

/-- The lexeme of a number is a literal, and the number is what it is read as. -/
theorem exists_literal_of_scan {x : Binary64} (h : scan afterDot c cs = .ok (.number x, more)) :
    ∃ (negative : Bool) (l : Literal), x = Binary64.ofLiteral negative l.whole l.fraction ∧
      c :: cs.take more = Binary64.sign negative ++ l.text := by
  unfold scan at h
  dsimp only at h
  split at h
  all_goals try (cases h)
  all_goals try (split at h <;> cases h)
  split at h
  next =>
    cases hq : quoted c 1 cs with
    | error e =>
      rw [hq] at h
      cases h
    | ok q =>
      rw [hq] at h
      cases h
  next =>
    split at h
    next hdigit =>
      obtain ⟨l, hprefix, hnumber⟩ := exists_literal_of_number false cs (Bool.and_eq_true_iff.1 hdigit).1
      rw [hnumber] at h
      cases h
      refine ⟨false, l, rfl, ?_⟩
      obtain ⟨d, ds, htext, -⟩ := exists_digit l
      rw [htext] at hprefix ⊢
      obtain ⟨rfl, hds⟩ := List.cons_prefix_cons.1 hprefix
      exact congrArg (d :: ·) (List.prefix_iff_eq_take.1 hds).symm
    next =>
      split at h
      next hminus =>
        obtain ⟨hc, hhead⟩ := Bool.and_eq_true_iff.1 hminus
        cases cs with
        | nil => cases hhead
        | cons d ds =>
          obtain ⟨l, hprefix, hnumber⟩ := exists_literal_of_number true ds hhead
          rw [hnumber] at h
          cases h
          refine ⟨true, l, rfl, ?_⟩
          rw [of_decide_eq_true hc, ← List.prefix_iff_eq_take.1 hprefix]
          rfl
      next =>
        split at h
        next =>
          obtain ⟨hkind, -⟩ := Prod.mk.inj (Except.ok.inj h)
          exact absurd hkind (wordKind_ne_number _ x)
        next => cases h

def operatorKind (op : Operator) : TokenKind :=
  if op ∈ [.equal, .notEqual, .less, .greater, .atMost, .atLeast] then .operator op else .word op.text

theorem operator?_operatorKind (op : Operator) : Grammar.operator? (operatorKind op) = some op := by
  cases op <;> decide

theorem lexes_word (name : String) (h : IsSegment false name.toList)
    (hkind : segmentKind name.toList = .word name) : Lexes name.toList [.word name] := by
  rw [← hkind]
  exact lexes_segment h

theorem Stops.not_followedBy_equal (h : Stops rest) : (rest.head? == some '=') = false := by
  rw [Bool.eq_false_iff]
  intro hnext
  exact absurd (h '=' (beq_iff_eq.1 hnext)) (by decide)

theorem lexes_shorter {kind : TokenKind} {longer : TokenKind × Nat} (hlead : IsLead c)
    (hline : '\n' ∉ [c]) (hdot : kind ≠ .dot)
    (hscan : ∀ cs, scan false c cs = .ok (if cs.head? == some '=' then longer else (kind, 0))) :
    Lexes [c] [kind] := by
  apply lexes_one hlead hline hdot
  intro rest hrest
  rw [List.nil_append, hscan, hrest.not_followedBy_equal]
  rfl

theorem lexes_operator (op : Operator) : Lexes op.text.toList [operatorKind op] := by
  cases op with
  | equal => exact lexes_one (by decide) (by decide) nofun fun _ _ => rfl
  | notEqual => exact lexes_one (by decide) (by decide) nofun fun _ _ => rfl
  | less => exact lexes_shorter (by decide) (by decide) nofun fun _ => rfl
  | greater => exact lexes_shorter (by decide) (by decide) nofun fun _ => rfl
  | atMost => exact lexes_one (by decide) (by decide) nofun fun _ _ => rfl
  | atLeast => exact lexes_one (by decide) (by decide) nofun fun _ _ => rfl
  | oneOf => exact lexes_word "in" (by decide) rfl
  | noneOf => exact lexes_word "not_in" (by decide) rfl
  | contains => exact lexes_word "contains" (by decide) rfl
  | lacks => exact lexes_word "not_contains" (by decide) rfl
  | startsWith => exact lexes_word "starts_with" (by decide) rfl
  | endsWith => exact lexes_word "ends_with" (by decide) rfl
  | matchesRegex => exact lexes_word "matches" (by decide) rfl

end Lexer

end Delegation
