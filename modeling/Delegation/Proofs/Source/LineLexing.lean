import Delegation.Proofs.Source.Placement

namespace Delegation

namespace Position

def down (n : Nat) (p : Position) : Position := ⟨p.line + n, p.column⟩

theorem next_down (n : Nat) (p : Position) (c : Char) : (p.down n).next c = (p.next c).down n := by
  by_cases hc : c = '\n'
  · simp only [next, down, if_pos hc, Nat.add_right_comm]
  · simp only [next, down, if_neg hc]

theorem after_down (n : Nat) (p : Position) (text : List Char) :
    (p.down n).after text = (p.after text).down n := by
  induction text generalizing p with
  | nil => rfl
  | cons c text ih => exact (congrArg (·.after text) (next_down n p c)).trans (ih (p.next c))

theorem next_start_after (text : List Char) :
    (start.after text).next '\n' = start.down (1 + text.count '\n') := by
  have hline : (start.after text).line = text.count '\n' + 1 := by rw [start_after, following]
  rw [next, if_pos rfl, hline, Nat.add_comm, Nat.add_comm (text.count '\n')]
  rfl

end Position

def Token.down (n : Nat) (t : Token) : Token := { t with position := t.position.down n }

def Token.lineEnd (p : Position) : Token := ⟨.newline, ['\n'], p⟩

def TokenStream.down (n : Nat) (stream : TokenStream) : TokenStream :=
  ⟨stream.tokens.map (·.down n), stream.stop.down n⟩

namespace Lexer

variable {afterDot : Bool} {start : Position} {c : Char} {cs rest text : List Char} {n : Nat}

def Fault.down (n : Nat) (fault : Fault) : Fault := { fault with position := fault.position.down n }

theorem takeWhile_line {p : Char → Bool} (hp : p '\n' = false) (cs rest : List Char) :
    (cs ++ '\n' :: rest).takeWhile p = cs.takeWhile p := by
  induction cs with
  | nil => exact List.takeWhile_cons_of_neg (ne_true_of_eq_false hp)
  | cons c cs ih => rw [List.cons_append, List.takeWhile_cons, List.takeWhile_cons, ih]

theorem gap_line (text rest : List Char) : gap (text ++ '\n' :: rest) = gap text := by
  induction text with
  | nil => rfl
  | cons c cs ih => rw [List.cons_append, gap, gap, ih, takeWhile_line (decide_eq_false (· rfl))]

/-- A text that is open at the end of its line is not closed on the next. -/
theorem quoted_line (quote : Char) (offset : Nat) (cs rest : List Char) :
    quoted quote offset (cs ++ '\n' :: rest) = quoted quote offset cs := by
  fun_induction quoted quote offset cs with
  | case1 =>
    rw [List.nil_append, quoted.eq_def]
    rfl
  | case2 offset cs =>
    rw [List.cons_append, quoted.eq_def]
    rfl
  | case3 offset cs hline =>
    rw [List.cons_append, quoted.eq_def]
    simp only [if_neg hline, if_true]
  | case4 offset hline hquote =>
    rw [List.cons_append, List.nil_append, quoted.eq_def]
    simp only [if_neg hline, if_neg hquote, if_true]
    rfl
  | case5 offset e cs d hescape hline hquote ih =>
    rw [List.cons_append, List.cons_append, quoted.eq_def]
    simp only [if_neg hline, if_neg hquote, if_true, hescape, ih]
  | case6 offset e cs hescape hline hquote =>
    rw [List.cons_append, List.cons_append, quoted.eq_def]
    simp only [if_neg hline, if_neg hquote, if_true, hescape]
  | case7 offset c cs hline hquote hslash ih =>
    rw [List.cons_append, quoted.eq_def]
    simp only [if_neg hline, if_neg hquote, if_neg hslash, ih]

theorem fraction_line (cs rest : List Char) : fraction (cs ++ '\n' :: rest) = fraction cs := by
  unfold fraction
  split
  next cs' h =>
    cases cs with
    | nil => cases h
    | cons c cs =>
      cases h
      exact takeWhile_line rfl cs rest
  next h =>
    split
    next cs' => exact absurd rfl (h _)
    next => rfl

theorem number_line (negative : Bool) (cs rest : List Char) :
    number negative (cs ++ '\n' :: rest) = number negative cs := by
  have hle : (cs.takeWhile Char.isDigit).length ≤ cs.length := (List.takeWhile_sublist _).length_le
  rw [number, number, takeWhile_line rfl, List.drop_append_of_le_length hle, fraction_line]

theorem head?_line {d : Char} (hd : d ≠ '\n') (cs rest : List Char) :
    ((cs ++ '\n' :: rest).head? == some d) = (cs.head? == some d) := by
  cases cs with
  | nil => exact beq_false_of_ne fun h => hd (Option.some.inj h).symm
  | cons => rfl

/-- What a lexeme is does not depend on the next line. -/
theorem scan_line (afterDot : Bool) (c : Char) (cs rest : List Char) :
    scan afterDot c (cs ++ '\n' :: rest) = scan afterDot c cs := by
  have hdigit : (cs ++ '\n' :: rest).head?.any Char.isDigit = cs.head?.any Char.isDigit := by
    cases cs <;> rfl
  have hnumber := number_line false (c :: cs) rest
  rw [List.cons_append] at hnumber
  simp only [scan, head?_line (show '*' ≠ '\n' by decide), head?_line (show '=' ≠ '\n' by decide), hdigit,
    hnumber, number_line, quoted_line, takeWhile_line (show isWordPart '\n' = false by decide)]

/-- What is read, or the place of a misreading, is within some length. -/
def Bounded {α : Type} (n : Nat) : Except Misread (α × Nat) → Prop
  | .ok (_, length) => length ≤ n
  | .error misread => misread.offset ≤ n

theorem Bounded.map {α β : Type} {result : Except Misread (α × Nat)} (h : Bounded n result) (f : α → β) :
    Bounded n (result.map fun (a, length) => (f a, length)) := by
  cases result <;> exact h

theorem bounded_quoted (quote : Char) {offset : Nat} (h : offset + cs.length ≤ n + 1) :
    Bounded n (quoted quote offset cs) := by
  fun_induction quoted quote offset cs with
  | case1 | case2 | case4 => exact Nat.zero_le n
  | case3 offset cs =>
    rw [List.length_cons] at h
    show offset ≤ n
    omega
  | case5 offset e cs d hescape hline hquote ih =>
    rw [List.length_cons, List.length_cons] at h
    exact (ih (by omega)).map _
  | case6 offset e cs =>
    rw [List.length_cons, List.length_cons] at h
    split
    · exact Nat.zero_le n
    · show offset ≤ n
      omega
  | case7 offset c cs _ _ _ ih =>
    rw [List.length_cons] at h
    exact (ih (by omega)).map _

theorem length_pos_of_head? {d : Char} (h : (cs.head? == some d) = true) : 1 ≤ cs.length := by
  cases cs with
  | nil => cases h
  | cons => exact Nat.succ_pos _

theorem bounded_symbol (d : Char) (long short : TokenKind) :
    Bounded cs.length (.ok (if cs.head? == some d then (long, 1) else (short, 0))) := by
  split
  next hd => exact length_pos_of_head? hd
  next => exact Nat.zero_le _

theorem length_fraction_lt (h : (fraction cs).isEmpty = false) : (fraction cs).length < cs.length := by
  unfold fraction at *
  split at *
  next cs' => exact Nat.lt_succ_of_le (List.takeWhile_sublist _).length_le
  next => cases h

theorem length_number_le (negative : Bool) (cs : List Char) : (number negative cs).2 ≤ cs.length := by
  have hwhole : (cs.takeWhile Char.isDigit).length ≤ cs.length := (List.takeWhile_sublist _).length_le
  unfold number
  dsimp only
  split
  next => exact hwhole
  next hfraction =>
    have hlt := length_fraction_lt (Bool.eq_false_iff.2 hfraction)
    rw [List.length_drop] at hlt
    omega

theorem bounded_scan (afterDot : Bool) (c : Char) (cs : List Char) :
    Bounded cs.length (scan afterDot c cs) := by
  unfold scan
  dsimp only
  split
  case h_1 | h_3 | h_4 | h_5 | h_6 | h_7 | h_8 | h_9 => exact Nat.zero_le _
  case h_2 | h_11 | h_12 => exact bounded_symbol ..
  case h_10 =>
    split
    next hd => exact length_pos_of_head? hd
    next => exact Nat.zero_le _
  case h_13 =>
    split
    next =>
      have hquoted : Bounded cs.length (quoted c 1 cs) := bounded_quoted c (Nat.le_of_eq (Nat.add_comm 1 _))
      exact hquoted.map fun value => TokenKind.text (String.ofList value)
    next =>
      split
      next => exact Nat.sub_le_of_le_add (length_number_le false (c :: cs))
      next =>
        split
        next => exact length_number_le true cs
        next =>
          split
          next => exact (List.takeWhile_sublist _).length_le
          next => exact Nat.zero_le _

theorem map_prepend_prepend (xs ys : List Token) (result : Except Fault TokenStream) :
    (result.map (·.prepend ys)).map (·.prepend xs) = result.map (·.prepend (xs ++ ys)) := by
  cases result with
  | error fault => rfl
  | ok stream => exact congrArg Except.ok (TokenStream.prepend_prepend ..)

/-- The tokens of a line, then its end, then those of what follows; a fault in the line is one of the whole. -/
theorem tokens_line (afterDot : Bool) (start : Position) (text rest : List Char) :
    tokens afterDot start (text ++ '\n' :: rest) = (tokens afterDot start text).bind fun stream =>
      (tokens false ((start.after text).next '\n') rest).map
        (·.prepend (stream.tokens ++ [.lineEnd (start.after text)])) := by
  have hlead : ∀ text, gap text <+: text := gap_prefix
  have hdrop : ∀ text, (text ++ '\n' :: rest).drop (gap text).length =
      text.drop (gap text).length ++ '\n' :: rest := fun text =>
    List.drop_append_of_le_length (hlead text).length_le
  have hafter : ∀ start text, Position.after start text =
      (start.after (gap text)).after (text.drop (gap text).length) := by
    intro start text
    rw [← Position.after_append, List.prefix_iff_eq_append.1 (hlead text)]
  induction afterDot, start, text using tokens.induct with
  | case1 afterDot start text blank hstop =>
    rw [hafter start text, tokens_eq, tokens_eq afterDot start text, gap_line, hdrop, hstop]
    rfl
  | case2 afterDot start text blank c cs hsplit misread hmisread =>
    have hscan : scan (afterDot && (gap text).isEmpty) c cs = .error misread := hmisread
    have hbound := bounded_scan (afterDot && (gap text).isEmpty) c cs
    rw [hscan] at hbound
    have hle : misread.offset ≤ (c :: cs).length := Nat.le_succ_of_le hbound
    rw [tokens_eq, tokens_eq afterDot start text, gap_line, hdrop, hsplit]
    simp only [List.cons_append, scan_line, hscan]
    rw [← List.cons_append, List.take_append_of_le_length hle]
    rfl
  | case3 afterDot start text blank here c cs hsplit kind more hread lexeme ih =>
    have hscan : scan (afterDot && (gap text).isEmpty) c cs = .ok (kind, more) := hread
    have hbound := bounded_scan (afterDot && (gap text).isEmpty) c cs
    rw [hscan] at hbound
    have hlexeme : c :: cs = (c :: cs.take more) ++ cs.drop more := by
      rw [List.cons_append, List.take_append_drop]
    rw [hafter start text, tokens_eq, tokens_eq afterDot start text, gap_line, hdrop, hsplit]
    simp only [List.cons_append, scan_line, hscan]
    rw [List.take_append_of_le_length hbound, List.drop_append_of_le_length hbound, ih, hlexeme,
      Position.after_append]
    cases tokens (kind = .dot) ((start.after (gap text)).after (c :: cs.take more)) (cs.drop more) with
    | error fault => rfl
    | ok stream => exact map_prepend_prepend ..

theorem tokens_down (n : Nat) (afterDot : Bool) (start : Position) (text : List Char) :
    tokens afterDot (start.down n) text =
      ((tokens afterDot start text).map (·.down n)).mapError (·.down n) := by
  induction afterDot, start, text using tokens.induct with
  | case1 afterDot start text blank hstop =>
    rw [tokens_eq, tokens_eq afterDot start text, hstop, Position.after_down]
    rfl
  | case2 afterDot start text blank c cs hsplit misread hmisread =>
    have hscan : scan (afterDot && (gap text).isEmpty) c cs = .error misread := hmisread
    rw [tokens_eq, tokens_eq afterDot start text, hsplit, Position.after_down]
    simp only [hscan, Position.after_down]
    rfl
  | case3 afterDot start text blank here c cs hsplit kind more hread lexeme ih =>
    have hscan : scan (afterDot && (gap text).isEmpty) c cs = .ok (kind, more) := hread
    rw [tokens_eq, tokens_eq afterDot start text, hsplit, Position.after_down]
    simp only [hscan, Position.after_down]
    rw [ih]
    cases tokens (kind = .dot) ((start.after (gap text)).after (c :: cs.take more)) (cs.drop more) <;> rfl

end Lexer

theorem tokenize_lines {s₁ s₂ : String} {stream : TokenStream} :
    tokenize (s₁ ++ "\n" ++ s₂) = .ok stream ↔ ∃ stream₁ stream₂, tokenize s₁ = .ok stream₁ ∧
      tokenize s₂ = .ok stream₂ ∧ stream = (stream₂.down (1 + s₁.toList.count '\n')).prepend
        (stream₁.tokens ++ [.lineEnd (Position.start.after s₁.toList)]) := by
  have htext : (s₁ ++ "\n" ++ s₂).toList = s₁.toList ++ '\n' :: s₂.toList := by simp
  rw [tokenize, tokenize, tokenize, htext, Lexer.tokens_line, Position.next_start_after,
    Lexer.tokens_down]
  constructor
  · intro h
    cases h₁ : Lexer.tokens false .start s₁.toList with
    | error fault =>
      rw [h₁] at h
      cases h
    | ok stream₁ =>
      cases h₂ : Lexer.tokens false .start s₂.toList with
      | error fault =>
        rw [h₁, h₂] at h
        cases h
      | ok stream₂ =>
        rw [h₁, h₂] at h
        cases h
        exact ⟨stream₁, stream₂, rfl, rfl, rfl⟩
  · rintro ⟨stream₁, stream₂, h₁, h₂, rfl⟩
    rw [h₁, h₂]
    rfl

end Delegation
