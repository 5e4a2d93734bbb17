import Delegation.Source.Lexer
import Delegation.Proofs.Source.Derivation

namespace Delegation

namespace Position

theorem line_next {c : Char} (p : Position) (h : c ≠ '\n') : (p.next c).line = p.line := by
  rw [next, if_neg h]

theorem line_after {text : List Char} (p : Position) (h : '\n' ∉ text) :
    (p.after text).line = p.line := by
  induction text generalizing p with
  | nil => rfl
  | cons c cs ih =>
    rw [List.mem_cons, not_or] at h
    exact (ih (p.next c) h.2).trans (p.line_next (Ne.symm h.1))

end Position

theorem exists_of_toOption_any {ε α : Type} {result : Except ε α} {p : α → Bool}
    (h : result.toOption.any p = true) : ∃ a, result = .ok a ∧ p a = true := by
  cases result with
  | error e => cases h
  | ok a => exact ⟨a, rfl, h⟩

def TokenStream.prepend (tokens : List Token) (stream : TokenStream) : TokenStream :=
  { stream with tokens := tokens ++ stream.tokens }

theorem TokenStream.prepend_prepend (xs ys : List Token) (stream : TokenStream) :
    (stream.prepend ys).prepend xs = stream.prepend (xs ++ ys) := by
  simp only [prepend, List.append_assoc]

namespace Lexer

variable {afterDot : Bool} {start : Position} {c : Char} {cs text rest : List Char}
  {kind : TokenKind} {ks ls : List TokenKind} {more : Nat}

theorem tokens_eq (afterDot : Bool) (start : Position) (text : List Char) :
    tokens afterDot start text =
      match text.drop (gap text).length with
      | [] => .ok ⟨[], start.after (gap text)⟩
      | c :: cs =>
        match scan (afterDot && (gap text).isEmpty) c cs with
        | .error misread =>
          .error ⟨misread.fault, (start.after (gap text)).after ((c :: cs).take misread.offset)⟩
        | .ok (kind, more) =>
          (tokens (kind = .dot) ((start.after (gap text)).after (c :: cs.take more))
            (cs.drop more)).map (·.prepend [⟨kind, c :: cs.take more, start.after (gap text)⟩]) := by
  rw [tokens]
  dsimp only
  split
  next h =>
    rw [h]
  next c cs h =>
    rw [h]
    rfl

/-- No blank and no comment starts with the character. -/
def IsLead (c : Char) : Prop := isBlank c = false ∧ c ≠ '#'

instance (c : Char) : Decidable (IsLead c) := inferInstanceAs (Decidable (_ ∧ _))

theorem gap_of_lead (h : IsLead c) : gap (c :: cs) = [] := by
  rw [gap, h.1, if_neg Bool.false_ne_true, if_neg h.2]

theorem tokens_of_scan (hlead : IsLead c) (h : scan afterDot c cs = .ok (kind, more)) :
    tokens afterDot start (c :: cs) =
      (tokens (kind = .dot) (start.after (c :: cs.take more)) (cs.drop more)).map
        (·.prepend [⟨kind, c :: cs.take more, start⟩]) := by
  rw [tokens_eq, gap_of_lead hlead]
  simp only [List.length_nil, List.drop_zero, List.isEmpty_nil, Bool.and_true, h]
  rfl

theorem tokens_space : tokens false start (' ' :: cs) = tokens false (start.next ' ') cs := by
  have hgap : gap (' ' :: cs) = ' ' :: gap cs := rfl
  rw [tokens_eq, tokens_eq false _ cs, hgap]
  simp only [List.length_cons, List.drop_succ_cons, Bool.false_and]
  rfl

theorem tokens_newline : tokens false start ('\n' :: cs) =
    (tokens false ⟨start.line + 1, 1⟩ cs).map (·.prepend [⟨.newline, ['\n'], start⟩]) := by
  have hlead : IsLead '\n' := by decide
  exact tokens_of_scan hlead rfl

theorem tokens_nil (start : Position) : tokens afterDot start [] = .ok ⟨[], start⟩ := by
  rw [tokens_eq]
  rfl

/-- What may follow a word, a number or an operator without being taken for a part of it. -/
def Stops (rest : List Char) : Prop := ∀ c, rest.head? = some c → c ∈ [' ', ',', ']', ')', '\n']

def Parted (text : List Char) : Prop := ∀ rest, Stops rest → Stops (text ++ rest)

theorem parted_cons (h : c ∈ [' ', ',', ']', ')', '\n']) : Parted (c :: cs) := by
  intro rest _ c' hc'
  cases hc'
  exact h

theorem parted_nil : Parted [] := fun _ h => h

/-- The text is read as tokens of the given kinds, on the line where it starts. -/
def LexesFrom (afterDot : Bool) (text : List Char) (ks : List TokenKind) : Prop :=
  ∀ rest start, Stops rest → ∃ toks stop, kinds toks = ks ∧
    (∀ t ∈ toks, t.position.line = start.line) ∧ stop.line = start.line ∧
    tokens afterDot start (text ++ rest) = (tokens false stop rest).map (·.prepend toks)

def Lexes (text : List Char) (ks : List TokenKind) : Prop := LexesFrom false text ks

theorem lexes_nil : Lexes [] [] := by
  intro rest start _
  refine ⟨[], start, rfl, nofun, rfl, ?_⟩
  rw [List.nil_append]
  cases tokens false start rest <;> rfl

theorem LexesFrom.cons (hlead : IsLead c) (hline : '\n' ∉ c :: cs)
    (hscan : ∀ rest, Stops rest → scan afterDot c (cs ++ (text ++ rest)) = .ok (kind, cs.length))
    (h : LexesFrom (kind = .dot) text ks) : LexesFrom afterDot (c :: cs ++ text) (kind :: ks) := by
  intro rest start hrest
  obtain ⟨toks, stop, hks, hlines, hstop, htokens⟩ := h rest (start.after (c :: cs)) hrest
  rw [start.line_after hline] at hlines hstop
  refine ⟨⟨kind, c :: cs, start⟩ :: toks, stop, congrArg (kind :: ·) hks, ?_, hstop, ?_⟩
  · intro t ht
    rcases List.mem_cons.1 ht with rfl | ht
    · rfl
    · exact hlines t ht
  · rw [List.append_assoc, List.cons_append, tokens_of_scan hlead (hscan rest hrest), List.take_left,
      List.drop_left, htokens]
    cases tokens false stop rest with
    | error e => rfl
    | ok stream => exact congrArg Except.ok (TokenStream.prepend_prepend ..)

theorem LexesFrom.append (h : LexesFrom afterDot text ks) {text' : List Char} (h' : Lexes text' ls)
    (hparted : Parted text') : LexesFrom afterDot (text ++ text') (ks ++ ls) := by
  intro rest start hrest
  obtain ⟨toks, stop, hks, hlines, hstop, htokens⟩ := h (text' ++ rest) start (hparted rest hrest)
  obtain ⟨toks', stop', hls, hlines', hstop', htokens'⟩ := h' rest stop hrest
  rw [hstop] at hlines' hstop'
  refine ⟨toks ++ toks', stop', ?_, ?_, hstop', ?_⟩
  · rw [← hks, ← hls]
    exact List.map_append
  · intro t ht
    rcases List.mem_append.1 ht with ht | ht
    · exact hlines t ht
    · exact hlines' t ht
  · rw [List.append_assoc, htokens, htokens']
    cases tokens false stop' rest with
    | error e => rfl
    | ok stream => exact congrArg Except.ok (TokenStream.prepend_prepend ..)

theorem Lexes.space (h : Lexes text ks) : Lexes (' ' :: text) ks := by
  intro rest start hrest
  obtain ⟨toks, stop, hks, hlines, hstop, htokens⟩ := h rest (start.next ' ') hrest
  rw [start.line_next (by decide)] at hlines hstop
  refine ⟨toks, stop, hks, hlines, hstop, ?_⟩
  rw [List.cons_append, tokens_space, htokens]

theorem lexes_one (hlead : IsLead c) (hline : '\n' ∉ c :: cs) (hdot : kind ≠ .dot)
    (hscan : ∀ rest, Stops rest → scan afterDot c (cs ++ rest) = .ok (kind, cs.length)) :
    LexesFrom afterDot (c :: cs) [kind] := by
  have hnil : LexesFrom (kind = .dot) [] [] := by
    rw [decide_eq_false hdot]
    exact lexes_nil
  have h := hnil.cons hlead hline hscan
  rwa [List.append_nil] at h

structure IsSymbol (c : Char) (kind : TokenKind) : Prop where
  lead : IsLead c
  line : '\n' ∉ [c]
  dot : kind ≠ .dot
  scan_eq : ∀ cs, scan false c cs = .ok (kind, 0)

theorem isSymbol_comma : IsSymbol ',' .comma := ⟨by decide, by decide, nofun, fun _ => rfl⟩

theorem isSymbol_openBracket : IsSymbol '[' .openBracket :=
  ⟨by decide, by decide, nofun, fun _ => rfl⟩

theorem isSymbol_closeBracket : IsSymbol ']' .closeBracket :=
  ⟨by decide, by decide, nofun, fun _ => rfl⟩

theorem isSymbol_openParen : IsSymbol '(' .openParen := ⟨by decide, by decide, nofun, fun _ => rfl⟩

theorem isSymbol_closeParen : IsSymbol ')' .closeParen :=
  ⟨by decide, by decide, nofun, fun _ => rfl⟩

theorem Lexes.symbol (h : Lexes text ks) (hc : IsSymbol c kind) :
    Lexes (c :: text) (kind :: ks) := by
  have h' : LexesFrom (kind = .dot) text ks := by
    rw [decide_eq_false hc.dot]
    exact h
  apply h'.cons hc.lead hc.line
  intro rest _
  exact hc.scan_eq (text ++ rest)

theorem Lexes.enclosed {left right : Char} {leftKind rightKind : TokenKind} (h : Lexes text ks)
    (hleft : IsSymbol left leftKind) (hright : IsSymbol right rightKind)
    (hparted : right ∈ [' ', ',', ']', ')', '\n']) :
    Lexes (left :: (text ++ [right])) (leftKind :: (ks ++ [rightKind])) := by
  have hclose : Lexes [right] [rightKind] := lexes_nil.symbol hright
  have hinner := h.append hclose (parted_cons hparted)
  exact Lexes.symbol hinner hleft

end Lexer

end Delegation
