import Delegation.Proofs.Source.Placement

namespace Delegation

namespace TokenStream

/-- A token of a stream, or its end, which is of no kind. -/
structure Entry where
  kind : Option TokenKind
  lexeme : List Char
  position : Position

def entries (stream : TokenStream) : List Entry :=
  stream.tokens.map (fun t => ⟨some t.kind, t.lexeme, t.position⟩) ++ [⟨none, [], stream.stop⟩]

end TokenStream

namespace Lexer

/-- What may stand in front of some text between two lexemes: blanks, and a comment up to the end of its line. -/
inductive IsGap : List Char → List Char → Prop
  | nil {after} : IsGap [] after
  | blank {c gap after} : c = ' ' ∨ c = '\t' ∨ c = '\r' → IsGap gap after → IsGap (c :: gap) after
  | comment {line after} : '\n' ∉ line → (after = [] ∨ ∃ more, after = '\n' :: more) → IsGap ('#' :: line) after

theorem drop_line (text : List Char) : text.drop (text.takeWhile (· ≠ '\n')).length = [] ∨
    ∃ more, text.drop (text.takeWhile (· ≠ '\n')).length = '\n' :: more := by
  induction text with
  | nil => exact .inl rfl
  | cons c cs ih =>
    by_cases hc : c = '\n'
    · exact .inr ⟨cs, by rw [List.takeWhile_cons_of_neg (by simp [hc]), hc, List.length_nil, List.drop_zero]⟩
    · rw [List.takeWhile_cons_of_pos (by simp [hc]), List.length_cons, List.drop_succ_cons]
      exact ih

theorem isGap_gap (text : List Char) : IsGap (gap text) (text.drop (gap text).length) := by
  induction text with
  | nil => exact .nil
  | cons c cs ih =>
    rw [gap]
    split
    next hblank =>
      rw [isBlank, Bool.or_eq_true, Bool.or_eq_true, decide_eq_true_iff, decide_eq_true_iff,
        decide_eq_true_iff, or_assoc] at hblank
      exact .blank hblank ih
    next =>
      split
      next hcomment =>
        rw [hcomment, List.length_cons, List.drop_succ_cons]
        have hline : '\n' ∉ cs.takeWhile (· ≠ '\n') := by
          intro hmem
          exact absurd (List.all_eq_true.1 List.all_takeWhile '\n' hmem) (by decide)
        exact .comment hline (drop_line cs)
      next => exact .nil

structure Piece where
  gap : List Char
  entry : TokenStream.Entry

def Piece.text (p : Piece) : List Char := p.gap ++ p.entry.lexeme

def Piece.joined (ps : List Piece) : List Char := ps.flatMap Piece.text

/-- Pieces one after the other, of which the first stands at the given place. -/
def Laid (start : Position) : List Piece → Prop
  | [] => True
  | p :: ps => IsGap p.gap (p.entry.lexeme ++ Piece.joined ps) ∧ p.entry.position = start.after p.gap ∧
      Laid (start.after p.text) ps

theorem Laid.piece {start : Position} {front back : List Piece} {p : Piece} (h : Laid start (front ++ p :: back)) :
    IsGap p.gap (p.entry.lexeme ++ Piece.joined back) ∧
      p.entry.position = start.after (Piece.joined front ++ p.gap) := by
  induction front generalizing start with
  | nil => exact ⟨h.1, h.2.1⟩
  | cons q front ih =>
    obtain ⟨hgap, hplace⟩ := ih h.2.2
    refine ⟨hgap, hplace.trans ?_⟩
    rw [← Position.after_append, Piece.joined, Piece.joined, List.flatMap_cons, List.append_assoc]

def Scanned (t : Token) : Prop :=
  ∃ afterDot c cs more, scan afterDot c cs = .ok (t.kind, more) ∧ t.lexeme = c :: cs.take more

/-- The entries that are read are laid out in pieces that make up the text, and their tokens are scanned. -/
def LaysOut (start : Position) (text : List Char) : Except Fault TokenStream → Prop
  | .error _ => True
  | .ok stream =>
    (∃ ps, ps.map Piece.entry = stream.entries ∧ Piece.joined ps = text ∧ Laid start ps) ∧
      ∀ t ∈ stream.tokens, Scanned t

theorem LaysOut.prepend {start : Position} {before rest : List Char} {t : Token} {result : Except Fault TokenStream}
    (hgap : IsGap before (t.lexeme ++ rest)) (hplace : t.position = start.after before) (ht : Scanned t)
    (h : LaysOut (t.position.after t.lexeme) rest result) :
    LaysOut start (before ++ (t.lexeme ++ rest)) (result.map (·.prepend [t])) := by
  cases result with
  | error fault => trivial
  | ok stream =>
    obtain ⟨⟨ps, hentries, hjoined, hlaid⟩, hscanned⟩ := h
    refine ⟨⟨⟨before, some t.kind, t.lexeme, t.position⟩ :: ps, ?_, ?_, ?_, hplace, ?_⟩, ?_⟩
    · exact congrArg (_ :: ·) hentries
    · rw [Piece.joined, List.flatMap_cons, ← Piece.joined, Piece.text, List.append_assoc, hjoined]
    · rw [hjoined]
      exact hgap
    · rw [Piece.text, Position.after_append, ← hplace]
      exact hlaid
    · exact List.forall_mem_cons.2 ⟨ht, hscanned⟩

theorem laysOut_tokens (afterDot : Bool) (start : Position) (text : List Char) :
    LaysOut start text (tokens afterDot start text) := by
  induction afterDot, start, text using tokens.induct with
  | case1 afterDot start text blank hstop =>
    have hgap := List.prefix_iff_eq_append.1 <| gap_prefix text
    have hisGap := isGap_gap text
    rw [hstop] at hgap hisGap
    rw [tokens_eq, hstop]
    refine ⟨⟨[⟨gap text, none, [], start.after (gap text)⟩], rfl, ?_, hisGap, rfl, trivial⟩, nofun⟩
    exact (List.append_nil _).trans hgap
  | case2 afterDot start text blank c cs hsplit misread hmisread =>
    have hscan : scan (afterDot && (gap text).isEmpty) c cs = .error misread := hmisread
    rw [tokens_eq, hsplit]
    simp only [hscan]
    trivial
  | case3 afterDot start text blank here c cs hsplit kind more hread lexeme ih =>
    have hscan : scan (afterDot && (gap text).isEmpty) c cs = .ok (kind, more) := hread
    have hgap := List.prefix_iff_eq_append.1 <| gap_prefix text
    have hisGap := isGap_gap text
    have hlexeme : c :: cs = (c :: cs.take more) ++ cs.drop more := by
      rw [List.cons_append, List.take_append_drop]
    rw [hsplit, hlexeme] at hgap hisGap
    rw [tokens_eq, hsplit]
    simp only [hscan]
    have hlays := LaysOut.prepend (t := ⟨kind, c :: cs.take more, start.after (gap text)⟩) hisGap rfl
      ⟨_, c, cs, more, hscan, rfl⟩ ih
    rw [hgap] at hlays
    exact hlays

theorem laysOut_of_tokenize {source : String} {stream : TokenStream} (h : tokenize source = .ok stream) :
    LaysOut .start source.toList (.ok stream) := by
  rw [← h]
  exact laysOut_tokens ..

end Lexer

open Lexer

/-- A text that has tokens is their lexemes in order, with gaps of blanks and comments between them. Each entry
of the stream stands at its place, which is counted from the text before it; the last entry is the end of the
text, and no other is its end or empty. -/
theorem tokenize_lossless (source : String) (stream : TokenStream) (h : tokenize source = .ok stream) :
    (∃ ps : List Piece, ps.map Piece.entry = stream.entries ∧
        source.toList = ps.flatMap (fun p => p.gap ++ p.entry.lexeme) ∧
        ∀ front p back, ps = front ++ p :: back →
          IsGap p.gap (p.entry.lexeme ++ Piece.joined back) ∧
          p.entry.position = Position.following (Piece.joined front ++ p.gap)) ∧
      ∃ tokens, stream.entries = tokens ++ [⟨none, [], Position.following source.toList⟩] ∧
        ∀ e ∈ tokens, e.kind ≠ none ∧ e.lexeme ≠ [] := by
  obtain ⟨⟨ps, hentries, hjoined, hlaid⟩, hscanned⟩ := laysOut_of_tokenize h
  have hpieces : ∀ front p back, ps = front ++ p :: back →
      IsGap p.gap (p.entry.lexeme ++ Piece.joined back) ∧
        p.entry.position = Position.following (Piece.joined front ++ p.gap) := by
    rintro front p back rfl
    rw [← Position.start_after]
    exact hlaid.piece
  have hstop : stream.stop = Position.following source.toList := by
    obtain ⟨front, last, rfl, -, hlast⟩ := List.map_eq_append_iff.1 hentries
    obtain ⟨p, rfl, hp⟩ := List.map_eq_singleton_iff.1 hlast
    rw [← hjoined, Piece.joined, List.flatMap_append, List.flatMap_singleton, Piece.text, hp, List.append_nil]
    exact (congrArg TokenStream.Entry.position hp).symm.trans (hpieces front p [] rfl).2
  refine ⟨⟨ps, hentries, hjoined.symm, hpieces⟩, _, by rw [TokenStream.entries, hstop], ?_⟩
  intro e he
  obtain ⟨t, ht, rfl⟩ := List.mem_map.1 he
  obtain ⟨_, c, cs, more, -, hlexeme⟩ := hscanned t ht
  exact ⟨nofun, hlexeme ▸ List.cons_ne_nil _ _⟩

theorem tokenize_lossless_commentedLine :
    ∃ stream, tokenize "a # b\n <=" = .ok stream ∧
      stream.entries.map (fun e => (e.lexeme, e.position)) =
        [(['a'], ⟨1, 1⟩), (['\n'], ⟨1, 6⟩), (['<', '='], ⟨2, 2⟩), ([], ⟨2, 4⟩)] ∧
      ∃ ps : List Piece, ps.length = 4 ∧ "a # b\n <=".toList = ps.flatMap (fun p => p.gap ++ p.entry.lexeme) := by
  have hread : (tokenize "a # b\n <=").toOption.any (fun stream =>
      stream.entries.map (fun e => (e.lexeme, e.position)) =
        [(['a'], ⟨1, 1⟩), (['\n'], ⟨1, 6⟩), (['<', '='], ⟨2, 2⟩), ([], ⟨2, 4⟩)]) = true := by
    decide +kernel
  obtain ⟨stream, hstream, hplaces⟩ := exists_of_toOption_any hread
  obtain ⟨⟨ps, hentries, htext, -⟩, -⟩ := tokenize_lossless _ _ hstream
  have hlength := congrArg List.length (of_decide_eq_true hplaces)
  rw [List.length_map, ← hentries, List.length_map] at hlength
  exact ⟨stream, hstream, of_decide_eq_true hplaces, ps, hlength, htext⟩

end Delegation
