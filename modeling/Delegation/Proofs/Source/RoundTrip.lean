import Delegation.Config.Matchers
import Delegation.Proofs.Source.CanonicalGrammar
import Delegation.Proofs.Source.StatementReading
import Delegation.Source.Parse

namespace Delegation

open Lexer

namespace Statement

@[simp] theorem withoutLine_withLine (line : Nat) (s : Statement) :
    (s.withLine line).withoutLine = s.withoutLine := by
  cases s <;> rfl

@[simp] theorem line_withLine (line : Nat) (s : Statement) : (s.withLine line).line = line := by
  cases s <;> rfl

@[simp] theorem canonical_withLine (line : Nat) (s : Statement) :
    (s.withLine line).canonical = s.canonical := by
  cases s <;> rfl

def onLines (line : Nat) : List Statement → List Statement
  | [] => []
  | s :: ss => s.withLine line :: onLines (line + 1) ss

variable {ss : List Statement} {line : Nat}

theorem map_onLines {α : Type} (f : Statement → α) (hf : ∀ line s, f (s.withLine line) = f s) :
    (onLines line ss).map f = ss.map f := by
  induction ss generalizing line with
  | nil => rfl
  | cons s ss ih => rw [onLines, List.map_cons, List.map_cons, hf, ih]

theorem line_of_onLines {i : Nat} {s : Statement} (h : (onLines line ss)[i]? = some s) :
    s.line = line + i := by
  induction ss generalizing line i with
  | nil => cases h
  | cons s' ss ih =>
    cases i with
    | zero =>
      cases h
      exact line_withLine line s'
    | succ i =>
      have hline : s.line = line + 1 + i := ih h
      omega

theorem exists_of_mem_onLines {s : Statement} (h : s ∈ onLines line ss) :
    ∃ s' ∈ ss, ∃ line', s = s'.withLine line' := by
  induction ss generalizing line with
  | nil => cases h
  | cons s' ss ih =>
    rcases List.mem_cons.1 h with rfl | h
    · exact ⟨s', List.mem_cons_self, line, rfl⟩
    · obtain ⟨s'', hs'', line', hs⟩ := ih h
      exact ⟨s'', List.mem_cons_of_mem _ hs'', line', hs⟩

def canonicalLines (ss : List Statement) : List Char := ss.flatMap fun s => s.canonical ++ ['\n']

theorem canonicalLines_onLines : canonicalLines (onLines line ss) = canonicalLines ss := by
  have hmap : (onLines line ss).map (fun s => s.canonical ++ ['\n']) =
      ss.map fun s => s.canonical ++ ['\n'] :=
    map_onLines _ fun line s => by rw [canonical_withLine]
  exact congrArg List.flatten hmap

theorem canonicalLines_cons (s : Statement) (ss : List Statement) :
    canonicalLines (s :: ss) = s.canonical ++ '\n' :: canonicalLines ss := by
  rw [canonicalLines, List.flatMap_cons, List.append_assoc]
  rfl

theorem stops_newline (text : List Char) : Stops ('\n' :: text) := by
  intro c hc
  cases hc
  decide

theorem kinds_ne_nil (s : Statement) : s.kinds ≠ [] := by
  cases s <;> exact List.cons_ne_nil _ _

variable [Matchers]

@[simp] theorem fault?_withLine (line : Nat) (s : Statement) :
    (s.withLine line).fault? = s.fault? := by
  cases s <;> rfl

/-- The lines of legible statements are read as tokens that spell the statements line by line. -/
theorem exists_stream {options : ParseOptions} (line : Nat)
    (hlexes : ∀ s ∈ ss, Lexes s.canonical s.kinds)
    (hspells : ∀ s ∈ ss, ∀ line, Grammar.SpellsStatement options line s.kinds (s.withLine line)) :
    ∃ stream, tokens false ⟨line, 1⟩ (canonicalLines ss) = .ok stream ∧
      Grammar.SpellsDocument options stream.tokens (onLines line ss) := by
  induction ss generalizing line with
  | nil => exact ⟨_, tokens_nil _, .nil⟩
  | cons s ss ih =>
    rw [List.forall_mem_cons] at hlexes hspells
    obtain ⟨stream, hstream, hdocument⟩ := ih (line + 1) hlexes.2 hspells.2
    obtain ⟨toks, stop, hkinds, hlines, hstop, htokens⟩ :=
      hlexes.1 ('\n' :: canonicalLines ss) ⟨line, 1⟩ (stops_newline _)
    refine ⟨(stream.prepend [⟨.newline, ['\n'], stop⟩]).prepend toks, ?_, ?_⟩
    · rw [canonicalLines_cons, htokens, tokens_newline, hstop, hstream]
      rfl
    · refine .line ?_ rfl hdocument
      cases toks with
      | nil => exact absurd hkinds.symm s.kinds_ne_nil
      | cons t toks =>
        refine ⟨t, toks, rfl, ?_⟩
        rw [hkinds, hlines t List.mem_cons_self]
        exact hspells.1 line

end Statement

theorem exists_of_map_withoutLine {ss ss' : List Statement} {s : Statement}
    (hsame : ss'.map (·.withoutLine) = ss.map (·.withoutLine)) (hs : s ∈ ss) :
    ∃ t ∈ ss', t.withoutLine = s.withoutLine := by
  have hmem : s.withoutLine ∈ ss'.map (·.withoutLine) := hsame ▸ List.mem_map_of_mem hs
  exact List.mem_map.1 hmem

section

variable [Matchers]

/-- The tokens of a text that has a document spell its statements, and no others. -/
theorem TokenStream.parse_eq_ok {options : ParseOptions} {stream : TokenStream} {d : Document} :
    (stream.parse options).result = .ok d ↔
      Grammar.SpellsDocument options stream.tokens d.statements := by
  rw [← Grammar.statements_eq_ok, TokenStream.parse]
  constructor
  · intro h
    dsimp only at h
    split at h
    next => cases h
    next ss hss =>
      rw [hss]
      cases hd : Document.ofStatements ss with
      | error fault =>
        rw [hd] at h
        cases h
      | ok e =>
        rw [hd] at h
        cases h
        rw [Document.statements_of_ofStatements hd]
  · intro h
    dsimp only
    rw [h]
    dsimp only
    rw [Document.ofStatements_statements]
    rfl

theorem parse_eq_ok {options : ParseOptions} {source : String} {d : Document} :
    (parse options source).result = .ok d ↔ ∃ stream, tokenize source = .ok stream ∧
      Grammar.SpellsDocument options stream.tokens d.statements := by
  unfold parse
  cases hstream : tokenize source with
  | error fault =>
    constructor
    · exact nofun
    · rintro ⟨_, hnone, -⟩
      cases hnone
  | ok stream =>
    rw [TokenStream.parse_eq_ok]
    constructor
    · exact fun h => ⟨stream, rfl, h⟩
    · rintro ⟨_, hsome, h⟩
      cases hsome
      exact h

end

namespace Document

section

variable [Matchers] {options : ParseOptions} {source : String} {d : Document}

/-- The document as it is read from its canonical text, a statement a line. -/
def onLines (d : Document) : Document where
  statements := Statement.onLines 1 d.statements
  wellFormed := by
    intro s hs
    obtain ⟨s', hs', line, rfl⟩ := Statement.exists_of_mem_onLines hs
    rw [Statement.fault?_withLine]
    exact d.wellFormed s' hs'

theorem legible_of_parse (h : (parse options source).result = .ok d) :
    ∀ s ∈ d.statements, s.Legible options.cap := by
  obtain ⟨stream, hstream, hspells⟩ := parse_eq_ok.1 h
  exact Grammar.legible_of_spellsDocument hspells (lexed_of_tokens hstream)

/-- The canonical text of a legible document is read as the document. -/
theorem parse_canonical (hlegible : ∀ s ∈ d.statements, s.Legible options.cap)
    (hfinite : ∀ s ∈ d.statements, ∀ c, s.condition = some c → ∀ x ∈ c.numbers, x.IsFinite) :
    (parse options d.canonical).result = .ok d.onLines := by
  have hlexes : ∀ s ∈ d.statements, Lexes s.canonical s.kinds := by
    intro s hs
    have haction := Statement.action_fault?_eq_none (d.wellFormed s hs)
    exact s.lexes haction (hlegible s hs) (hfinite s hs)
  have hspells : ∀ s ∈ d.statements, ∀ line,
      Grammar.SpellsStatement options line s.kinds (s.withLine line) := by
    intro s hs line
    exact s.spells (d.wellFormed s hs) (hlegible s hs) line
  obtain ⟨stream, hstream, hdocument⟩ := Statement.exists_stream 1 hlexes hspells
  have htokens : tokenize d.canonical = .ok stream := by
    rw [tokenize, canonical, String.toList_ofList]
    exact hstream
  exact parse_eq_ok.2 ⟨stream, htokens, hdocument⟩

/-- Canonical text of a document that was read is read again: the statements are the same but for their
lines, which count up from one, and so is the canonical text. -/
theorem canonical_round_trip (h : (parse options source).result = .ok d)
    (hfinite : ∀ s ∈ d.statements, ∀ c, s.condition = some c → ∀ x ∈ c.numbers, x.IsFinite) :
    ∃ e, (parse options d.canonical).result = .ok e ∧
      e.statements.map (·.withoutLine) = d.statements.map (·.withoutLine) ∧
      (∀ i s, e.statements[i]? = some s → s.line = i + 1) ∧ e.canonical = d.canonical := by
  refine ⟨d.onLines, parse_canonical (legible_of_parse h) hfinite, ?_, ?_, ?_⟩
  · exact Statement.map_onLines _ Statement.withoutLine_withLine
  · intro i s hs
    have hline : s.line = 1 + i := Statement.line_of_onLines hs
    rw [hline, Nat.add_comm]
  · exact congrArg String.ofList Statement.canonicalLines_onLines

end

/-- Rules written otherwise than canonical text writes them: with needless parentheses and zeros, an
empty line, a period in a smaller unit and the standard severity. -/
def reportRules : String :=
  "permit file.read on '/reports/*' when (role = 'auditor' or not level in [1, 2.50])\n\n" ++
    "limit file.read 7 per 120 seconds severity high"

theorem canonical_round_trip_reportRules :
    ∃ d e, (parse {} reportRules).result = .ok d ∧
      (parse {} d.canonical).result = .ok e ∧
      e.statements.map (·.withoutLine) = d.statements.map (·.withoutLine) ∧
      (∀ i s, e.statements[i]? = some s → s.line = i + 1) ∧ e.canonical = d.canonical := by
  have hread : (parse {} reportRules).result.toOption.any (fun d => d.statements.all fun s =>
      s.condition.all fun c => c.numbers.all fun x => decide x.IsFinite) = true := by
    decide +kernel
  obtain ⟨d, hd, hnumbers⟩ := (Option.any_eq_true ..).1 hread
  have hparse : (parse {} reportRules).result = .ok d := by
    cases hresult : (parse {} reportRules).result with
    | error e =>
      rw [hresult] at hd
      cases hd
    | ok d' =>
      rw [hresult] at hd
      cases hd
      rfl
  have hfinite : ∀ s ∈ d.statements, ∀ c, s.condition = some c → ∀ x ∈ c.numbers, x.IsFinite := by
    intro s hs c hc x hx
    have hs' := List.all_eq_true.1 hnumbers s hs
    rw [hc] at hs'
    exact of_decide_eq_true (List.all_eq_true.1 hs' x hx)
  obtain ⟨e, he⟩ := canonical_round_trip hparse hfinite
  exact ⟨d, e, hparse, he⟩

example : (parse {} reportRules).result.toOption.map canonical =
    some ("permit file.read on '/reports/*' when role = 'auditor' or not level in [1, 2.5]\n" ++
      "limit file.read 7 per 2 minutes\n") := by
  decide +kernel

end Document

end Delegation
