import Delegation.Proofs.Source.CanonicalTokens
import Delegation.Proofs.Source.Reading

namespace Delegation

theorem Value.exists_of_mem_numbersAll {vs : List Value} {x : Binary64} (h : x ∈ numbersAll vs) :
    ∃ v ∈ vs, x ∈ v.numbers := by
  induction vs with
  | nil => cases h
  | cons v vs ih =>
    rcases List.mem_append.1 h with h | h
    · exact ⟨v, List.mem_cons_self, h⟩
    · obtain ⟨w, hw, hx⟩ := ih h
      exact ⟨w, List.mem_cons_of_mem _ hw, hx⟩

def Condition.NumbersIn (c : Condition) (ks : List TokenKind) : Prop := ∀ x ∈ c.numbers, .number x ∈ ks

namespace Grammar

variable {k : TokenKind} {ks : List TokenKind} {n : Nat} {v : Value} {c : Condition} {x : Binary64}

theorem hereditary_number : Hereditary fun ks (x : Binary64) => .number x ∈ ks where
  left h := List.mem_append_left _ h
  right _ _ h := List.mem_append_right _ (List.mem_cons_of_mem _ h)

theorem eq_number_of_scalar? (h : scalar? k = some v) (hx : x ∈ v.numbers) : k = .number x := by
  unfold scalar? at h
  split at h <;> cases h
  case h_2 => rw [List.mem_singleton.1 hx]
  all_goals cases hx

theorem number_mem_of_value (h : SpellsValue n ks v) : ∀ x ∈ v.numbers, .number x ∈ ks := by
  induction n generalizing ks v with
  | zero =>
    obtain ⟨k, rfl, hk⟩ := h
    intro x hx
    rw [eq_number_of_scalar? hk hx]
    exact List.mem_cons_self
  | succ n ih =>
    rcases h with ⟨k, rfl, hk⟩ | ⟨inner, items, rfl, rfl, hitems⟩
    · intro x hx
      rw [eq_number_of_scalar? hk hx]
      exact List.mem_cons_self
    · intro x hx
      obtain ⟨item, hitem, hx⟩ := Value.exists_of_mem_numbersAll hx
      have hparts := hereditary_number.forall Value.numbers
      have hinner := hparts.of_separated hitems nofun (fun _ _ h => ih h) item hitem x hx
      exact List.mem_cons_of_mem _ (List.mem_append_left _ hinner)

variable [Matchers]

theorem numbersIn_of_condition (h : SpellsCondition n ks c) : c.NumbersIn ks := by
  have hcomparison : ∀ n ks c, SpellsComparison n ks c →
      ∀ x ∈ c.comparisons, ∀ y ∈ x.2.2.numbers, .number y ∈ ks := by
    rintro n _ _ ⟨fs, k, vs, field, op, v, rfl, rfl, -, -, hv, -⟩ x hx y hy
    rw [List.mem_singleton.1 hx] at hy
    exact List.mem_append_right _ (List.mem_cons_of_mem _ (number_mem_of_value hv y hy))
  intro y hy
  obtain ⟨x, hx, hy⟩ := List.mem_flatMap.1 hy
  exact (hereditary_number.forall (·.2.2.numbers)).of_condition hcomparison h x hx y hy

theorem numbersIn_of_statement {options : ParseOptions} {line : Nat} {s : Statement}
    (h : SpellsStatement options line ks s) (hc : s.condition = some c) : c.NumbersIn ks := by
  cases s with
  | limit r => cases hc
  | access kind r =>
    obtain ⟨k, body, rfl, -, as, rs, ws, ss, rfl, -, -, hwhen, -, -⟩ := h
    rcases hwhen with ⟨-, hnone⟩ | ⟨inner, c', rfl, hsome, hspells⟩
    · rw [Statement.condition, hnone] at hc
      cases hc
    · rw [Statement.condition, hsome] at hc
      cases hc
      intro x hx
      have hinner := numbersIn_of_condition hspells x hx
      simp only [List.mem_cons, List.mem_append, hinner, true_or, or_true]

/-- The numbers of a document are number tokens of what it was read from. -/
theorem numbersIn_of_document {options : ParseOptions} {tokens : List Token}
    {statements : List Statement} (h : SpellsDocument options tokens statements) {s : Statement}
    (hs : s ∈ statements) (hc : s.condition = some c) : c.NumbersIn (kinds tokens) := by
  induction h with
  | nil => cases hs
  | newline _ _ ih =>
    intro x hx
    exact List.mem_cons_of_mem _ (ih hs x hx)
  | last hline =>
    obtain ⟨t, rest, rfl, hspells⟩ := hline
    rw [List.mem_singleton.1 hs] at hc
    exact numbersIn_of_statement hspells hc
  | line hline _ _ ih =>
    obtain ⟨t, rest, rfl, hspells⟩ := hline
    intro x hx
    rw [kinds_append, List.mem_append]
    rcases List.mem_cons.1 hs with rfl | hs
    · exact .inl (numbersIn_of_statement hspells hc x hx)
    · exact .inr (List.mem_cons_of_mem _ (ih hs x hx))

end Grammar

namespace Lexer

variable {text text' rest : List Char} {ks : List TokenKind} {c : Char} {kind : TokenKind}
  {result : Except Fault TokenStream}

def NumbersFinite (ks : List TokenKind) : Prop := ∀ x, .number x ∈ ks → x.IsFinite

/-- Whether no infinite number is read. Nothing is read of a text that has a fault. -/
def YieldsFinite (result : Except Fault TokenStream) : Prop :=
  ∀ stream, result = .ok stream → NumbersFinite (kinds stream.tokens)

theorem YieldsFinite.prepend {toks : List Token} (h : YieldsFinite result)
    (htoks : NumbersFinite (kinds toks)) : YieldsFinite (result.map (·.prepend toks)) := by
  intro stream hstream x hx
  cases result with
  | error e => cases hstream
  | ok rest =>
    cases hstream
    rcases List.mem_append.1 (kinds_append _ _ ▸ hx) with hx | hx
    · exact htoks x hx
    · exact h rest rfl x hx

def ReadsFinite (text : List Char) : Prop :=
  ∀ rest start, Stops rest → (∀ stop, YieldsFinite (tokens false stop rest)) →
    YieldsFinite (tokens false start (text ++ rest))

theorem readsFinite_of_lexes (h : Lexes text ks) (hks : NumbersFinite ks) : ReadsFinite text := by
  intro rest start hstops hrest
  obtain ⟨toks, stop, rfl, -, -, htokens⟩ := h rest start hstops
  rw [htokens]
  exact (hrest stop).prepend hks

theorem ReadsFinite.append (h : ReadsFinite text) (h' : ReadsFinite text') (hparted : Parted text') :
    ReadsFinite (text ++ text') := by
  intro rest start hstops hrest
  rw [List.append_assoc]
  exact h (text' ++ rest) start (hparted rest hstops) fun stop => h' rest stop hstops hrest

theorem ReadsFinite.space (h : ReadsFinite text) : ReadsFinite (' ' :: text) := by
  intro rest start hstops hrest
  rw [List.cons_append, tokens_space]
  exact h rest _ hstops hrest

theorem ReadsFinite.spaced (h : ReadsFinite text) (h' : ReadsFinite text') :
    ReadsFinite (text ++ ' ' :: text') :=
  h.append h'.space (parted_cons (by decide))

theorem ReadsFinite.symbol (h : ReadsFinite text) (hc : IsSymbol c kind)
    (hkind : NumbersFinite [kind]) : ReadsFinite (c :: text) := by
  intro rest start hstops hrest
  rw [List.cons_append, tokens_of_scan hc.lead (hc.scan_eq _), decide_eq_false hc.dot]
  exact YieldsFinite.prepend (h rest _ hstops hrest) hkind

theorem ReadsFinite.enclosed {left right : Char} {leftKind rightKind : TokenKind}
    (h : ReadsFinite text) (hleft : IsSymbol left leftKind) (hright : IsSymbol right rightKind)
    (hnumbers : NumbersFinite [leftKind, rightKind])
    (hparted : right ∈ [' ', ',', ']', ')', '\n']) : ReadsFinite (left :: (text ++ [right])) := by
  have hclose : ReadsFinite [right] := by
    refine readsFinite_of_lexes (lexes_nil.symbol hright) fun x hx => ?_
    exact hnumbers x (List.mem_cons_of_mem _ hx)
  refine ReadsFinite.symbol (h.append hclose (parted_cons hparted)) hleft fun x hx => ?_
  exact hnumbers x (List.mem_cons.2 (.inl (List.mem_singleton.1 hx)))

theorem readsFinite_keyword (k : Keyword) : ReadsFinite k.text.toList :=
  readsFinite_of_lexes (lexes_keyword k) nofun

theorem readsFinite_joinWith {separator : List Char}
    (hseparator : ∀ text, ReadsFinite text → ReadsFinite (separator ++ text))
    (hparted : ∀ text, Parted (separator ++ text)) {parts : List (List Char)}
    (h : ∀ part ∈ parts, ReadsFinite part) : ReadsFinite (joinWith separator parts) := by
  induction parts with
  | nil => exact readsFinite_of_lexes lexes_nil nofun
  | cons part parts ih =>
    rw [List.forall_mem_cons] at h
    cases parts with
    | nil => exact h.1
    | cons part' parts =>
      rw [joinWith_cons_cons, List.append_assoc]
      exact h.1.append (hseparator _ (ih h.2)) (hparted _)

theorem readsFinite_commas {parts : List (List Char)} (h : ∀ part ∈ parts, ReadsFinite part) :
    ReadsFinite (joinWith ", ".toList parts) := by
  apply readsFinite_joinWith _ _ h
  · intro text htext
    exact htext.space.symbol isSymbol_comma nofun
  · intro text
    exact parted_cons (by decide)

theorem readsFinite_joined (k : Keyword) {parts : List (List Char)}
    (h : ∀ part ∈ parts, ReadsFinite part) :
    ReadsFinite (joinWith (' ' :: (k.text.toList ++ [' '])) parts) := by
  apply readsFinite_joinWith _ _ h
  · intro text htext
    rw [List.cons_append, List.append_assoc]
    exact ((readsFinite_keyword k).spaced htext).space
  · intro text
    exact parted_cons (by decide)

theorem text_of_not_isFinite {x : Binary64} (h : ¬x.IsFinite) :
    x.text = Binary64.sign x.negative ++ "inf".toList := by
  have hrank : x.rank ≠ 0 := by
    intro hzero
    rw [Binary64.IsFinite, hzero] at h
    exact h (by decide)
  rw [Binary64.text, if_neg hrank, if_neg h, Binary64.sign]
  cases x.negative <;> rfl

/-- A finite number is read as itself, the greater infinity as a word, and the lesser not at all. -/
theorem readsFinite_number (x : Binary64) : ReadsFinite x.text := by
  by_cases hx : x.IsFinite
  · refine readsFinite_of_lexes (lexes_number hx) fun y hy => ?_
    cases List.mem_singleton.1 hy
    exact hx
  · rw [text_of_not_isFinite hx]
    cases x.negative with
    | false => exact readsFinite_of_lexes (lexes_word "inf" (by decide) rfl) nofun
    | true =>
      intro rest start _ _ stream hstream
      rw [tokens_eq] at hstream
      cases hstream

mutual

theorem readsFinite_value : ∀ v : Value, ReadsFinite v.canonical
  | .bool true => readsFinite_of_lexes (lexes_value (.bool true) nofun) nofun
  | .bool false => readsFinite_of_lexes (lexes_value (.bool false) nofun) nofun
  | .number x => readsFinite_number x
  | .text s => readsFinite_of_lexes (lexes_value (.text s) nofun) nofun
  | .array items =>
    (readsFinite_commas (readsFinite_values items)).enclosed isSymbol_openBracket
      isSymbol_closeBracket nofun (by decide)

theorem readsFinite_values : ∀ vs : List Value, ∀ part ∈ Value.canonicalAll vs, ReadsFinite part
  | [], _, h => by cases h
  | v :: vs, part, h => by
    rcases List.mem_cons.1 h with rfl | h
    · exact readsFinite_value v
    · exact readsFinite_values vs part h

end

theorem segmentKind_ne_number (segment : List Char) (x : Binary64) :
    segmentKind segment ≠ .number x := by
  unfold segmentKind wordKind
  repeat' split
  all_goals nofun

theorem numbersFinite_dotted (path : String) : NumbersFinite (dottedKinds path) := by
  intro x hx
  rcases mem_joinWith hx with hx | ⟨part, hpart, hx⟩
  · cases List.mem_singleton.1 hx
  · obtain ⟨segment, -, rfl⟩ := List.mem_map.1 hpart
    exact absurd (List.mem_singleton.1 hx).symm (segmentKind_ne_number segment x)

theorem numbersFinite_operator (op : Operator) : NumbersFinite [operatorKind op] := by
  cases op <;> exact nofun

theorem readsFinite_parenthesized (needed : Bool) (h : ReadsFinite text) :
    ReadsFinite (Condition.parenthesized needed text) := by
  cases needed with
  | false => exact h
  | true => exact h.enclosed isSymbol_openParen isSymbol_closeParen nofun (by decide)

mutual

theorem readsFinite_condition : ∀ c : Condition, c.HasFields → ReadsFinite c.canonical
  | .comparison field op v, hfields => by
    have hfield := lexes_field (hfields field List.mem_cons_self)
    have hop := readsFinite_of_lexes (lexes_operator op) (numbersFinite_operator op)
    have hread := readsFinite_of_lexes hfield (numbersFinite_dotted field)
    exact hread.spaced (hop.spaced (readsFinite_value v))
  | .and cs, hfields => readsFinite_joined .and (readsFinite_conditions Condition.isJunction cs hfields)
  | .or cs, hfields => readsFinite_joined .or (readsFinite_conditions Condition.isOr cs hfields)
  | .not c, hfields => by
    have hc := readsFinite_condition c hfields
    exact (readsFinite_keyword .not).spaced (readsFinite_parenthesized c.isJunction hc)

theorem readsFinite_conditions (needsParens : Condition → Bool) : ∀ cs : List Condition,
    (∀ field ∈ (Condition.comparisonsAll cs).map (·.1), IsField field) →
    ∀ part ∈ Condition.canonicalAll needsParens cs, ReadsFinite part
  | [], _, _, h => by cases h
  | c :: cs, hfields, part, h => by
    rw [Condition.comparisonsAll, List.map_append] at hfields
    rcases List.mem_cons.1 h with rfl | h
    · have hc := readsFinite_condition c fun field hmem => hfields field (List.mem_append_left _ hmem)
      exact readsFinite_parenthesized (needsParens c) hc
    · exact readsFinite_conditions needsParens cs
        (fun field hmem => hfields field (List.mem_append_right _ hmem)) part h

end

theorem readsFinite_when {condition : Option Condition}
    (hfields : ∀ c, condition = some c → c.HasFields) : ReadsFinite (whenText condition) := by
  cases condition with
  | none => exact readsFinite_of_lexes lexes_nil nofun
  | some c =>
    have hc := readsFinite_condition c (hfields c rfl)
    exact ((readsFinite_keyword .when).spaced hc).space

theorem numbersFinite_severity (severity : Severity) : NumbersFinite (severityKinds severity) := by
  cases severity <;> exact nofun

theorem resourceKind_ne_number (resource : String) (x : Binary64) :
    resourceKind resource ≠ .number x := by
  unfold resourceKind
  repeat' split
  all_goals nofun

theorem numbersFinite_scope (r : AccessRule) :
    NumbersFinite (dottedKinds r.action ++ [.keyword .on, resourceKind r.resource]) := by
  intro x hx
  rcases List.mem_append.1 hx with hx | hx
  · exact numbersFinite_dotted r.action x hx
  · rcases List.mem_cons.1 hx with hx | hx
    · cases hx
    · exact absurd (List.mem_singleton.1 hx).symm (resourceKind_ne_number r.resource x)

end Lexer

open Lexer

theorem Grammar.Readable.isFinite {n : Nat} (h : Readable n) : (Binary64.ofNat n).IsFinite := by
  obtain ⟨m, hm, -⟩ := exists_toNat? h
  rw [Binary64.toNat?] at hm
  split at hm
  next hx => exact hx.1
  next => cases hm

namespace Statement

variable [Matchers]

theorem readsFinite {cap : Nat} {s : Statement} (hwell : s.fault? = none)
    (hlegible : s.Legible cap) : ReadsFinite s.canonical := by
  have haction := action_fault?_eq_none hwell
  cases s with
  | access kind r =>
    have hkind : ReadsFinite kind.text.toList := readsFinite_of_lexes (lexes_accessKind kind) nofun
    have hscope := readsFinite_of_lexes (lexes_scope haction) (numbersFinite_scope r)
    have hwhen := readsFinite_when fun c hc => (hlegible c hc).2
    have hseverity := readsFinite_of_lexes (lexes_severity r.severity)
      (numbersFinite_severity r.severity)
    exact hkind.spaced ((hscope.append hwhen (parted_when _)).append hseverity (parted_severity _))
  | limit r =>
    refine readsFinite_of_lexes (Statement.lexes haction hlegible nofun) fun x hx => ?_
    simp only [Statement.kinds, List.mem_cons, List.mem_append, reduceCtorEq, false_or,
      TokenKind.number.injEq] at hx
    rcases hx with hx | rfl | rfl | hx
    · exact numbersFinite_dotted r.action x hx
    · exact hlegible.1.isFinite
    · exact hlegible.2.1.isFinite
    · exact numbersFinite_severity r.severity x hx

end Statement

end Delegation
