import Delegation.Proofs.Source.Legible
import Delegation.Proofs.Source.Literals

namespace Delegation

open Lexer

def dottedKinds (path : String) : List TokenKind := pathKinds (splitOn '.' path.toList)

namespace Value

mutual

def kinds : Value → List TokenKind
  | bool true => [.word "true"]
  | bool false => [.word "false"]
  | number x => [.number x]
  | text s => [.text s]
  | array items => .openBracket :: (joinWith [.comma] (kindsAll items) ++ [.closeBracket])

def kindsAll : List Value → List (List TokenKind)
  | [] => []
  | v :: vs => v.kinds :: kindsAll vs

end

end Value

namespace Condition

def kindsIn (needed : Bool) (ks : List TokenKind) : List TokenKind :=
  if needed then .openParen :: (ks ++ [.closeParen]) else ks

mutual

def kinds : Condition → List TokenKind
  | comparison field op value => dottedKinds field ++ operatorKind op :: value.kinds
  | and operands => joinWith [.keyword .and] (kindsAll isJunction operands)
  | or operands => joinWith [.keyword .or] (kindsAll isOr operands)
  | not operand => .keyword .not :: kindsIn operand.isJunction operand.kinds

def kindsAll (needsParens : Condition → Bool) : List Condition → List (List TokenKind)
  | [] => []
  | c :: cs => kindsIn (needsParens c) c.kinds :: kindsAll needsParens cs

end

end Condition

def resourceKind (resource : String) : TokenKind :=
  if resource = "*" then .any else if resource = "**" then .anyDepth else .text resource

def whenKinds : Option Condition → List TokenKind
  | some c => .keyword .when :: c.kinds
  | none => []

def severityKinds (severity : Severity) : List TokenKind :=
  if severity = .standard then [] else [.keyword .severity, .word severity.text]

def AccessKind.keyword : AccessKind → Keyword
  | permit => .permit
  | deny => .deny
  | require => .require

def Statement.kinds : Statement → List TokenKind
  | access kind r =>
    .keyword kind.keyword :: (dottedKinds r.action ++ [.keyword .on, resourceKind r.resource] ++
      whenKinds r.condition ++ severityKinds r.severity)
  | limit r =>
    .keyword .limit :: (dottedKinds r.action ++ .number (Binary64.ofNat r.count) :: .keyword .per ::
      .number (Binary64.ofNat (largestUnit r.period).1) :: .word (largestUnit r.period).2 ::
        severityKinds r.severity)

namespace Lexer

variable {afterDot : Bool} {text text' : List Char} {ks ls : List TokenKind}

theorem LexesFrom.spaced (h : LexesFrom afterDot text ks) (h' : Lexes text' ls) :
    LexesFrom afterDot (text ++ ' ' :: text') (ks ++ ls) :=
  h.append (Lexes.space h') (parted_cons (by decide))

theorem lexes_joinWith {separator : List Char} {kind : TokenKind}
    (hseparator : ∀ text ks, Lexes text ks → Lexes (separator ++ text) (kind :: ks))
    (hparted : ∀ text, Parted (separator ++ text)) {parts : List (List Char)}
    {kss : List (List TokenKind)} (h : List.Forall₂ Lexes parts kss) :
    Lexes (joinWith separator parts) (joinWith [kind] kss) := by
  induction h with
  | nil => exact lexes_nil
  | @cons part ks parts kss hpart hparts ih =>
    cases hparts with
    | nil => exact hpart
    | cons hpart' hparts' =>
      rw [joinWith_cons_cons, joinWith_cons_cons, List.append_assoc, List.append_assoc]
      exact hpart.append (hseparator _ _ ih) (hparted _)

theorem lexes_comma (h : Lexes text ks) : Lexes (", ".toList ++ text) (.comma :: ks) :=
  (Lexes.space h).symbol isSymbol_comma

theorem lexes_between (k : Keyword) (h : Lexes text ks) :
    Lexes (' ' :: (k.text.toList ++ ' ' :: text)) (.keyword k :: ks) :=
  Lexes.space ((lexes_keyword k).spaced h)

theorem lexes_parenthesized (needed : Bool) (h : Lexes text ks) :
    Lexes (Condition.parenthesized needed text) (Condition.kindsIn needed ks) := by
  cases needed with
  | false => exact h
  | true => exact h.enclosed isSymbol_openParen isSymbol_closeParen (by decide)

theorem lexes_commas {parts : List (List Char)} {kss : List (List TokenKind)}
    (h : List.Forall₂ Lexes parts kss) :
    Lexes (joinWith ", ".toList parts) (joinWith [.comma] kss) := by
  apply lexes_joinWith _ _ h
  · intro text ks
    exact lexes_comma
  · intro text
    exact parted_cons (by decide)

theorem lexes_joined (k : Keyword) {parts : List (List Char)} {kss : List (List TokenKind)}
    (h : List.Forall₂ Lexes parts kss) :
    Lexes (joinWith (' ' :: (k.text.toList ++ [' '])) parts) (joinWith [.keyword k] kss) := by
  apply lexes_joinWith _ _ h
  · intro text ks htext
    rw [List.cons_append, List.append_assoc]
    exact lexes_between k htext
  · intro text
    exact parted_cons (by decide)

mutual

theorem lexes_value : ∀ v : Value, (∀ x ∈ v.numbers, x.IsFinite) → Lexes v.canonical v.kinds
  | .bool true, _ => lexes_word "true" (by decide) rfl
  | .bool false, _ => lexes_word "false" (by decide) rfl
  | .number x, h => lexes_number (h x List.mem_cons_self)
  | .text s, _ => by
    have hquote := lexes_quote s.toList
    rw [String.ofList_toList] at hquote
    exact hquote
  | .array items, h => by
    have hitems := lexes_commas (lexes_values items h)
    exact hitems.enclosed isSymbol_openBracket isSymbol_closeBracket (by decide)

theorem lexes_values : ∀ vs : List Value, (∀ x ∈ Value.numbersAll vs, x.IsFinite) →
    List.Forall₂ Lexes (Value.canonicalAll vs) (Value.kindsAll vs)
  | [], _ => .nil
  | v :: vs, h => by
    have hv := lexes_value v fun x hx => h x (List.mem_append_left _ hx)
    have hvs := lexes_values vs fun x hx => h x (List.mem_append_right _ hx)
    exact .cons hv hvs

end

theorem lexes_dotted {path : String} {first : List Char} {more : List (List Char)}
    (hsplit : splitOn '.' path.toList = first :: more) (hfirst : IsSegment false first)
    (hmore : ∀ s ∈ more, IsSegment true s) : Lexes path.toList (dottedKinds path) := by
  have hpath := lexes_path hfirst hmore
  rw [← hsplit, joinWith_splitOn] at hpath
  exact hpath

theorem lexes_field {field : String} (h : IsField field) :
    Lexes field.toList (dottedKinds field) := by
  obtain ⟨first, more, hsplit, hfirst, hmore⟩ := h
  exact lexes_dotted hsplit hfirst.1 fun s hs => (hmore s hs).1

mutual

theorem lexes_condition : ∀ c : Condition, c.HasFields → (∀ x ∈ c.numbers, x.IsFinite) →
    Lexes c.canonical c.kinds
  | .comparison field op v, hfields, hnumbers => by
    rw [Condition.numbers, Condition.comparisons, List.flatMap_singleton] at hnumbers
    have hfield := lexes_field (hfields field List.mem_cons_self)
    have hvalue := lexes_value v hnumbers
    exact hfield.spaced ((lexes_operator op).spaced hvalue)
  | .and cs, hfields, hnumbers => by
    have hcs := lexes_conditions Condition.isJunction cs hfields hnumbers
    exact lexes_joined .and hcs
  | .or cs, hfields, hnumbers => by
    have hcs := lexes_conditions Condition.isOr cs hfields hnumbers
    exact lexes_joined .or hcs
  | .not c, hfields, hnumbers => by
    have hc := lexes_condition c hfields hnumbers
    exact (lexes_keyword .not).spaced (lexes_parenthesized c.isJunction hc)

theorem lexes_conditions (needsParens : Condition → Bool) : ∀ cs : List Condition,
    (∀ field ∈ (Condition.comparisonsAll cs).map (·.1), IsField field) →
    (∀ x ∈ (Condition.comparisonsAll cs).flatMap (·.2.2.numbers), x.IsFinite) →
    List.Forall₂ Lexes (Condition.canonicalAll needsParens cs) (Condition.kindsAll needsParens cs)
  | [], _, _ => .nil
  | c :: cs, hfields, hnumbers => by
    rw [Condition.comparisonsAll, List.map_append] at hfields
    rw [Condition.comparisonsAll, List.flatMap_append] at hnumbers
    have hc := lexes_condition c (fun field h => hfields field (List.mem_append_left _ h))
      fun x hx => hnumbers x (List.mem_append_left _ hx)
    have hcs := lexes_conditions needsParens cs
      (fun field h => hfields field (List.mem_append_right _ h))
      fun x hx => hnumbers x (List.mem_append_right _ hx)
    exact .cons (lexes_parenthesized (needsParens c) hc) hcs

end

theorem lexes_action {pattern : String} (h : ActionPattern.fault? pattern = none) :
    Lexes pattern.toList (dottedKinds pattern) := by
  obtain ⟨first, more, hsplit, hfirst, hmore⟩ := exists_segments h
  exact lexes_dotted hsplit hfirst hmore

theorem lexes_resource (resource : String) :
    Lexes (canonicalResource resource) [resourceKind resource] := by
  unfold canonicalResource resourceKind
  by_cases hany : resource = "*"
  · rw [if_pos (.inl hany), if_pos hany, hany]
    exact lexes_segment (by decide)
  · by_cases hdepth : resource = "**"
    · rw [if_pos (.inr hdepth), if_neg hany, if_pos hdepth, hdepth]
      exact lexes_segment (by decide)
    · rw [if_neg (not_or.2 ⟨hany, hdepth⟩), if_neg hany, if_neg hdepth]
      have hquote := lexes_quote resource.toList
      rw [String.ofList_toList] at hquote
      exact hquote

theorem lexes_severity (severity : Severity) :
    Lexes (canonicalSeverity severity) (severityKinds severity) := by
  have hword : ∀ name : String, IsSegment false name.toList → segmentKind name.toList = .word name →
      Lexes (" severity ".toList ++ name.toList) [.keyword .severity, .word name] :=
    fun name h hkind => lexes_between .severity (lexes_word name h hkind)
  cases severity with
  | critical => exact hword "critical" (by decide) rfl
  | high => exact lexes_nil
  | medium => exact hword "medium" (by decide) rfl
  | low => exact hword "low" (by decide) rfl

theorem parted_severity (severity : Severity) : Parted (canonicalSeverity severity) := by
  unfold canonicalSeverity
  split
  · exact parted_nil
  · exact parted_cons (by decide)

def whenText : Option Condition → List Char
  | some c => " when ".toList ++ c.canonical
  | none => []

theorem lexes_when {condition : Option Condition}
    (hfields : ∀ c, condition = some c → c.HasFields)
    (hnumbers : ∀ c, condition = some c → ∀ x ∈ c.numbers, x.IsFinite) :
    Lexes (whenText condition) (whenKinds condition) := by
  cases condition with
  | none => exact lexes_nil
  | some c => exact lexes_between .when (lexes_condition c (hfields c rfl) (hnumbers c rfl))

theorem parted_when (condition : Option Condition) : Parted (whenText condition) := by
  cases condition with
  | none => exact parted_nil
  | some c => exact parted_cons (by decide)

theorem lexes_accessKind (kind : AccessKind) : Lexes kind.text.toList [.keyword kind.keyword] := by
  cases kind with
  | permit => exact lexes_keyword .permit
  | deny => exact lexes_keyword .deny
  | require => exact lexes_keyword .require

theorem lexes_count (n : Nat) : Lexes (Nat.toDigits 10 n) [.number (Binary64.ofNat n)] := by
  have hliteral := lexes_literal ⟨Nat.toDigits 10 n, [], Nat.toDigits_ne_nil,
    fun c hc => Nat.isDigit_of_mem_toDigits (by decide) (by decide) hc, nofun⟩ false
  rw [Grammar.ofLiteral_toDigits] at hliteral
  rw [Literal.text, pointed, if_pos rfl, List.append_nil] at hliteral
  exact hliteral

theorem lexes_unit (period : Nat) :
    Lexes (largestUnit period).2.toList [.word (largestUnit period).2] := by
  unfold largestUnit
  split
  · exact lexes_word "days" (by decide) rfl
  · split
    · exact lexes_word "hours" (by decide) rfl
    · split
      · exact lexes_word "minutes" (by decide) rfl
      · exact lexes_word "seconds" (by decide) rfl

end Lexer

namespace Statement

theorem lexes_scope {r : AccessRule} (haction : ActionPattern.fault? r.action = none) :
    Lexes (r.action.toList ++ " on ".toList ++ canonicalResource r.resource)
      (dottedKinds r.action ++ [.keyword .on, resourceKind r.resource]) := by
  rw [List.append_assoc]
  exact (lexes_action haction).append (lexes_between .on (lexes_resource r.resource))
    (parted_cons (by decide))

theorem lexes_rate (count amount : Nat) :
    Lexes (Nat.toDigits 10 count ++ " per ".toList ++ Nat.toDigits 10 amount)
      [.number (Binary64.ofNat count), .keyword .per, .number (Binary64.ofNat amount)] := by
  rw [List.append_assoc]
  exact (lexes_count count).append (lexes_between .per (lexes_count amount)) (parted_cons (by decide))

/-- The canonical text of a legible statement is read as its tokens. -/
theorem lexes {cap : Nat} {s : Statement} (haction : ActionPattern.fault? s.action = none)
    (hlegible : s.Legible cap)
    (hnumbers : ∀ c, s.condition = some c → ∀ x ∈ c.numbers, x.IsFinite) :
    Lexes s.canonical s.kinds := by
  cases s with
  | access kind r =>
    have hwhen := lexes_when (fun c hc => (hlegible c hc).2) hnumbers
    have hbody := ((lexes_scope haction).append hwhen (parted_when _)).append
      (lexes_severity r.severity) (parted_severity _)
    exact (lexes_accessKind kind).spaced hbody
  | limit r =>
    have hscope := (lexes_keyword .limit).spaced (lexes_action haction)
    have hperiod := (lexes_unit r.period).append (lexes_severity r.severity) (parted_severity _)
    exact hscope.spaced ((lexes_rate r.count _).spaced hperiod)

end Statement

end Delegation
