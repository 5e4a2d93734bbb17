import Delegation.Proofs.Source.RoundTrip
import Delegation.Proofs.Source.SyntaxTree

namespace Delegation

namespace Grammar

variable {ks : List TokenKind} {n line : Nat} {strict : Bool} {tokens : List Token}

/-- Quantities are whole; two to the 64th, the number that the largest count is rounded to, counts as it. -/
def SpellsQuantity (ks : List TokenKind) (n : Nat) : Prop :=
  ∃ x m, ks = [.number x] ∧ x.toNat? = some m ∧ m ≤ maxCount + 1 ∧ n = min m maxCount

theorem spellsQuantity_iff : SpellsQuantity ks n ↔ ∃ x, ks = [.number x] ∧ quantity? x = some n := by
  constructor
  · rintro ⟨x, m, rfl, hm, hle, rfl⟩
    exact ⟨x, rfl, quantity?_of_toNat? hm hle⟩
  · rintro ⟨x, rfl, hn⟩
    obtain ⟨m, hm, hmin⟩ := exists_toNat? hn
    refine ⟨x, m, rfl, hm, ?_, hmin⟩
    by_contra hlarge
    simp only [quantity?, hm, if_neg hlarge, reduceCtorEq] at hn

variable [Matchers]

structure AccessTree where
  kind : Leaf (SpellsOne accessKind?)
  action : Leaf SpellsAction
  resource : Leaf SpellsResource
  condition : Option DisjunctionTree
  severity : Leaf SpellsSeverity

namespace AccessTree

def whenKinds : Option DisjunctionTree → List TokenKind
  | none => []
  | some d => .keyword .when :: d.kinds

def kinds (t : AccessTree) : List TokenKind :=
  t.kind.kinds ++ (t.action.kinds ++ .keyword .on :: (t.resource.kinds ++
    (whenKinds t.condition ++ t.severity.kinds)))

def rule (line : Nat) (t : AccessTree) : AccessRule :=
  ⟨t.action.value, t.resource.value, t.condition.map (·.condition), t.severity.value, line⟩

/-- The condition itself is the first level of its nesting. -/
def nesting (t : AccessTree) : Nat := (t.condition.map (·.nesting + 1)).getD 0

end AccessTree

/-- Unless units are strict, the unit may be any word. -/
structure LimitTree (strict : Bool) where
  action : Leaf SpellsAction
  count : Leaf SpellsQuantity
  amount : Leaf SpellsQuantity
  unit : String
  seconds : Nat
  standsFor : UnitStandsFor strict unit seconds
  period_le : amount.value * seconds ≤ maxCount
  period_ne_zero : amount.value * seconds ≠ 0
  severity : Leaf SpellsSeverity

namespace LimitTree

def kinds (t : LimitTree strict) : List TokenKind :=
  .keyword .limit :: (t.action.kinds ++ (t.count.kinds ++ .keyword .per :: (t.amount.kinds ++
    .word t.unit :: t.severity.kinds)))

def rule (line : Nat) (t : LimitTree strict) : LimitRule :=
  ⟨t.action.value, t.count.value, t.amount.value * t.seconds, t.severity.value, line⟩

end LimitTree

inductive StatementTree (strict : Bool)
  | access (t : AccessTree)
  | limit (t : LimitTree strict)

namespace StatementTree

def kinds : StatementTree strict → List TokenKind
  | access t => t.kinds
  | limit t => t.kinds

/-- The statement that a tree means on a line. -/
def statement (line : Nat) : StatementTree strict → Statement
  | access t => .access t.kind.value (t.rule line)
  | limit t => .limit (t.rule line)

def nesting : StatementTree strict → Nat
  | access t => t.nesting
  | limit _ => 0

end StatementTree

/-- Trees of statements, each with the line of its first token, in tokens that hold nothing else but ends of
lines, at least one between two statements. -/
inductive Derives (strict : Bool) : List Token → List (Nat × StatementTree strict) → Prop
  | nil : Derives strict [] []
  | newline {t tokens trees} : t.kind = .newline → Derives strict tokens trees →
      Derives strict (t :: tokens) trees
  | last {t tokens tree} : Delegation.kinds (t :: tokens) = tree.kinds →
      Derives strict (t :: tokens) [(t.position.line, tree)]
  | line {t front t' rest tree trees} : Delegation.kinds (t :: front) = tree.kinds → t'.kind = .newline →
      Derives strict rest trees →
      Derives strict ((t :: front) ++ t' :: rest) ((t.position.line, tree) :: trees)

theorem spellsWhen_iff {condition : Option Condition} : SpellsWhen n ks condition ↔
    ∃ d : Option DisjunctionTree, AccessTree.whenKinds d = ks ∧ d.map (·.condition) = condition ∧
      (d.map (·.nesting + 1)).getD 0 ≤ n := by
  constructor
  · rintro (⟨rfl, rfl⟩ | ⟨inner, c, rfl, rfl, h⟩)
    · exact ⟨none, rfl, rfl, Nat.zero_le n⟩
    · obtain ⟨d, rfl, rfl, hn⟩ := spellsCondition_iff.1 h
      exact ⟨some d, rfl, rfl, hn⟩
  · rintro ⟨d, rfl, rfl, hn⟩
    cases d with
    | none => exact .inl ⟨rfl, rfl⟩
    | some d => exact .inr ⟨d.kinds, d.condition, rfl, rfl, spellsCondition_iff.2 ⟨d, rfl, rfl, hn⟩⟩

theorem spellsAccess_iff {options : ParseOptions} {kind : AccessKind} {r : AccessRule} :
    SpellsStatement options line ks (.access kind r) ↔
      ∃ t : AccessTree, t.kinds = ks ∧ t.kind.value = kind ∧ t.rule line = r ∧ t.nesting ≤ options.cap := by
  constructor
  · rintro ⟨k, body, rfl, hk, as, rs, ws, ss, rfl, ha, hr, hw, hs, hline⟩
    obtain ⟨d, rfl, hd, hn⟩ := spellsWhen_iff.1 hw
    refine ⟨⟨⟨[k], kind, k, rfl, hk⟩, ⟨as, r.action, ha⟩, ⟨rs, r.resource, hr⟩, d, ⟨ss, r.severity, hs⟩⟩,
      rfl, rfl, ?_, hn⟩
    rw [AccessTree.rule, hd, ← hline]
  · rintro ⟨⟨⟨_, kind, k, rfl, hk⟩, action, resource, d, severity⟩, rfl, rfl, rfl, hn⟩
    exact ⟨k, _, rfl, hk, action.kinds, resource.kinds, _, severity.kinds, rfl, action.spelled,
      resource.spelled, spellsWhen_iff.2 ⟨d, rfl, rfl, hn⟩, severity.spelled, rfl⟩

theorem spellsLimit_iff {options : ParseOptions} {r : LimitRule} :
    SpellsStatement options line ks (.limit r) ↔
      ∃ t : LimitTree options.strictTimeUnits, t.kinds = ks ∧ t.rule line = r := by
  constructor
  · rintro ⟨body, rfl, as, x, y, unit, ss, amount, seconds, rfl, ha, hx, hy, hunit, hperiod, hmax, hzero, hs,
      hline⟩
    rw [hperiod] at hmax hzero
    have hcount := spellsQuantity_iff.2 ⟨x, rfl, hx⟩
    have hamount := spellsQuantity_iff.2 ⟨y, rfl, hy⟩
    refine ⟨⟨⟨as, r.action, ha⟩, ⟨[.number x], r.count, hcount⟩, ⟨[.number y], amount, hamount⟩, unit, seconds,
      hunit, hmax, hzero, ⟨ss, r.severity, hs⟩⟩, rfl, ?_⟩
    rw [LimitTree.rule, ← hperiod, ← hline]
  · rintro ⟨⟨action, ⟨_, count, hcount⟩, ⟨_, amount, hamount⟩, unit, seconds, hunit, hmax, hzero, severity⟩,
      rfl, rfl⟩
    obtain ⟨x, rfl, hx⟩ := spellsQuantity_iff.1 hcount
    obtain ⟨y, rfl, hy⟩ := spellsQuantity_iff.1 hamount
    exact ⟨_, rfl, action.kinds, x, y, unit, severity.kinds, amount, seconds, rfl, action.spelled, hx, hy, hunit,
      rfl, hmax, hzero, severity.spelled, rfl⟩

theorem spellsStatement_iff {options : ParseOptions} {s : Statement} :
    SpellsStatement options line ks s ↔ ∃ tree : StatementTree options.strictTimeUnits,
      tree.kinds = ks ∧ tree.statement line = s ∧ tree.nesting ≤ options.cap := by
  cases s with
  | access kind r =>
    rw [spellsAccess_iff]
    constructor
    · rintro ⟨t, rfl, rfl, rfl, hn⟩
      exact ⟨.access t, rfl, rfl, hn⟩
    · rintro ⟨t | t, rfl, hs, hn⟩
      · cases hs
        exact ⟨t, rfl, rfl, rfl, hn⟩
      · cases hs
  | limit r =>
    rw [spellsLimit_iff]
    constructor
    · rintro ⟨t, rfl, rfl⟩
      exact ⟨.limit t, rfl, rfl, Nat.zero_le _⟩
    · rintro ⟨t | t, rfl, hs, hn⟩
      · cases hs
      · cases hs
        exact ⟨t, rfl, rfl⟩

theorem spellsLine_iff {options : ParseOptions} {t : Token} {s : Statement} :
    SpellsLine options (t :: tokens) s ↔ ∃ tree : StatementTree options.strictTimeUnits,
      Delegation.kinds (t :: tokens) = tree.kinds ∧ tree.statement t.position.line = s ∧
        tree.nesting ≤ options.cap := by
  constructor
  · rintro ⟨_, _, h, hs⟩
    cases h
    obtain ⟨tree, hks, hs, hn⟩ := spellsStatement_iff.1 hs
    exact ⟨tree, hks.symm, hs, hn⟩
  · rintro ⟨tree, hks, hs, hn⟩
    exact ⟨t, tokens, rfl, spellsStatement_iff.2 ⟨tree, hks.symm, hs, hn⟩⟩

def statementsOf (trees : List (Nat × StatementTree strict)) : List Statement :=
  trees.map fun t => t.2.statement t.1

theorem spellsDocument_iff {options : ParseOptions} {ss : List Statement} :
    SpellsDocument options tokens ss ↔ ∃ trees, Derives options.strictTimeUnits tokens trees ∧
      (∀ t ∈ trees, t.2.nesting ≤ options.cap) ∧ statementsOf trees = ss := by
  constructor
  · intro h
    induction h with
    | nil => exact ⟨[], .nil, List.forall_mem_nil _, rfl⟩
    | newline ht _ ih =>
      obtain ⟨trees, hderives, hn, rfl⟩ := ih
      exact ⟨trees, .newline ht hderives, hn, rfl⟩
    | last hline =>
      have ⟨t, rest, htokens, _⟩ := hline
      subst htokens
      obtain ⟨tree, hks, rfl, hn⟩ := spellsLine_iff.1 hline
      exact ⟨[(t.position.line, tree)], .last hks, List.forall_mem_singleton.2 hn, rfl⟩
    | line hline ht _ ih =>
      have ⟨t, front, hfront, _⟩ := hline
      subst hfront
      obtain ⟨tree, hks, rfl, hn⟩ := spellsLine_iff.1 hline
      obtain ⟨trees, hderives, hns, rfl⟩ := ih
      exact ⟨(t.position.line, tree) :: trees, .line hks ht hderives, List.forall_mem_cons.2 ⟨hn, hns⟩, rfl⟩
  · rintro ⟨trees, hderives, hn, rfl⟩
    induction hderives with
    | nil => exact .nil
    | newline ht _ ih => exact .newline ht (ih hn)
    | last hks =>
      have hline := spellsLine_iff.2 ⟨_, hks, rfl, hn _ (.head _)⟩
      exact .last hline
    | line hks ht _ ih =>
      obtain ⟨hn, hns⟩ := List.forall_mem_cons.1 hn
      have hline := spellsLine_iff.2 ⟨_, hks, rfl, hn⟩
      exact .line hline ht (ih hns)

end Grammar

variable [Matchers]

/-- Tokens are read as a document exactly if trees that are nested no deeper than the cap stand in them and
mean the statements of the document. -/
theorem parse_iff_derives (options : ParseOptions) (stream : TokenStream) (d : Document) :
    (stream.parse options).result = .ok d ↔
      ∃ trees, Grammar.Derives options.strictTimeUnits stream.tokens trees ∧
        (∀ t ∈ trees, t.2.nesting ≤ min options.maxConditionDepth 64) ∧
        Document.ofStatements (Grammar.statementsOf trees) = .ok d := by
  have hstatements : ∀ ss, ss = d.statements ↔ Document.ofStatements ss = .ok d := by
    intro ss
    constructor
    · rintro rfl
      exact d.ofStatements_statements
    · intro h
      exact (Document.statements_of_ofStatements h).symm
  simp only [← hstatements]
  rw [TokenStream.parse_eq_ok, Grammar.spellsDocument_iff]
  rfl

end Delegation
