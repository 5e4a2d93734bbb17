import Delegation.Config.Matchers
import Delegation.Proofs.Source.CanonicalGrammar

namespace Delegation

namespace Grammar

/-- Tokens of a phrase that nests nothing, with what they spell. -/
structure Leaf {α : Type} (spells : List TokenKind → α → Prop) where
  kinds : List TokenKind
  value : α
  spelled : spells kinds value

mutual

inductive LiteralTree
  | scalar (leaf : Leaf (SpellsOne scalar?))
  | array (items : ItemTrees)

inductive ItemTrees
  | last (item : LiteralTree)
  | more (item : LiteralTree) (rest : ItemTrees)

end

mutual

def LiteralTree.kinds : LiteralTree → List TokenKind
  | .scalar leaf => leaf.kinds
  | .array items => .openBracket :: (items.kinds ++ [.closeBracket])

def ItemTrees.kinds : ItemTrees → List TokenKind
  | .last item => item.kinds
  | .more item rest => item.kinds ++ .comma :: rest.kinds

end

mutual

def LiteralTree.value : LiteralTree → Value
  | .scalar leaf => leaf.value
  | .array items => .array items.values

def ItemTrees.values : ItemTrees → List Value
  | .last item => [item.value]
  | .more item rest => item.value :: rest.values

end

mutual

def LiteralTree.nesting : LiteralTree → Nat
  | .scalar _ => 0
  | .array items => items.nesting + 1

def ItemTrees.nesting : ItemTrees → Nat
  | .last item => item.nesting
  | .more item rest => max item.nesting rest.nesting

end

variable {ks : List TokenKind} {n : Nat} {v : Value}

mutual

theorem LiteralTree.spells (t : LiteralTree) {n : Nat} (h : t.nesting ≤ n) :
    SpellsValue n t.kinds t.value := by
  cases t with
  | scalar leaf =>
    cases n with
    | zero => exact leaf.spelled
    | succ n => exact .inl leaf.spelled
  | array items =>
    cases n with
    | zero => exact absurd h (Nat.not_succ_le_zero _)
    | succ n => exact .inr ⟨_, _, rfl, rfl, items.separated (Nat.le_of_succ_le_succ h)⟩

theorem ItemTrees.separated (ts : ItemTrees) {n : Nat} (h : ts.nesting ≤ n) :
    Separated (SpellsValue n) .comma ts.kinds ts.values := by
  cases ts with
  | last item => exact .one (item.spells h)
  | more item rest =>
    obtain ⟨hitem, hrest⟩ := Nat.max_le.1 h
    exact .more (item.spells hitem) (rest.separated hrest)

end

theorem exists_itemTrees {vs : List Value}
    (hitem : ∀ ks v, SpellsValue n ks v → ∃ t : LiteralTree, t.kinds = ks ∧ t.value = v ∧ t.nesting ≤ n)
    (h : Separated (SpellsValue n) .comma ks vs) :
    ∃ ts : ItemTrees, ts.kinds = ks ∧ ts.values = vs ∧ ts.nesting ≤ n := by
  induction h with
  | one hv =>
    obtain ⟨t, rfl, rfl, hn⟩ := hitem _ _ hv
    exact ⟨.last t, rfl, rfl, hn⟩
  | more hv _ ih =>
    obtain ⟨t, rfl, rfl, hn⟩ := hitem _ _ hv
    obtain ⟨ts, rfl, rfl, hns⟩ := ih
    exact ⟨.more t ts, rfl, rfl, Nat.max_le.2 ⟨hn, hns⟩⟩

/-- A literal is spelled within some levels if a tree of at most that nesting stands for it. -/
theorem spellsValue_iff : SpellsValue n ks v ↔
    ∃ t : LiteralTree, t.kinds = ks ∧ t.value = v ∧ t.nesting ≤ n := by
  constructor
  · intro h
    induction n generalizing ks v with
    | zero => exact ⟨.scalar ⟨ks, v, h⟩, rfl, rfl, Nat.le_refl 0⟩
    | succ n ih =>
      rcases h with h | ⟨inner, items, rfl, rfl, h⟩
      · exact ⟨.scalar ⟨ks, v, h⟩, rfl, rfl, Nat.zero_le _⟩
      · obtain ⟨ts, rfl, rfl, hn⟩ := exists_itemTrees (fun _ _ => ih) h
        exact ⟨.array ts, rfl, rfl, Nat.succ_le_succ hn⟩
  · rintro ⟨t, rfl, rfl, hn⟩
    exact t.spells hn

section

variable [Matchers]

/-- The literals that an operator takes: membership is tested in an array, and matching is by a regular
expression. -/
def Takes (op : Operator) (v : Value) : Prop :=
  (op = .oneOf ∨ op = .noneOf → ∃ items, v = .array items) ∧
    (op = .matchesRegex → ∃ pattern, v = .text pattern ∧ isRegex pattern = true)

theorem operandFault?_eq_none {op : Operator} {v : Value} : operandFault? op v = none ↔ Takes op v := by
  have harray : v.isArray = true ↔ ∃ items, v = .array items := by
    cases v with
    | array items => exact iff_of_true rfl ⟨items, rfl⟩
    | _ => exact iff_of_false Bool.false_ne_true nofun
  have hmembership : op.expectsArray = true ↔ op = .oneOf ∨ op = .noneOf := by
    cases op <;> decide
  rw [Takes, ← hmembership, ← harray]
  unfold operandFault?
  split
  next h =>
    rw [Bool.and_eq_true, Bool.not_eq_true'] at h
    refine iff_of_false nofun fun htakes => ?_
    rw [htakes.1 h.1] at h
    cases h.2
  next h =>
    have hgiven : op.expectsArray = true → v.isArray = true := by
      intro hexpects
      rw [hexpects, Bool.true_and, Bool.not_eq_true'] at h
      exact (Bool.not_eq_false _).mp h
    rw [and_iff_right hgiven]
    split
    next hop =>
      rw [forall_prop_of_true hop]
      split
      next pattern =>
        split
        next hregex => exact iff_of_true rfl ⟨pattern, rfl, hregex⟩
        next hregex =>
          refine iff_of_false nofun ?_
          rintro ⟨_, hpattern, hregex'⟩
          cases hpattern
          exact hregex hregex'
      next htext =>
        refine iff_of_false nofun ?_
        rintro ⟨pattern, hpattern, -⟩
        exact htext pattern hpattern
    next hop => exact iff_of_true rfl fun h => absurd h hop

mutual

/-- What `or` joins. -/
inductive DisjunctionTree
  | last (part : ConjunctionTree)
  | or (part : ConjunctionTree) (rest : DisjunctionTree)

/-- What `and` joins. -/
inductive ConjunctionTree
  | last (part : OperandTree)
  | and (part : OperandTree) (rest : ConjunctionTree)

inductive OperandTree
  | comparison (field : Leaf SpellsField) (op : Leaf (SpellsOne operator?)) (literal : LiteralTree)
      (takes : Takes op.value literal.value)
  | not (operand : OperandTree)
  | parens (inner : DisjunctionTree)

end

mutual

def DisjunctionTree.kinds : DisjunctionTree → List TokenKind
  | .last part => part.kinds
  | .or part rest => part.kinds ++ .keyword .or :: rest.kinds

def ConjunctionTree.kinds : ConjunctionTree → List TokenKind
  | .last part => part.kinds
  | .and part rest => part.kinds ++ .keyword .and :: rest.kinds

def OperandTree.kinds : OperandTree → List TokenKind
  | .comparison field op literal _ => field.kinds ++ (op.kinds ++ literal.kinds)
  | .not operand => .keyword .not :: operand.kinds
  | .parens inner => .openParen :: (inner.kinds ++ [.closeParen])

end

mutual

def DisjunctionTree.parts : DisjunctionTree → List Condition
  | .last part => [joined .and part.parts]
  | .or part rest => joined .and part.parts :: rest.parts

def ConjunctionTree.parts : ConjunctionTree → List Condition
  | .last part => [part.condition]
  | .and part rest => part.condition :: rest.parts

def OperandTree.condition : OperandTree → Condition
  | .comparison field op literal _ => .comparison field.value op.value literal.value
  | .not operand => .not operand.condition
  | .parens inner => joined .or inner.parts

end

def DisjunctionTree.condition (d : DisjunctionTree) : Condition := joined .or d.parts

mutual

/-- How many of arrays, of `not` and of conditions in parentheses stand in each other. -/
def DisjunctionTree.nesting : DisjunctionTree → Nat
  | .last part => part.nesting
  | .or part rest => max part.nesting rest.nesting

def ConjunctionTree.nesting : ConjunctionTree → Nat
  | .last part => part.nesting
  | .and part rest => max part.nesting rest.nesting

def OperandTree.nesting : OperandTree → Nat
  | .comparison _ _ literal _ => literal.nesting
  | .not operand => operand.nesting + 1
  | .parens inner => inner.nesting + 1

end

variable {c : Condition}

theorem spellsComparison_iff : SpellsComparison n ks c ↔
    ∃ field op literal takes, (OperandTree.comparison field op literal takes).kinds = ks ∧
      (OperandTree.comparison field op literal takes).condition = c ∧ literal.nesting ≤ n := by
  constructor
  · rintro ⟨fs, k, vs, field, op, v, rfl, rfl, hfield, hop, hv, hfault⟩
    obtain ⟨literal, rfl, rfl, hn⟩ := spellsValue_iff.1 hv
    exact ⟨⟨fs, field, hfield⟩, ⟨[k], op, k, rfl, hop⟩, literal, operandFault?_eq_none.1 hfault, rfl, rfl, hn⟩
  · rintro ⟨field, ⟨_, op, k, rfl, hop⟩, literal, takes, rfl, rfl, hn⟩
    exact ⟨field.kinds, k, literal.kinds, field.value, op, literal.value, rfl, rfl, field.spelled, hop,
      literal.spells hn, operandFault?_eq_none.2 takes⟩

mutual

theorem DisjunctionTree.separated (d : DisjunctionTree) {n : Nat} (h : d.nesting ≤ n) :
    Separated (SpellsConjunction (SpellsOperand n)) (.keyword .or) d.kinds d.parts := by
  cases d with
  | last part => exact .one ⟨_, part.separated h, rfl⟩
  | or part rest =>
    obtain ⟨hpart, hrest⟩ := Nat.max_le.1 h
    exact .more ⟨_, part.separated hpart, rfl⟩ (rest.separated hrest)

theorem ConjunctionTree.separated (c : ConjunctionTree) {n : Nat} (h : c.nesting ≤ n) :
    Separated (SpellsOperand n) (.keyword .and) c.kinds c.parts := by
  cases c with
  | last part => exact .one (part.spells h)
  | and part rest =>
    obtain ⟨hpart, hrest⟩ := Nat.max_le.1 h
    exact .more (part.spells hpart) (rest.separated hrest)

theorem OperandTree.spells (o : OperandTree) {n : Nat} (h : o.nesting ≤ n) :
    SpellsOperand n o.kinds o.condition := by
  cases o with
  | comparison field op literal takes =>
    exact (spellsComparison_iff.2 ⟨field, op, literal, takes, rfl, rfl, h⟩).operand
  | not operand =>
    cases n with
    | zero => exact absurd h (Nat.not_succ_le_zero _)
    | succ n => exact .inr (.inl ⟨_, _, rfl, rfl, operand.spells (Nat.le_of_succ_le_succ h)⟩)
  | parens inner =>
    cases n with
    | zero => exact absurd h (Nat.not_succ_le_zero _)
    | succ n =>
      exact .inr (.inr ⟨_, rfl, _, inner.separated (Nat.le_of_succ_le_succ h), rfl⟩)

end

theorem exists_conjunctionTree {cs : List Condition}
    (hpart : ∀ ks c, SpellsOperand n ks c → ∃ o : OperandTree, o.kinds = ks ∧ o.condition = c ∧ o.nesting ≤ n)
    (h : Separated (SpellsOperand n) (.keyword .and) ks cs) :
    ∃ t : ConjunctionTree, t.kinds = ks ∧ t.parts = cs ∧ t.nesting ≤ n := by
  induction h with
  | one hc =>
    obtain ⟨o, rfl, rfl, hn⟩ := hpart _ _ hc
    exact ⟨.last o, rfl, rfl, hn⟩
  | more hc _ ih =>
    obtain ⟨o, rfl, rfl, hn⟩ := hpart _ _ hc
    obtain ⟨t, rfl, rfl, hns⟩ := ih
    exact ⟨.and o t, rfl, rfl, Nat.max_le.2 ⟨hn, hns⟩⟩

theorem exists_disjunctionTree {cs : List Condition}
    (hpart : ∀ ks c, SpellsOperand n ks c → ∃ o : OperandTree, o.kinds = ks ∧ o.condition = c ∧ o.nesting ≤ n)
    (h : Separated (SpellsConjunction (SpellsOperand n)) (.keyword .or) ks cs) :
    ∃ d : DisjunctionTree, d.kinds = ks ∧ d.parts = cs ∧ d.nesting ≤ n := by
  induction h with
  | one hc =>
    obtain ⟨_, hcs, rfl⟩ := hc
    obtain ⟨t, rfl, rfl, hn⟩ := exists_conjunctionTree hpart hcs
    exact ⟨.last t, rfl, rfl, hn⟩
  | more hc _ ih =>
    obtain ⟨_, hcs, rfl⟩ := hc
    obtain ⟨t, rfl, rfl, hn⟩ := exists_conjunctionTree hpart hcs
    obtain ⟨d, rfl, rfl, hns⟩ := ih
    exact ⟨.or t d, rfl, rfl, Nat.max_le.2 ⟨hn, hns⟩⟩

theorem exists_comparisonTree (h : SpellsComparison n ks c) :
    ∃ o : OperandTree, o.kinds = ks ∧ o.condition = c ∧ o.nesting ≤ n := by
  obtain ⟨field, op, literal, takes, hks, hc, hn⟩ := spellsComparison_iff.1 h
  exact ⟨.comparison field op literal takes, hks, hc, hn⟩

theorem exists_operandTree (h : SpellsOperand n ks c) :
    ∃ o : OperandTree, o.kinds = ks ∧ o.condition = c ∧ o.nesting ≤ n := by
  induction n generalizing ks c with
  | zero => exact exists_comparisonTree h
  | succ n ih =>
    rcases h with h | ⟨inner, c', rfl, rfl, h⟩ | ⟨inner, rfl, cs, h, rfl⟩
    · exact exists_comparisonTree h
    · obtain ⟨o, rfl, rfl, hn⟩ := ih h
      exact ⟨.not o, rfl, rfl, Nat.succ_le_succ hn⟩
    · obtain ⟨d, rfl, rfl, hn⟩ := exists_disjunctionTree (fun _ _ => ih) h
      exact ⟨.parens d, rfl, rfl, Nat.succ_le_succ hn⟩

/-- A condition is spelled within some levels, of which it takes the first itself, if a tree of at most that
nesting stands for it. -/
theorem spellsCondition_iff : SpellsCondition n ks c ↔
    ∃ d : DisjunctionTree, d.kinds = ks ∧ d.condition = c ∧ d.nesting + 1 ≤ n := by
  cases n with
  | zero => exact iff_of_false nofun fun ⟨_, _, _, hn⟩ => Nat.not_succ_le_zero _ hn
  | succ n =>
    constructor
    · rintro ⟨cs, h, rfl⟩
      obtain ⟨d, rfl, rfl, hn⟩ := exists_disjunctionTree (fun _ _ => exists_operandTree) h
      exact ⟨d, rfl, rfl, Nat.succ_le_succ hn⟩
    · rintro ⟨d, rfl, rfl, hn⟩
      exact ⟨d.parts, d.separated (Nat.le_of_succ_le_succ hn), rfl⟩

end

example (a b c : OperandTree) :
    let d := DisjunctionTree.or (.last a) (.last (.and b (.last c)))
    d.kinds = a.kinds ++ .keyword .or :: (b.kinds ++ .keyword .and :: c.kinds) ∧
      d.condition = .or [a.condition, .and [b.condition, c.condition]] := ⟨rfl, rfl⟩

end Grammar

end Delegation
