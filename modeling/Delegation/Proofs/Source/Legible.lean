import Delegation.Proofs.Source.Lexed
import Delegation.Proofs.Source.Nesting
import Delegation.Proofs.Source.Quantity

namespace Delegation

namespace Value

mutual

def numbers : Value → List Binary64
  | number x => [x]
  | array items => numbersAll items
  | _ => []

def numbersAll : List Value → List Binary64
  | [] => []
  | v :: vs => v.numbers ++ numbersAll vs

end

end Value

namespace Condition

mutual

def comparisons : Condition → List (String × Operator × Value)
  | comparison field op value => [(field, op, value)]
  | and operands | or operands => comparisonsAll operands
  | not operand => operand.comparisons

def comparisonsAll : List Condition → List (String × Operator × Value)
  | [] => []
  | c :: cs => c.comparisons ++ comparisonsAll cs

end

def fields (c : Condition) : List String := c.comparisons.map (·.1)

def numbers (c : Condition) : List Binary64 := c.comparisons.flatMap (·.2.2.numbers)

theorem mem_comparisonsAll {cs : List Condition} {x : String × Operator × Value}
    (h : x ∈ comparisonsAll cs) : ∃ c ∈ cs, x ∈ c.comparisons := by
  induction cs with
  | nil => cases h
  | cons c cs ih =>
    rw [comparisonsAll, List.mem_append] at h
    rcases h with h | h
    · exact ⟨c, List.mem_cons_self, h⟩
    · obtain ⟨d, hd, hx⟩ := ih h
      exact ⟨d, List.mem_cons_of_mem _ hd, hx⟩

end Condition

open Lexer

def IsWord (afterDot : Bool) (segment : List Char) : Prop :=
  IsSegment afterDot segment ∧ '*' ∉ segment

/-- A field that a text can name: a path of words, of which the first is no keyword and starts with no
digit. -/
def IsField (field : String) : Prop :=
  ∃ first more, splitOn '.' field.toList = first :: more ∧ IsWord false first ∧
    ∀ s ∈ more, IsWord true s

def Condition.HasFields (c : Condition) : Prop := ∀ field ∈ c.fields, IsField field

namespace Statement

/-- What a statement needs beyond being well formed for its canonical text to be read. -/
def Legible (cap : Nat) : Statement → Prop
  | access _ r => ∀ c, r.condition = some c → c.nesting < cap ∧ c.HasFields
  | limit r => Grammar.Readable r.count ∧ Grammar.Readable (largestUnit r.period).1 ∧
      r.period ≤ maxCount

end Statement

namespace Grammar

variable {α β : Type} {item : List TokenKind → α → Prop} {separator : TokenKind}
  {ks : List TokenKind} {as : List α} {n : Nat} {c : Condition} {afterDot : Bool}

theorem comparisons_joined {join : List Condition → Condition} {cs : List Condition} (hcs : cs ≠ [])
    (hjoin : (join cs).comparisons = Condition.comparisonsAll cs) :
    (joined join cs).comparisons = Condition.comparisonsAll cs := by
  rcases joined_cases join hcs with ⟨c, rfl, hc⟩ | hc
  · rw [hc, Condition.comparisonsAll, Condition.comparisonsAll, List.append_nil]
  · rw [hc, hjoin]

/-- What holds of something in a part of the tokens holds of it in all of them, unless a dot stands right
before the part. -/
structure Hereditary (holds : List TokenKind → α → Prop) : Prop where
  left : ∀ {ks ls a}, holds ks a → holds (ks ++ ls) a
  right : ∀ {k ls a} ks, k ≠ .dot → holds ls a → holds (ks ++ k :: ls) a

theorem Hereditary.forall {holds : List TokenKind → β → Prop} (h : Hereditary holds)
    (parts : α → List β) : Hereditary fun ks a => ∀ b ∈ parts a, holds ks b where
  left hks b hb := h.left (hks b hb)
  right ks hdot hls b hb := h.right ks hdot (hls b hb)

theorem Hereditary.of_separated {holds : List TokenKind → α → Prop} (hholds : Hereditary holds)
    (h : Separated item separator ks as) (hseparator : separator ≠ .dot)
    (hitem : ∀ ks a, item ks a → holds ks a) : ∀ a ∈ as, holds ks a := by
  induction h with
  | one ha =>
    intro a hmem
    rw [List.mem_singleton.1 hmem]
    exact hitem _ _ ha
  | more ha _ ih =>
    intro a hmem
    rcases List.mem_cons.1 hmem with rfl | hmem
    · exact hholds.left (hitem _ _ ha)
    · exact hholds.right _ hseparator (ih a hmem)

section Comparisons

variable {holds : List TokenKind → String × Operator × Value → Prop}
  {operand : List TokenKind → Condition → Prop}

theorem Hereditary.of_joined (hholds : Hereditary holds) {k : Keyword}
    {join : List Condition → Condition}
    (hjoin : ∀ cs, (join cs).comparisons = Condition.comparisonsAll cs)
    (hoperand : ∀ ks c, operand ks c → ∀ x ∈ c.comparisons, holds ks x)
    (h : SpellsJoined operand k join ks c) : ∀ x ∈ c.comparisons, holds ks x := by
  obtain ⟨cs, hcs, rfl⟩ := h
  rw [comparisons_joined hcs.ne_nil (hjoin cs)]
  intro x hx
  obtain ⟨c, hc, hx⟩ := Condition.mem_comparisonsAll hx
  have hparts := hholds.forall Condition.comparisons
  exact hparts.of_separated hcs nofun hoperand c hc x hx

theorem Hereditary.of_disjunction (hholds : Hereditary holds)
    (hoperand : ∀ ks c, operand ks c → ∀ x ∈ c.comparisons, holds ks x)
    (h : SpellsDisjunction operand ks c) : ∀ x ∈ c.comparisons, holds ks x := by
  refine hholds.of_joined (fun _ => rfl) ?_ h
  intro ks c hc
  exact hholds.of_joined (fun _ => rfl) hoperand hc

variable [Matchers]

theorem Hereditary.of_operand (hholds : Hereditary holds)
    (hcomparison : ∀ n ks c, SpellsComparison n ks c → ∀ x ∈ c.comparisons, holds ks x)
    (h : SpellsOperand n ks c) : ∀ x ∈ c.comparisons, holds ks x := by
  induction n generalizing ks c with
  | zero => exact hcomparison 0 ks c h
  | succ n ih =>
    rcases h with h | ⟨inner, c', rfl, rfl, hc⟩ | ⟨inner, rfl, hc⟩
    · exact hcomparison (n + 1) ks c h
    · intro x hx
      have hinner := ih hc x hx
      exact hholds.right [] nofun hinner
    · intro x hx
      have hinner := hholds.of_disjunction (fun _ _ h => ih h) hc x hx
      exact hholds.right [] nofun (hholds.left hinner)

theorem Hereditary.of_condition (hholds : Hereditary holds)
    (hcomparison : ∀ n ks c, SpellsComparison n ks c → ∀ x ∈ c.comparisons, holds ks x)
    (h : SpellsCondition n ks c) : ∀ x ∈ c.comparisons, holds ks x := by
  cases n with
  | zero => cases h
  | succ n => exact hholds.of_disjunction (fun _ _ h => hholds.of_operand hcomparison h) h

end Comparisons

theorem not_dot_of_isSegment {segment : List Char} (h : IsSegment afterDot segment) :
    '.' ∉ segment := by
  obtain rfl | rfl | ⟨_, _, -, -, -, hword, -⟩ := h.cases
  · decide
  · decide
  · exact fun hmem => absurd (hword '.' hmem) (by decide)

theorem isWord_keyword (k : Keyword) : IsWord true k.text.toList := by
  cases k <;> exact ⟨by decide, by decide⟩

theorem isWord_of_wordText? {k : TokenKind} {segment : List Char} (h : wordText? k = some segment)
    (hlexed : WellLexed afterDot k) : IsWord afterDot segment := by
  unfold wordText? at h
  split at h <;> cases h
  exact ⟨hlexed.1, hlexed.2.1⟩

theorem isWord_of_dottedText? {k : TokenKind} {segment : List Char}
    (h : dottedText? k = some segment) (hlexed : WellLexed true k) : IsWord true segment := by
  unfold dottedText? at h
  split at h <;> cases h
  · exact ⟨hlexed.1, hlexed.2.1⟩
  · exact isWord_keyword _

theorem forall_of_dotted {segment? : TokenKind → Option (List Char)} {segments : List (List Char)}
    {P : List Char → Prop} (hsegment : ∀ k s, segment? k = some s → WellLexed true k → P s)
    (h : Dotted segment? ks segments) (hlexed : Lexed afterDot ks) : ∀ s ∈ segments, P s := by
  induction h generalizing afterDot with
  | nil => exact nofun
  | cons hs _ ih =>
    intro s hmem
    rcases List.mem_cons.1 hmem with rfl | hmem
    · exact hsegment _ _ hs hlexed.2.1
    · exact ih hlexed.2.2 s hmem

theorem exists_parts_of_spellsPath {first? segment? : TokenKind → Option (List Char)} {path : String}
    {P : Bool → List Char → Prop} (hfirst : ∀ k s, first? k = some s → WellLexed false k → P false s)
    (hsegment : ∀ k s, segment? k = some s → WellLexed true k → P true s)
    (hdot : ∀ afterDot s, P afterDot s → '.' ∉ s) (h : SpellsPath first? segment? ks path)
    (hlexed : Lexed false ks) : ∃ first more, splitOn '.' path.toList = first :: more ∧
      P false first ∧ ∀ s ∈ more, P true s := by
  obtain ⟨k, ks', first, more, rfl, hk, hdotted, rfl⟩ := h
  have hP := hfirst k first hk hlexed.1
  have hall := forall_of_dotted hsegment hdotted hlexed.2
  have hdots : ∀ s ∈ first :: more, '.' ∉ s :=
    List.forall_mem_cons.2 ⟨hdot _ _ hP, fun s hs => hdot _ _ (hall s hs)⟩
  rw [String.toList_ofList, splitOn_joinWith hdots]
  exact ⟨first, more, rfl, hP, hall⟩

theorem isField_of_spellsField {field : String} (h : SpellsField ks field) (hlexed : Lexed false ks) :
    IsField field :=
  exists_parts_of_spellsPath (fun _ _ => isWord_of_wordText?) (fun _ _ => isWord_of_dottedText?)
    (fun _ _ hword => not_dot_of_isSegment hword.1) h hlexed

theorem hereditary_lexed (P : α → Prop) : Hereditary fun ks a => Lexed false ks → P a where
  left h hlexed := h hlexed.left
  right _ hdot h hlexed := by
    obtain ⟨_, hrest⟩ := hlexed.right
    exact h (hrest.tail hdot)

variable [Matchers]

theorem hasFields_of_condition (h : SpellsCondition n ks c) (hlexed : Lexed false ks) :
    c.HasFields := by
  have hcomparison : ∀ n ks c, SpellsComparison n ks c →
      ∀ x ∈ c.comparisons, Lexed false ks → IsField x.1 := by
    rintro n _ _ ⟨fs, k, vs, field, op, v, rfl, rfl, hfield, -, -, -⟩ x hx hlexed
    rw [List.mem_singleton.1 hx]
    exact isField_of_spellsField hfield hlexed.left
  intro field hfield
  obtain ⟨x, hx, rfl⟩ := List.mem_map.1 hfield
  exact (hereditary_lexed _).of_condition hcomparison h x hx hlexed

variable {options : ParseOptions} {line : Nat}

theorem exists_condition_of_spellsStatement {kind : AccessKind} {r : AccessRule}
    (h : SpellsStatement options line ks (.access kind r)) (hlexed : Lexed afterDot ks)
    (hc : r.condition = some c) : ∃ inner, SpellsCondition options.cap inner c ∧ Lexed false inner := by
  obtain ⟨k, body, rfl, -, as, rs, ws, ss, rfl, -, -, hwhen, -, -⟩ := h
  rcases hwhen with ⟨-, hnone⟩ | ⟨inner, c', rfl, hsome, hspells⟩
  · rw [hnone] at hc
    cases hc
  · rw [hsome] at hc
    cases hc
    obtain ⟨_, hon⟩ := hlexed.2.right
    obtain ⟨_, hrest⟩ := hon.2.right
    exact ⟨inner, hspells, hrest.left.tail nofun⟩

theorem legible_of_spellsStatement {s : Statement} (h : SpellsStatement options line ks s)
    (hlexed : Lexed afterDot ks) : s.Legible options.cap := by
  cases s with
  | access kind r =>
    intro c hc
    obtain ⟨inner, hspells, hinner⟩ := exists_condition_of_spellsStatement h hlexed hc
    exact ⟨nesting_of_spellsCondition hspells, hasFields_of_condition hspells hinner⟩
  | limit r =>
    obtain ⟨body, rfl, as, x, y, unit, ss, amount, seconds, -, -, hx, hy, hunit, hperiod, hmax, hzero,
      -, -⟩ := h
    obtain ⟨unit, hunit⟩ : ∃ unit, unitSeconds? unit = some seconds := by
      rcases hunit with hunit | ⟨-, -, rfl⟩
      · exact ⟨unit, hunit⟩
      · exact ⟨"second", rfl⟩
    refine ⟨readable_of_quantity? hx, ?_, hmax⟩
    rw [hperiod] at hmax hzero ⊢
    exact readable_amount hy hunit hmax (Nat.pos_of_ne_zero hzero)

/-- What holds of each statement by the tokens of its line holds of all in a document. -/
theorem forall_of_spellsDocument {P : Statement → Prop}
    (hline : ∀ {line ks afterDot s}, SpellsStatement options line ks s → Lexed afterDot ks → P s)
    {tokens : List Token} {statements : List Statement} (h : SpellsDocument options tokens statements)
    (hlexed : Lexed afterDot (kinds tokens)) : ∀ s ∈ statements, P s := by
  induction h generalizing afterDot with
  | nil =>
    intro s hmem
    cases hmem
  | newline _ _ ih => exact ih hlexed.2
  | last h =>
    obtain ⟨t, rest, -, hspells⟩ := h
    intro s hmem
    rw [List.mem_singleton.1 hmem]
    exact hline hspells hlexed
  | line h _ _ ih =>
    obtain ⟨t, rest, -, hspells⟩ := h
    rw [kinds, List.map_append] at hlexed
    obtain ⟨_, hrest⟩ := hlexed.right
    intro s hmem
    rcases List.mem_cons.1 hmem with rfl | hmem
    · exact hline hspells hlexed.left
    · exact ih hrest.2 s hmem

theorem legible_of_spellsDocument {tokens : List Token} {statements : List Statement}
    (h : SpellsDocument options tokens statements) (hlexed : Lexed afterDot (kinds tokens)) :
    ∀ s ∈ statements, s.Legible options.cap :=
  forall_of_spellsDocument legible_of_spellsStatement h hlexed

end Grammar

end Delegation
