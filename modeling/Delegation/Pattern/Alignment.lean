namespace Delegation

/-- The rules of a question: what holds once the first list is used up, what holds of an element left
over when the second is, and how two heads combine the answers got by dropping the first head, the
second, or both. -/
structure Alignment (α β : Type) where
  finished : List β → Bool
  leftover : α → Bool → Bool
  step : α → β → Bool → Bool → Bool → Bool

namespace Alignment

variable {α β : Type} (rules : Alignment α β)

def firstRow : List β → List Bool
  | [] => [rules.finished []]
  | b :: bs => rules.finished (b :: bs) :: firstRow bs

/-- The answers for one element more, given those below it. -/
def nextRow (a : α) : List β → List Bool → List Bool
  | [], below => [rules.leftover a (below.headD false)]
  | b :: bs, below =>
    let rest := nextRow a bs below.tail
    rules.step a b (below.headD false) (rest.headD false) (below.tail.headD false) :: rest

def row : List α → List β → List Bool
  | [], bs => rules.firstRow bs
  | a :: as, bs => rules.nextRow a bs (row as bs)

def holds (as : List α) (bs : List β) : Bool := (rules.row as bs).headD false

theorem tail_row (as : List α) (b : β) (bs : List β) :
    (rules.row as (b :: bs)).tail = rules.row as bs := by
  induction as with
  | nil => rfl
  | cons a as ih => simp only [row, nextRow, List.tail_cons, ih]

@[simp] theorem holds_nil (bs : List β) : rules.holds [] bs = rules.finished bs := by
  cases bs <;> rfl

@[simp] theorem holds_cons_nil (a : α) (as : List α) :
    rules.holds (a :: as) [] = rules.leftover a (rules.holds as []) := rfl

@[simp] theorem holds_cons_cons (a : α) (as : List α) (b : β) (bs : List β) :
    rules.holds (a :: as) (b :: bs) = rules.step a b (rules.holds as (b :: bs))
      (rules.holds (a :: as) bs) (rules.holds as bs) := by
  simp only [holds, row, nextRow, List.headD_cons, tail_row]

end Alignment

/-- Matching with wildcards: a wild element stands for any run, any other for one fitting element. -/
def wildcardMatch {α β : Type} (wild : α → Bool) (fits : α → β → Bool) : Alignment α β where
  finished bs := bs.isEmpty
  leftover a below := wild a && below
  step a b dropFirst dropSecond dropBoth :=
    if wild a then dropFirst || dropSecond else fits a b && dropBoth

end Delegation
