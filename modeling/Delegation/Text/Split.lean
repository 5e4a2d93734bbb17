namespace Delegation

/-- The parts of a text between the places where a separator stands; always at least one. -/
def splitOn (separator : Char) : List Char → List (List Char)
  | [] => [[]]
  | c :: cs =>
    if c = separator then [] :: splitOn separator cs
    else
      match splitOn separator cs with
      | [] => [[c]]
      | part :: parts => (c :: part) :: parts

theorem splitOn_ne_nil (separator : Char) (text : List Char) : splitOn separator text ≠ [] := by
  cases text with
  | nil => simp [splitOn]
  | cons c cs => unfold splitOn; split <;> (try split) <;> simp

def joinWith {α : Type} (separator : List α) : List (List α) → List α
  | [] => []
  | [part] => part
  | part :: parts => part ++ separator ++ joinWith separator parts

theorem joinWith_cons_cons {α : Type} (separator part part' : List α) (parts : List (List α)) :
    joinWith separator (part :: part' :: parts) =
      part ++ separator ++ joinWith separator (part' :: parts) := rfl

theorem mem_joinWith {α : Type} {separator : List α} {parts : List (List α)} {a : α}
    (h : a ∈ joinWith separator parts) : a ∈ separator ∨ ∃ part ∈ parts, a ∈ part := by
  induction parts with
  | nil => cases h
  | cons part parts ih =>
    cases parts with
    | nil => exact .inr ⟨part, List.mem_cons_self, h⟩
    | cons part' parts =>
      rw [joinWith_cons_cons, List.append_assoc, List.mem_append, List.mem_append] at h
      rcases h with h | h | h
      · exact .inr ⟨part, List.mem_cons_self, h⟩
      · exact .inl h
      · exact (ih h).imp_right fun ⟨p, hp, hmem⟩ => ⟨p, List.mem_cons_of_mem _ hp, hmem⟩

theorem joinWith_splitOn (c : Char) (text : List Char) : joinWith [c] (splitOn c text) = text := by
  induction text with
  | nil => rfl
  | cons d ds ih =>
    unfold splitOn
    cases hparts : splitOn c ds with
    | nil => exact absurd hparts (splitOn_ne_nil c ds)
    | cons part parts =>
      rw [hparts] at ih
      split
      next h =>
        rw [joinWith_cons_cons, ih, h]
        rfl
      next =>
        cases parts with
        | nil => exact congrArg (d :: ·) ih
        | cons part' parts => exact congrArg (d :: ·) ih

theorem notMem_of_mem_splitOn {c : Char} {part text : List Char} (h : part ∈ splitOn c text) :
    c ∉ part := by
  induction text generalizing part with
  | nil =>
    rw [List.mem_singleton.1 h]
    exact List.not_mem_nil
  | cons d ds ih =>
    unfold splitOn at h
    split at h
    next =>
      rcases List.mem_cons.1 h with rfl | h
      · exact List.not_mem_nil
      · exact ih h
    next hd =>
      cases hparts : splitOn c ds with
      | nil => exact absurd hparts (splitOn_ne_nil c ds)
      | cons first parts =>
        rw [hparts] at h ih
        rcases List.mem_cons.1 h with rfl | h
        · rw [List.mem_cons, not_or]
          exact ⟨Ne.symm hd, ih List.mem_cons_self⟩
        · exact ih (List.mem_cons_of_mem first h)

theorem splitOn_of_notMem {c : Char} {part : List Char} (h : c ∉ part) :
    splitOn c part = [part] := by
  induction part with
  | nil => rfl
  | cons d ds ih =>
    rw [List.mem_cons, not_or] at h
    rw [splitOn, if_neg (Ne.symm h.1), ih h.2]

theorem splitOn_append {c : Char} {part : List Char} (h : c ∉ part) (text : List Char) :
    splitOn c (part ++ c :: text) = part :: splitOn c text := by
  induction part with
  | nil => rw [List.nil_append, splitOn, if_pos rfl]
  | cons d ds ih =>
    rw [List.mem_cons, not_or] at h
    rw [List.cons_append, splitOn, if_neg (Ne.symm h.1), ih h.2]

theorem splitOn_joinWith {c : Char} {part : List Char} {parts : List (List Char)}
    (h : ∀ p ∈ part :: parts, c ∉ p) : splitOn c (joinWith [c] (part :: parts)) = part :: parts := by
  induction parts generalizing part with
  | nil => exact splitOn_of_notMem (h part List.mem_cons_self)
  | cons part' parts ih =>
    rw [joinWith_cons_cons, List.append_assoc, List.cons_append, List.nil_append,
      splitOn_append (h part List.mem_cons_self), ih fun p hp => h p (List.mem_cons_of_mem _ hp)]

def trimBoth (c : Char) (text : List Char) : List Char :=
  ((text.dropWhile (· == c)).reverse.dropWhile (· == c)).reverse

theorem trimBoth_eq_self {c : Char} {text : List Char} (hhead : text.head? ≠ some c)
    (hlast : text.getLast? ≠ some c) : trimBoth c text = text := by
  have hkeep : ∀ cs : List Char, cs.head? ≠ some c → cs.dropWhile (· == c) = cs := by
    intro cs hcs
    cases cs with
    | nil => rfl
    | cons d ds =>
      apply List.dropWhile_cons_of_neg
      rw [beq_iff_eq]
      rintro rfl
      exact hcs rfl
  rw [trimBoth, hkeep text hhead, hkeep _ (by rw [List.head?_reverse]; exact hlast),
    List.reverse_reverse]

end Delegation
