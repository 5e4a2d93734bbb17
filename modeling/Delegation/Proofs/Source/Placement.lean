import Delegation.Proofs.Source.Lexing

namespace Delegation

namespace Position

variable {p q : Position} {c : Char} {text before rest : List Char}

/-- The place of what follows some text: its lines are counted, and the characters of its last line. -/
def following (before : List Char) : Position :=
  ⟨before.count '\n' + 1, (before.reverse.takeWhile (· ≠ '\n')).length + 1⟩

/-- A place of a character of the text or of its end. -/
def IsIn (p : Position) (text : List Char) : Prop :=
  ∃ before, before <+: text ∧ p = following before

theorem following_concat : following (before ++ [c]) = (following before).next c := by
  rw [following, List.count_append, List.reverse_concat, List.takeWhile_cons, next]
  by_cases hc : c = '\n'
  · rw [if_pos hc, hc]
    rfl
  · rw [if_neg hc, decide_eq_true hc, List.count_singleton, beq_false_of_ne hc]
    rfl

theorem after_append (p : Position) (before rest : List Char) :
    p.after (before ++ rest) = (p.after before).after rest :=
  List.foldl_append

theorem start_after (before : List Char) : start.after before = following before := by
  obtain ⟨backwards, rfl⟩ : ∃ backwards, before = backwards.reverse :=
    ⟨before.reverse, before.reverse_reverse.symm⟩
  induction backwards with
  | nil => rfl
  | cons c backwards ih =>
    rw [List.reverse_cons, after_append, ih, following_concat]
    rfl

/-- A place that is reached from another one by reading some of the text there. -/
def Reaches (p : Position) (text : List Char) (q : Position) : Prop :=
  ∃ before, before <+: text ∧ q = p.after before

theorem reaches_after (p : Position) (h : before <+: text) : p.Reaches text (p.after before) :=
  ⟨before, h, rfl⟩

theorem Reaches.of_rest (h : (p.after before).Reaches rest q) : p.Reaches (before ++ rest) q := by
  obtain ⟨more, hmore, rfl⟩ := h
  rw [← after_append]
  exact p.reaches_after ((List.prefix_append_right_inj before).2 hmore)

theorem Reaches.isIn (h : start.Reaches text p) : p.IsIn text := by
  obtain ⟨before, hbefore, rfl⟩ := h
  exact ⟨before, hbefore, start_after before⟩

end Position

namespace Lexer

variable {afterDot : Bool} {start : Position} {text : List Char}

theorem gap_prefix (text : List Char) : gap text <+: text := by
  induction text with
  | nil => exact List.prefix_rfl
  | cons c cs ih =>
    rw [gap]
    split
    · exact (List.prefix_cons_inj c).2 ih
    · split
      · exact (List.prefix_cons_inj c).2 (List.takeWhile_prefix _)
      · exact List.nil_prefix

/-- The places of the tokens and of their stop, or of the fault, are reached by reading the text. -/
def Places (start : Position) (text : List Char) : Except Fault TokenStream → Prop
  | .error fault => start.Reaches text fault.position
  | .ok stream =>
    (∀ t ∈ stream.tokens, start.Reaches text t.position) ∧ start.Reaches text stream.stop

theorem Places.of_rest {before rest : List Char} {result : Except Fault TokenStream}
    (h : Places (start.after before) rest result) : Places start (before ++ rest) result := by
  cases result with
  | error fault => exact Position.Reaches.of_rest h
  | ok stream => exact ⟨fun t ht => (h.1 t ht).of_rest, h.2.of_rest⟩

theorem Places.prepend {result : Except Fault TokenStream} {t : Token} (h : Places start text result)
    (ht : start.Reaches text t.position) : Places start text (result.map (·.prepend [t])) := by
  cases result with
  | error fault => exact h
  | ok stream => exact ⟨List.forall_mem_cons.2 ⟨ht, h.1⟩, h.2⟩

theorem places_tokens (afterDot : Bool) (start : Position) (text : List Char) :
    Places start text (tokens afterDot start text) := by
  induction hn : text.length using Nat.strongRecOn generalizing afterDot start text with
  | ind n ih =>
    obtain ⟨rest, hrest⟩ := gap_prefix text
    rw [tokens_eq]
    generalize gap text = blank at hrest ⊢
    subst hrest
    rw [List.drop_left]
    apply Places.of_rest
    cases rest with
    | nil => exact ⟨nofun, (start.after blank).reaches_after List.nil_prefix⟩
    | cons c cs =>
      dsimp only
      split
      next misread _ => exact (start.after blank).reaches_after (List.take_prefix ..)
      next kind more _ =>
        have hlexeme : c :: cs = (c :: cs.take more) ++ cs.drop more := by
          rw [List.cons_append, List.take_append_drop]
        have hshort : (cs.drop more).length < n := by
          rw [List.length_append, List.length_cons] at hn
          rw [List.length_drop]
          omega
        have hmore := ih _ hshort (kind = .dot) ((start.after blank).after (c :: cs.take more))
          (cs.drop more) rfl
        have hplaces := hmore.of_rest
        rw [← hlexeme] at hplaces
        exact hplaces.prepend ((start.after blank).reaches_after List.nil_prefix)

end Lexer

section

variable {source : String} {stream : TokenStream}

theorem fault_isIn_of_tokenize {fault : Lexer.Fault} (h : tokenize source = .error fault) :
    fault.position.IsIn source.toList := by
  have hplaces := Lexer.places_tokens false .start source.toList
  rw [← tokenize, h] at hplaces
  exact hplaces.isIn

theorem stream_isIn_of_tokenize (h : tokenize source = .ok stream) :
    (∀ t ∈ stream.tokens, t.position.IsIn source.toList) ∧ stream.stop.IsIn source.toList := by
  have hplaces := Lexer.places_tokens false .start source.toList
  rw [← tokenize, h] at hplaces
  exact ⟨fun t ht => (hplaces.1 t ht).isIn, hplaces.2.isIn⟩

end

end Delegation
