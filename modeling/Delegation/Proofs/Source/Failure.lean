import Delegation.Config.Matchers
import Delegation.Proofs.Source.Placement
import Delegation.Proofs.Source.Refusal
import Delegation.Proofs.Source.RoundTrip
import Delegation.Proofs.Source.WellFormed

namespace Delegation

open Lexer

variable {options : ParseOptions} {source : String}

namespace DocumentError

/-- Whether an error names the place of a character of the source or of its end. -/
def PlacedIn (e : DocumentError) (source : String) : Prop :=
  ∃ p, e.position? = some p ∧ p.IsIn source.toList

theorem not_placedIn_invalid (fault : DocumentFault) : ¬(invalid fault).PlacedIn source := by
  rintro ⟨p, hp, -⟩
  cases hp

end DocumentError

theorem TokenStream.placedIn_place {stream : TokenStream} {refusal : Refusal}
    (htokens : ∀ t ∈ stream.tokens, t.position.IsIn source.toList)
    (hstop : stream.stop.IsIn source.toList) (hsuffix : refusal.tokens <:+ stream.tokens) :
    (stream.place refusal).PlacedIn source := by
  refine ⟨_, rfl, ?_⟩
  cases htoks : refusal.tokens with
  | nil => exact hstop
  | cons t ts =>
    rw [htoks] at hsuffix
    exact htokens t (hsuffix.subset List.mem_cons_self)

namespace Document

variable [Matchers] {ss : List Statement}

theorem exists_error_iff : (∃ fault, ofStatements ss = .error fault) ↔ ∃ s ∈ ss, s.fault? ≠ none := by
  unfold ofStatements
  split
  next fault hfault =>
    obtain ⟨s, hs, hsome⟩ := List.exists_of_findSome?_eq_some hfault
    refine iff_of_true ⟨fault, rfl⟩ ⟨s, hs, ?_⟩
    rw [hsome]
    exact Option.some_ne_none fault
  next hnone =>
    apply iff_of_false
    · rintro ⟨fault, hfault⟩
      cases hfault
    · rintro ⟨s, hs, hfault⟩
      exact hfault (List.findSome?_eq_none_iff.1 hnone s hs)

end Document

namespace Grammar

variable [Matchers] {line : Nat} {ks : List TokenKind} {afterDot : Bool} {s : Statement}

theorem fault?_ne_none_iff (h : SpellsStatement options line ks s) (hlexed : Lexed afterDot ks) :
    s.fault? ≠ none ↔ ∃ c, s.condition = some c ∧ maxDocumentDepth < c.depth := by
  rw [fault?_of_spellsStatement h hlexed]
  cases s.condition with
  | none => exact iff_of_false (fun h => h rfl) nofun
  | some c =>
    simp only [Option.bind_some, Condition.depthFault?, Option.some.injEq, exists_eq_left']
    by_cases hdepth : maxDocumentDepth < c.depth
    · rw [if_neg (by omega)]
      exact iff_of_true nofun hdepth
    · rw [if_pos (by omega)]
      exact iff_of_false (fun h => h rfl) hdepth

end Grammar

section

variable [Matchers]

/-- Whether a text is read as statements of which one has a condition deeper than documents allow. -/
def SpellsTooDeep (options : ParseOptions) (source : String) : Prop :=
  ∃ stream ss, tokenize source = .ok stream ∧ (Grammar.statements options stream.tokens).2 = .ok ss ∧
    ∃ s ∈ ss, ∃ c, s.condition = some c ∧ maxDocumentDepth < c.depth

/-- Only the largest cap lets the grammar build conditions that are too deep. -/
theorem not_spellsTooDeep (h : options.maxConditionDepth < nestingCeiling) :
    ¬SpellsTooDeep options source := by
  rintro ⟨stream, ss, hstream, hss, s, hs, c, hc, hdeep⟩
  have hbound : ∀ s ∈ ss, ∀ c, s.condition = some c → c.depth ≤ 2 * options.cap + 1 :=
    Grammar.forall_of_spellsDocument (fun hs hlexed _ => Grammar.depth_of_spellsStatement hs hlexed)
      (Grammar.statements_sound hss) (lexed_of_tokens hstream)
  have hle := hbound s hs c hc
  have hcap : options.cap < nestingCeiling := Nat.lt_of_le_of_lt (Nat.min_le_left _ _) h
  rw [nestingCeiling] at hcap
  rw [maxDocumentDepth] at hdeep
  omega

section Parse

variable {stream : TokenStream} {ss : List Statement}

theorem parse_of_fault {fault : Fault} (h : tokenize source = .error fault) :
    (parse options source).result = .error (.lexical fault.cause fault.position) := by
  rw [parse, h]

theorem parse_of_refusal {refusal : Refusal} (h : tokenize source = .ok stream)
    (hrefusal : (Grammar.statements options stream.tokens).2 = .error refusal) :
    (parse options source).result = .error (stream.place refusal) := by
  rw [parse, h]
  dsimp only [TokenStream.parse]
  rw [hrefusal]

theorem parse_of_statements (h : tokenize source = .ok stream)
    (hss : (Grammar.statements options stream.tokens).2 = .ok ss) :
    (parse options source).result = (Document.ofStatements ss).mapError .invalid := by
  rw [parse, h]
  dsimp only [TokenStream.parse]
  rw [hss]

theorem exists_fault_iff (h : tokenize source = .ok stream)
    (hss : (Grammar.statements options stream.tokens).2 = .ok ss) :
    (∃ fault, Document.ofStatements ss = .error fault) ↔ SpellsTooDeep options source := by
  have hfaults : ∀ s ∈ ss, s.fault? ≠ none ↔
      ∃ c, s.condition = some c ∧ maxDocumentDepth < c.depth :=
    Grammar.forall_of_spellsDocument Grammar.fault?_ne_none_iff (Grammar.statements_sound hss)
      (lexed_of_tokens h)
  rw [Document.exists_error_iff]
  constructor
  · rintro ⟨s, hs, hfault⟩
    exact ⟨stream, ss, h, hss, s, hs, (hfaults s hs).1 hfault⟩
  · rintro ⟨stream', ss', h', hss', s, hs, hdeep⟩
    cases h.symm.trans h'
    cases hss.symm.trans hss'
    exact ⟨s, hs, (hfaults s hs).2 hdeep⟩

end Parse

theorem exists_invalid_of_spellsTooDeep (h : SpellsTooDeep options source) :
    ∃ fault, (parse options source).result = .error (.invalid fault) := by
  obtain ⟨stream, ss, hstream, hss, -⟩ := id h
  obtain ⟨fault, hfault⟩ := (exists_fault_iff hstream hss).2 h
  refine ⟨fault, ?_⟩
  rw [parse_of_statements hstream hss, hfault]
  rfl

theorem placedIn_of_not_spellsTooDeep (h : ¬SpellsTooDeep options source) {e : DocumentError}
    (he : (parse options source).result = .error e) : e.PlacedIn source := by
  cases hstream : tokenize source with
  | error fault =>
    rw [parse_of_fault hstream] at he
    cases he
    exact ⟨fault.position, rfl, fault_isIn_of_tokenize hstream⟩
  | ok stream =>
    obtain ⟨htokens, hstop⟩ := stream_isIn_of_tokenize hstream
    cases hss : (Grammar.statements options stream.tokens).2 with
    | error refusal =>
      rw [parse_of_refusal hstream hss] at he
      cases he
      exact TokenStream.placedIn_place htokens hstop (Grammar.refusal_suffix hss)
    | ok ss =>
      rw [parse_of_statements hstream hss] at he
      cases hd : Document.ofStatements ss with
      | error fault => exact absurd ((exists_fault_iff hstream hss).1 ⟨fault, hd⟩) h
      | ok d =>
        rw [hd] at he
        cases he

/-- Every failure of a text is placed in it, unless the cap is the largest and the text spells a condition
that is too deep for documents. -/
theorem failures_placed_iff (options : ParseOptions) (source : String) :
    (∀ e, (parse options source).result = .error e → e.PlacedIn source) ↔
      options.maxConditionDepth < nestingCeiling ∨ ¬SpellsTooDeep options source := by
  constructor
  · intro h
    apply Or.inr
    intro hdeep
    obtain ⟨fault, hfault⟩ := exists_invalid_of_spellsTooDeep hdeep
    exact DocumentError.not_placedIn_invalid fault (h _ hfault)
  · rintro (hcap | hdeep) e he
    · exact placedIn_of_not_spellsTooDeep (not_spellsTooDeep hcap) he
    · exact placedIn_of_not_spellsTooDeep hdeep he

end

namespace Condition

def rung : Condition := .comparison "a" .equal (.number (.ofNat 1))

/-- Conditions of which each stands in the one junction inside another of the next. -/
def ladder : Nat → Condition
  | 0 => rung
  | n + 1 => .or [rung, .and [rung, ladder n]]

theorem joins_ladder (n : Nat) : (ladder n).Joins := by
  induction n with
  | zero => trivial
  | succ n ih => exact ⟨Nat.le_refl 2, trivial, ⟨Nat.le_refl 2, trivial, ih, trivial⟩, trivial⟩

theorem depth_ladder (n : Nat) : (ladder n).depth = 2 * n + 1 := by
  induction n with
  | zero => rfl
  | succ n ih =>
    simp only [ladder, rung, depth, depthAll, ih]
    omega

theorem mem_comparisons_ladder {n : Nat} {x : String × Operator × Value}
    (h : x ∈ (ladder n).comparisons) : x = ("a", .equal, .number (.ofNat 1)) := by
  induction n with
  | zero => exact List.mem_singleton.1 h
  | succ n ih =>
    simp only [ladder, rung, comparisons, comparisonsAll, List.mem_append, List.mem_singleton,
      List.not_mem_nil, or_false] at h
    rcases h with h | h | h
    · exact h
    · exact h
    · exact ih h

theorem nesting_step {c : Condition} (h : c.isJunction = true) :
    (Condition.or [rung, .and [rung, c]]).nesting = c.nesting + 1 := by
  have hc : nestingIn c.isJunction c.nesting = c.nesting + 1 := by
    rw [h]
    rfl
  have hand : (Condition.and [rung, c]).nesting = c.nesting + 1 := by
    rw [nesting, nestingAll, nestingAll, nestingAll, hc, Nat.max_zero]
    exact Nat.zero_max _
  rw [nesting, nestingAll, nestingAll, nestingAll, hand, Nat.max_zero]
  exact Nat.zero_max _

theorem nesting_ladder (n : Nat) : (ladder (n + 1)).nesting = n := by
  induction n with
  | zero => rfl
  | succ n ih =>
    have hjunction : (ladder (n + 1)).isJunction = true := rfl
    rw [ladder, nesting_step hjunction, ih]

theorem comparisonFault?_ladder {n : Nat} {x : String × Operator × Value}
    (h : x ∈ (ladder n).comparisons) : comparisonFault? x.1 x.2.1 x.2.2 = none := by
  rw [mem_comparisons_ladder h]
  decide +kernel

theorem hasFields_ladder (n : Nat) : (ladder n).HasFields := by
  intro field hfield
  obtain ⟨x, hx, rfl⟩ := List.mem_map.1 hfield
  rw [mem_comparisons_ladder hx]
  exact ⟨['a'], [], rfl, ⟨by decide, by decide⟩, nofun⟩

theorem isFinite_ladder {n : Nat} {y : Binary64} (h : y ∈ (ladder n).numbers) : y.IsFinite := by
  obtain ⟨x, hx, hy⟩ := List.mem_flatMap.1 h
  rw [mem_comparisons_ladder hx] at hy
  rw [List.mem_singleton.1 hy]
  decide +kernel

end Condition

/-- A rule whose text has sixty-four levels and its condition twice as many and one. -/
def tallRule : AccessRule := ⟨"x", "*", some (.ladder 64), .high, 1⟩

theorem spellsTooDeep_tallRule : SpellsTooDeep { maxConditionDepth := 64 }
    (String.ofList (Statement.canonicalLines [.access .permit tallRule])) := by
  have hlegible : (Statement.access .permit tallRule).Legible 64 := by
    intro c hc
    cases hc
    rw [Condition.nesting_ladder]
    exact ⟨by decide, Condition.hasFields_ladder 64⟩
  have hlexes : Lexes (Statement.access .permit tallRule).canonical
      (Statement.access .permit tallRule).kinds := by
    apply Statement.lexes (by decide +kernel) hlegible
    intro c hc x hx
    cases hc
    exact Condition.isFinite_ladder hx
  have hspells : ∀ line, Grammar.SpellsStatement { maxConditionDepth := 64 } line
      (Statement.access .permit tallRule).kinds ((Statement.access .permit tallRule).withLine line) := by
    apply Statement.spells_access (by decide +kernel) (by decide +kernel)
    intro c hc
    obtain ⟨hnesting, hfields⟩ := hlegible c hc
    cases hc
    have hfault : (Condition.ladder 64).fault? 0 = none := by
      rw [Condition.fault?_eq _ 0 (Condition.joins_ladder 64) fun x hx =>
        Condition.comparisonFault?_ladder hx, Condition.depth_ladder]
      rfl
    exact Grammar.spellsCondition hfault hfields hnesting
  obtain ⟨stream, hstream, hdocument⟩ := Statement.exists_stream 1
    (List.forall_mem_singleton.2 hlexes) (List.forall_mem_singleton.2 hspells)
  refine ⟨stream, _, ?_, Grammar.statements_complete hdocument, _, List.mem_cons_self, _, rfl, ?_⟩
  · rw [tokenize, String.toList_ofList]
    exact hstream
  · rw [Condition.depth_ladder]
    decide

theorem not_failures_placed : ¬ ∀ (options : ParseOptions) (source : String) (e : DocumentError),
    (parse options source).result = .error e → e.PlacedIn source := by
  intro h
  obtain ⟨fault, hfault⟩ := exists_invalid_of_spellsTooDeep spellsTooDeep_tallRule
  exact DocumentError.not_placedIn_invalid fault (h _ _ _ hfault)

end Delegation
