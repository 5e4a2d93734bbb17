import Delegation.Config.Matchers
import Delegation.Proofs.Source.Failure
import Delegation.Proofs.Source.Lines

namespace Delegation

/-- Options under which conditions may be nested no deeper, and units are strict if they are so under the
others. -/
structure ParseOptions.Tightens (tight loose : ParseOptions) : Prop where
  cap_le : tight.cap ≤ loose.cap
  strict_of_strict : loose.strictTimeUnits = true → tight.strictTimeUnits = true

variable {tight loose : ParseOptions}

theorem ParseOptions.Tightens.lenient (h : tight.Tightens loose) (htight : tight.strictTimeUnits = false) :
    loose.strictTimeUnits = false := by
  rw [Bool.eq_false_iff] at htight ⊢
  exact fun hloose => htight (h.strict_of_strict hloose)

namespace Grammar

variable {m n line : Nat} {ks : List TokenKind} {tokens : List Token} {s : Statement} {ss : List Statement}

theorem UnitStandsFor.loosen {unit : String} {seconds : Nat} (h : tight.Tightens loose)
    (hunit : UnitStandsFor tight.strictTimeUnits unit seconds) :
    UnitStandsFor loose.strictTimeUnits unit seconds := by
  rcases hunit with hknown | ⟨hunknown, htight, hone⟩
  · exact .inl hknown
  · exact .inr ⟨hunknown, h.lenient htight, hone⟩

variable [Matchers]

/-- The tree of a condition does not depend on the cap, which only bounds its nesting. -/
theorem SpellsCondition.mono {c : Condition} (hle : m ≤ n) (h : SpellsCondition m ks c) :
    SpellsCondition n ks c := by
  obtain ⟨tree, hks, hc, hnesting⟩ := spellsCondition_iff.1 h
  exact spellsCondition_iff.2 ⟨tree, hks, hc, Nat.le_trans hnesting hle⟩

theorem SpellsWhen.mono {condition : Option Condition} (hle : m ≤ n) (h : SpellsWhen m ks condition) :
    SpellsWhen n ks condition := by
  rcases h with hnone | ⟨inner, c, hks, hcondition, hc⟩
  · exact .inl hnone
  · exact .inr ⟨inner, c, hks, hcondition, hc.mono hle⟩

theorem SpellsStatement.loosen (h : tight.Tightens loose) (hs : SpellsStatement tight line ks s) :
    SpellsStatement loose line ks s := by
  cases s with
  | access kind r =>
    obtain ⟨k, body, hks, hk, as, rs, ws, ss, hbody, ha, hr, hw, hrest⟩ := hs
    exact ⟨k, body, hks, hk, as, rs, ws, ss, hbody, ha, hr, hw.mono h.cap_le, hrest⟩
  | limit r =>
    obtain ⟨body, hks, as, x, y, unit, ss, amount, seconds, hbody, ha, hx, hy, hunit, hrest⟩ := hs
    exact ⟨body, hks, as, x, y, unit, ss, amount, seconds, hbody, ha, hx, hy, hunit.loosen h, hrest⟩

theorem SpellsLine.loosen (h : tight.Tightens loose) (hs : SpellsLine tight tokens s) :
    SpellsLine loose tokens s := by
  obtain ⟨t, rest, htokens, hspells⟩ := hs
  exact ⟨t, rest, htokens, hspells.loosen h⟩

theorem SpellsDocument.loosen (h : tight.Tightens loose) (hss : SpellsDocument tight tokens ss) :
    SpellsDocument loose tokens ss := by
  induction hss with
  | nil => exact .nil
  | newline ht _ ih => exact .newline ht ih
  | last hline => exact .last (hline.loosen h)
  | line hline ht _ ih => exact .line (hline.loosen h) ht ih

end Grammar

section

variable [Matchers] {source : String} {d : Document}

theorem parse_loosen (h : tight.Tightens loose) (hd : (parse tight source).result = .ok d) :
    (parse loose source).result = .ok d := by
  obtain ⟨stream, hstream, hspells⟩ := parse_eq_ok.1 hd
  exact parse_eq_ok.2 ⟨stream, hstream, hspells.loosen h⟩

theorem grammar_of_loosened (h : tight.Tightens loose) (hd : (parse loose source).result = .ok d)
    {e : DocumentError} (he : (parse tight source).result = .error e) :
    ∃ fault found position, e = .grammar fault found position := by
  obtain ⟨stream, hstream, hspells⟩ := parse_eq_ok.1 hd
  cases hss : (Grammar.statements tight stream.tokens).2 with
  | error refusal =>
    rw [parse_of_refusal hstream hss] at he
    cases he
    exact ⟨_, _, _, rfl⟩
  | ok ss =>
    have hsame : ss = d.statements := ((Grammar.statements_sound hss).loosen h).unique hspells
    rw [parse_of_statements hstream hss, hsame, Document.ofStatements_statements] at he
    cases he

/-- Tightening options only rejects: a document that is still there is the same, and where there is none any
longer, the error is one of the grammar. -/
theorem parse_tighten (tight loose : ParseOptions) (h : tight.Tightens loose) (source : String) :
    (∀ d, (parse tight source).result = .ok d → (parse loose source).result = .ok d) ∧
      ∀ d e, (parse loose source).result = .ok d → (parse tight source).result = .error e →
        ∃ fault found position, e = .grammar fault found position :=
  ⟨fun _ hd => parse_loosen h hd, fun _ _ hd he => grammar_of_loosened h hd he⟩

end

def plainRules : ParseOptions := { maxConditionDepth := 1, strictTimeUnits := true }

def firstReads : String := "permit read on '/r/*' when reads < 3\nlimit read 7 per 2 hours"

def noLateReads : String := "permit read on '/r/*' when not (reads > 2 or late = true)"

theorem parse_tighten_plainRules :
    plainRules.Tightens {} ∧
      (∃ d, (parse plainRules firstReads).result = .ok d ∧ (parse {} firstReads).result = .ok d) ∧
      ∃ d e, (parse {} noLateReads).result = .ok d ∧ (parse plainRules noLateReads).result = .error e ∧
        ∃ fault found position, e = .grammar fault found position := by
  have h : plainRules.Tightens {} := ⟨by decide, nofun⟩
  have hfirst : (parse plainRules firstReads).result.toOption.any (fun _ => true) = true := by
    decide +kernel
  have hlate : (parse {} noLateReads).result.toOption.any (fun _ => true) = true := by
    decide +kernel
  have hnested : (parse plainRules noLateReads).result.toOption.isNone = true := by
    decide +kernel
  obtain ⟨d, hd, -⟩ := exists_of_toOption_any hfirst
  obtain ⟨d', hd', -⟩ := exists_of_toOption_any hlate
  refine ⟨h, ⟨d, hd, (parse_tighten plainRules {} h firstReads).1 d hd⟩, ?_⟩
  cases he : (parse plainRules noLateReads).result with
  | ok d'' =>
    rw [he] at hnested
    cases hnested
  | error e => exact ⟨d', e, hd', rfl, (parse_tighten plainRules {} h noLateReads).2 d' e hd' he⟩

end Delegation
