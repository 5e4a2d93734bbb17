import Delegation.Config.Matchers
import Delegation.Proofs.Source.Finiteness
import Delegation.Proofs.Source.RoundTrip

namespace Delegation

open Lexer

namespace Statement

@[simp] theorem condition_withoutLine (s : Statement) : s.withoutLine.condition = s.condition := by
  cases s <;> rfl

theorem legible_withoutLine {cap : Nat} (s : Statement) :
    s.withoutLine.Legible cap ↔ s.Legible cap := by
  cases s <;> rfl

variable {s t : Statement}

theorem condition_eq_of_withoutLine (h : s.withoutLine = t.withoutLine) :
    s.condition = t.condition := by
  rw [← s.condition_withoutLine, h, t.condition_withoutLine]

theorem Legible.of_withoutLine {cap : Nat} (hs : s.Legible cap) (h : s.withoutLine = t.withoutLine) :
    t.Legible cap := by
  rw [← t.legible_withoutLine, ← h, s.legible_withoutLine]
  exact hs

theorem yieldsFinite_canonicalLines {ss : List Statement} (h : ∀ s ∈ ss, ReadsFinite s.canonical)
    (start : Position) : YieldsFinite (tokens false start (canonicalLines ss)) := by
  induction ss generalizing start with
  | nil =>
    intro stream hstream
    rw [canonicalLines, List.flatMap_nil, tokens_nil] at hstream
    cases hstream
    intro x hx
    cases hx
  | cons s ss ih =>
    rw [List.forall_mem_cons] at h
    rw [canonicalLines_cons]
    refine h.1 _ start (stops_newline _) fun stop => ?_
    have hnewline : NumbersFinite [.newline] := by
      intro x hx
      cases List.mem_singleton.1 hx
    rw [tokens_newline]
    exact (ih h.2 _).prepend hnewline

end Statement

namespace Document

section

variable [Matchers] {options : ParseOptions} {d e : Document}

/-- No number of a document that has the tokens of legible canonical text is infinite. -/
theorem isFinite_of_parse_canonical {cap : Nat} (hlegible : ∀ s ∈ d.statements, s.Legible cap)
    (he : (parse options d.canonical).result = .ok e) :
    ∀ s ∈ e.statements, ∀ c, s.condition = some c → ∀ x ∈ c.numbers, x.IsFinite := by
  obtain ⟨stream, hstream, hspells⟩ := parse_eq_ok.1 he
  have hreads : ∀ s ∈ d.statements, ReadsFinite s.canonical := by
    intro s hs
    exact s.readsFinite (d.wellFormed s hs) (hlegible s hs)
  have hyields := Statement.yieldsFinite_canonicalLines hreads Position.start
  rw [tokenize, canonical, String.toList_ofList] at hstream
  intro s hs c hc x hx
  exact hyields stream hstream x (Grammar.numbersIn_of_document hspells hs hc x hx)

/-- The canonical text of a document is read as the document, but for lines, exactly if the document is
legible and has no infinite number. -/
theorem canonical_reparses_iff (options : ParseOptions) (d : Document) :
    (∃ e, (parse options d.canonical).result = .ok e ∧
      e.statements.map (·.withoutLine) = d.statements.map (·.withoutLine)) ↔
    ∀ s ∈ d.statements, s.Legible options.cap ∧
      ∀ c, s.condition = some c → ∀ x ∈ c.numbers, x.IsFinite := by
  constructor
  · rintro ⟨e, he, hsame⟩
    have hlegible : ∀ s ∈ d.statements, s.Legible options.cap := by
      intro s hs
      obtain ⟨t, ht, heq⟩ := exists_of_map_withoutLine hsame hs
      exact (legible_of_parse he t ht).of_withoutLine heq
    intro s hs
    obtain ⟨t, ht, heq⟩ := exists_of_map_withoutLine hsame hs
    have hfinite := isFinite_of_parse_canonical hlegible he t ht
    rw [Statement.condition_eq_of_withoutLine heq] at hfinite
    exact ⟨hlegible s hs, hfinite⟩
  · intro h
    have hread := parse_canonical (fun s hs => (h s hs).1) fun s hs => (h s hs).2
    exact ⟨d.onLines, hread, Statement.map_onLines _ Statement.withoutLine_withLine⟩

end

/-- A rule for those who are administrators in a field that spells a comparison. -/
def guestOrRole : Document where
  statements := [.access .permit ⟨"file.read", "/reports",
    some (.comparison "role = 'guest' or role" .equal (.text "admin")), .high, 1⟩]
  wellFormed := by decide +kernel

/-- The field of the one comparison is read as another comparison, which guests pass. -/
theorem not_canonical_reparses : ¬ ∀ d : Document, ∃ e, (parse {} d.canonical).result = .ok e ∧
    e.statements.map (·.withoutLine) = d.statements.map (·.withoutLine) := by
  intro h
  obtain ⟨e, he, hsame⟩ := h guestOrRole
  have hread : (parse {} guestOrRole.canonical).result.toOption.map (fun e =>
      e.statements.map fun s => s.condition.map (·.fields)) = some [some ["role", "role"]] := by
    decide +kernel
  rw [he] at hread
  have hkept : e.statements.map (fun s => s.condition.map (·.fields)) =
      guestOrRole.statements.map fun s => s.condition.map (·.fields) := by
    have hmap := congrArg (List.map fun s => s.condition.map (·.fields)) hsame
    simpa only [List.map_map, Function.comp_def, Statement.condition_withoutLine] using hmap
  exact absurd (hkept.symm.trans (Option.some.inj hread)) (by decide)

end Document

end Delegation
