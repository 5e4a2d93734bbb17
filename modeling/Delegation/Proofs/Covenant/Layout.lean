import Delegation.Config.Matchers
import Delegation.Proofs.Covenant.Signature
import Delegation.Proofs.Source.Lines
import Mathlib.Data.List.Destutter
import Mathlib.Data.List.DropRight

namespace Delegation

/-- The kinds with one end of a line for several in a row, and with none in front of all others or behind
them. -/
def withoutBlankLines (ks : List TokenKind) : List TokenKind :=
  ((ks.destutter fun k k' => ¬(k = .newline ∧ k' = .newline)).dropWhile (· = .newline)).rdropWhile
    (· = .newline)

/-- Two texts of the same tokens, on lines that differ at most in blank ones. -/
def SameButLayout (s₁ s₂ : String) : Prop :=
  ∃ stream₁ stream₂, tokenize s₁ = .ok stream₁ ∧ tokenize s₂ = .ok stream₂ ∧
    withoutBlankLines (kinds stream₁.tokens) = withoutBlankLines (kinds stream₂.tokens)

theorem SameButLayout.symm {s₁ s₂ : String} (h : SameButLayout s₁ s₂) : SameButLayout s₂ s₁ := by
  obtain ⟨stream₁, stream₂, h₁, h₂, hsame⟩ := h
  exact ⟨stream₂, stream₁, h₂, h₁, hsame.symm⟩

instance (s₁ s₂ : String) : Decidable (SameButLayout s₁ s₂) :=
  match h₁ : tokenize s₁, h₂ : tokenize s₂ with
  | .ok stream₁, .ok stream₂ =>
    decidable_of_iff
      (withoutBlankLines (kinds stream₁.tokens) = withoutBlankLines (kinds stream₂.tokens)) <| by
    simp only [SameButLayout, h₁, h₂, Except.ok.injEq, exists_and_left, exists_eq_left']
  | .error _, _ => isFalse <| by
    rintro ⟨_, _, h, -⟩
    cases h₁.symm.trans h
  | .ok _, .error _ => isFalse <| by
    rintro ⟨_, _, -, h, -⟩
    cases h₂.symm.trans h

namespace Statement

variable [Matchers]

@[simp] theorem fault?_withoutLine (s : Statement) : s.withoutLine.fault? = s.fault? := by
  cases s <;> rfl

theorem fault?_eq_none_of_withoutLine {ss ss' : List Statement}
    (h : ss'.map (·.withoutLine) = ss.map (·.withoutLine)) (hss : ∀ s ∈ ss, s.fault? = none) :
    ∀ s ∈ ss', s.fault? = none := by
  intro s hs
  obtain ⟨t, ht, hts⟩ := exists_of_map_withoutLine h.symm hs
  rw [← s.fault?_withoutLine, ← hts, t.fault?_withoutLine]
  exact hss t ht

end Statement

namespace Grammar

variable [Matchers] {options : ParseOptions} {tokens tokens' : List Token} {s : Statement} {ss ws : List Statement}
  {front ks : List TokenKind}

theorem SpellsLine.of_kinds (h : SpellsLine options tokens s) (hkinds : kinds tokens' = kinds tokens) :
    ∃ line, SpellsLine options tokens' (s.withLine line) := by
  obtain ⟨t, rest, rfl, hspells⟩ := h
  obtain ⟨t', rest', rfl, -, -⟩ := List.map_eq_cons_iff.1 hkinds
  refine ⟨t'.position.line, t', rest', rfl, ?_⟩
  rw [hkinds]
  exact hspells.withLine _

theorem SpellsDocument.of_kinds (h : SpellsDocument options tokens ss) (hkinds : kinds tokens' = kinds tokens) :
    ∃ ss', SpellsDocument options tokens' ss' ∧ ss'.map (·.withoutLine) = ss.map (·.withoutLine) := by
  induction h generalizing tokens' with
  | nil =>
    cases List.map_eq_nil_iff.1 hkinds
    exact ⟨[], .nil, rfl⟩
  | newline ht _ ih =>
    obtain ⟨t', rest', rfl, ht', hrest⟩ := List.map_eq_cons_iff.1 hkinds
    obtain ⟨ss', hspells, hss'⟩ := ih hrest
    exact ⟨ss', .newline (ht'.trans ht) hspells, hss'⟩
  | @last tokens s hline =>
    obtain ⟨line, hline'⟩ := hline.of_kinds hkinds
    refine ⟨[s.withLine line], .last hline', ?_⟩
    rw [List.map_singleton, List.map_singleton, Statement.withoutLine_withLine]
  | @line front t rest s statements hline ht _ ih =>
    rw [kinds, kinds, List.map_append, List.map_cons] at hkinds
    obtain ⟨front', _, rfl, hfront, hbehind⟩ := List.map_eq_append_iff.1 hkinds
    obtain ⟨t', rest', rfl, ht', hrest⟩ := List.map_eq_cons_iff.1 hbehind
    obtain ⟨line, hline'⟩ := hline.of_kinds hfront
    obtain ⟨ss', hspells, hss'⟩ := ih hrest
    refine ⟨s.withLine line :: ss', .line hline' (ht'.trans ht) hspells, ?_⟩
    rw [List.map_cons, List.map_cons, Statement.withoutLine_withLine, hss']

/-- The statements, without their lines, that tokens of some kinds spell wherever they stand. -/
def SpellsAnywhere (options : ParseOptions) (ks : List TokenKind) (ws : List Statement) : Prop :=
  ∃ tokens ss, kinds tokens = ks ∧ SpellsDocument options tokens ss ∧ ss.map (·.withoutLine) = ws

theorem spellsAnywhere_kinds : SpellsAnywhere options (kinds tokens) ws ↔
    ∃ ss, SpellsDocument options tokens ss ∧ ss.map (·.withoutLine) = ws := by
  constructor
  · rintro ⟨tokens', ss, hkinds, h, rfl⟩
    exact h.of_kinds hkinds.symm
  · rintro ⟨ss, h, hws⟩
    exact ⟨tokens, ss, rfl, h, hws⟩

theorem spellsAnywhere_nil : SpellsAnywhere options [] ws ↔ ws = [] := by
  constructor
  · rintro ⟨tokens, ss, hkinds, h, rfl⟩
    cases List.map_eq_nil_iff.1 hkinds
    rw [h.unique .nil, List.map_nil]
  · rintro rfl
    exact ⟨[], [], rfl, .nil, rfl⟩

theorem spellsAnywhere_lines : SpellsAnywhere options (front ++ .newline :: ks) ws ↔
    ∃ ws₁ ws₂, SpellsAnywhere options front ws₁ ∧ SpellsAnywhere options ks ws₂ ∧ ws = ws₁ ++ ws₂ := by
  constructor
  · rintro ⟨tokens, ss, hkinds, h, rfl⟩
    obtain ⟨tokens₁, _, rfl, h₁, hbehind⟩ := List.map_eq_append_iff.1 hkinds
    obtain ⟨t, tokens₂, rfl, ht, h₂⟩ := List.map_eq_cons_iff.1 hbehind
    obtain ⟨ss₁, ss₂, hss₁, hss₂, rfl⟩ := (spellsDocument_lines ht).1 h
    exact ⟨_, _, ⟨tokens₁, ss₁, h₁, hss₁, rfl⟩, ⟨tokens₂, ss₂, h₂, hss₂, rfl⟩, List.map_append⟩
  · rintro ⟨_, _, ⟨tokens₁, ss₁, rfl, h₁, rfl⟩, ⟨tokens₂, ss₂, rfl, h₂, rfl⟩, rfl⟩
    have hkinds : kinds (tokens₁ ++ .lineEnd .start :: tokens₂) =
        kinds tokens₁ ++ .newline :: kinds tokens₂ := List.map_append
    have h := (spellsDocument_lines (t := .lineEnd .start) rfl).2 ⟨ss₁, ss₂, h₁, h₂, rfl⟩
    exact ⟨_, _, hkinds, h, List.map_append⟩

theorem spellsAnywhere_leading :
    SpellsAnywhere options (.newline :: ks) ws ↔ SpellsAnywhere options ks ws := by
  rw [← List.nil_append (.newline :: ks), spellsAnywhere_lines]
  simp only [spellsAnywhere_nil, exists_and_left, exists_eq_left, List.nil_append, exists_eq_right']

theorem spellsAnywhere_trailing :
    SpellsAnywhere options (ks ++ [.newline]) ws ↔ SpellsAnywhere options ks ws := by
  rw [spellsAnywhere_lines]
  simp only [spellsAnywhere_nil, exists_and_left, exists_eq_left, List.append_nil, exists_eq_right']

theorem spellsAnywhere_repeated : SpellsAnywhere options (front ++ .newline :: .newline :: ks) ws ↔
    SpellsAnywhere options (front ++ .newline :: ks) ws := by
  simp only [spellsAnywhere_lines, spellsAnywhere_leading]

/-- Whatever stands in front of them, ends of lines that follow one another are as good as the first. -/
theorem spellsAnywhere_destutter' (front : List TokenKind) (k : TokenKind) (ks : List TokenKind) :
    SpellsAnywhere options
        (front ++ ks.destutter' (fun k k' => ¬(k = .newline ∧ k' = .newline)) k) ws ↔
      SpellsAnywhere options (front ++ k :: ks) ws := by
  induction ks generalizing front k with
  | nil => rw [List.destutter'_nil]
  | cons k' ks ih =>
    rw [List.destutter'_cons]
    split
    next =>
      have hk := ih (front ++ [k]) k'
      rwa [List.append_assoc, List.append_assoc] at hk
    next hrepeated =>
      obtain ⟨rfl, rfl⟩ := not_not.1 hrepeated
      rw [ih, spellsAnywhere_repeated]

theorem spellsAnywhere_destutter (ks : List TokenKind) :
    SpellsAnywhere options (ks.destutter fun k k' => ¬(k = .newline ∧ k' = .newline)) ws ↔
      SpellsAnywhere options ks ws := by
  cases ks with
  | nil => rfl
  | cons k ks => exact spellsAnywhere_destutter' [] k ks

theorem spellsAnywhere_dropWhile (ks : List TokenKind) :
    SpellsAnywhere options (ks.dropWhile (· = .newline)) ws ↔ SpellsAnywhere options ks ws := by
  induction ks with
  | nil => rfl
  | cons k ks ih =>
    rw [List.dropWhile_cons]
    split
    next hk =>
      cases of_decide_eq_true hk
      rw [ih, spellsAnywhere_leading]
    next => rfl

theorem spellsAnywhere_rdropWhile (ks : List TokenKind) :
    SpellsAnywhere options (ks.rdropWhile (· = .newline)) ws ↔ SpellsAnywhere options ks ws := by
  induction ks using List.reverseRecOn with
  | nil => rw [List.rdropWhile_nil]
  | append_singleton ks k ih =>
    rw [List.rdropWhile_concat]
    split
    next hk =>
      cases of_decide_eq_true hk
      rw [ih, spellsAnywhere_trailing]
    next => rfl

theorem spellsAnywhere_withoutBlankLines (ks : List TokenKind) :
    SpellsAnywhere options (withoutBlankLines ks) ws ↔ SpellsAnywhere options ks ws := by
  rw [withoutBlankLines, spellsAnywhere_rdropWhile, spellsAnywhere_dropWhile, spellsAnywhere_destutter]

end Grammar

variable {options : ParseOptions} {s₁ s₂ : String}

section

variable [Matchers]

theorem SameButLayout.exists_parse (h : SameButLayout s₁ s₂) {d₁ : Document}
    (hd : (parse options s₁).result = .ok d₁) : ∃ d₂, (parse options s₂).result = .ok d₂ ∧
      d₂.statements.map (·.withoutLine) = d₁.statements.map (·.withoutLine) := by
  obtain ⟨stream₁, stream₂, h₁, h₂, hsame⟩ := h
  obtain ⟨_, htokens, hspells⟩ := parse_eq_ok.1 hd
  cases h₁.symm.trans htokens
  have hanywhere := Grammar.spellsAnywhere_kinds.2 ⟨_, hspells, rfl⟩
  rw [← Grammar.spellsAnywhere_withoutBlankLines, hsame, Grammar.spellsAnywhere_withoutBlankLines] at hanywhere
  obtain ⟨ss, hss, hlines⟩ := Grammar.spellsAnywhere_kinds.1 hanywhere
  have hwell := Statement.fault?_eq_none_of_withoutLine hlines d₁.wellFormed
  exact ⟨⟨ss, hwell⟩, parse_eq_ok.2 ⟨stream₂, h₂, hss⟩, hlines⟩

theorem SameButLayout.statements_eq (h : SameButLayout s₁ s₂) {d₁ d₂ : Document}
    (h₁ : (parse options s₁).result = .ok d₁) (h₂ : (parse options s₂).result = .ok d₂) :
    d₁.statements.map (·.withoutLine) = d₂.statements.map (·.withoutLine) := by
  obtain ⟨d, hd, hlines⟩ := h.exists_parse h₁
  cases h₂.symm.trans hd
  exact hlines.symm

theorem SameButLayout.canonicalForm_eq (h : SameButLayout s₁ s₂) {envelope : Envelope} {c₁ c₂ : Covenant}
    (h₁ : (Covenant.issue envelope s₁).result = .ok c₁)
    (h₂ : (Covenant.issue envelope s₂).result = .ok c₂) : c₁.canonicalForm = c₂.canonicalForm := by
  obtain ⟨henvelope₁, hd₁⟩ := Covenant.of_issue h₁
  obtain ⟨henvelope₂, hd₂⟩ := Covenant.of_issue h₂
  rw [Covenant.canonicalForm_eq_iff_text, henvelope₁, henvelope₂]
  exact ⟨rfl, Document.canonical_eq_of_withoutLine (h.statements_eq hd₁ hd₂)⟩

/-- Layout has no effect on a grant: of two texts that differ in layout only, both have a document or none
has, the statements are the same but for their lines, and a signer signs the same. -/
theorem layout_irrelevant (s₁ s₂ : String) (h : SameButLayout s₁ s₂) :
    (∀ options, ((∃ d, (parse options s₁).result = .ok d) ↔ ∃ d, (parse options s₂).result = .ok d) ∧
      ∀ d₁ d₂, (parse options s₁).result = .ok d₁ → (parse options s₂).result = .ok d₂ →
        d₁.statements.map (·.withoutLine) = d₂.statements.map (·.withoutLine)) ∧
      ∀ envelope c₁ c₂, (Covenant.issue envelope s₁).result = .ok c₁ →
        (Covenant.issue envelope s₂).result = .ok c₂ → c₁.canonicalForm = c₂.canonicalForm := by
  refine ⟨fun options => ⟨⟨?_, ?_⟩, fun d₁ d₂ => h.statements_eq⟩, fun envelope c₁ c₂ => h.canonicalForm_eq⟩
  · rintro ⟨d, hd⟩
    obtain ⟨d', hd', -⟩ := h.exists_parse hd
    exact ⟨d', hd'⟩
  · rintro ⟨d, hd⟩
    obtain ⟨d', hd', -⟩ := h.symm.exists_parse hd
    exact ⟨d', hd'⟩

end

def firstTriesNoted : String :=
  "\n# who may try\n\npermit  read on \"/r/*\" when (not tries > 0.0) # once\n" ++
    "limit read 7 per 120 seconds # and not more often\n"

theorem layout_irrelevant_firstTries :
    SameButLayout Covenant.firstTries firstTriesNoted ∧
      ∃ c₁ c₂, (Covenant.issue Covenant.lastSecond Covenant.firstTries).result = .ok c₁ ∧
        (Covenant.issue Covenant.lastSecond firstTriesNoted).result = .ok c₂ ∧
        c₁.document.statements.map (·.withoutLine) = c₂.document.statements.map (·.withoutLine) ∧
        c₁.canonicalForm = c₂.canonicalForm := by
  have h : SameButLayout Covenant.firstTries firstTriesNoted := by
    decide +kernel
  have hread : (Covenant.issue Covenant.lastSecond Covenant.firstTries).result.toOption.any
      (fun _ => true) = true := by
    decide +kernel
  obtain ⟨c₁, hc₁, -⟩ := exists_of_toOption_any hread
  obtain ⟨hdocuments, hforms⟩ := layout_irrelevant _ _ h
  obtain ⟨hreads, hstatements⟩ := hdocuments {}
  have hd₁ := (Covenant.of_issue hc₁).2
  obtain ⟨d₂, hd₂⟩ := hreads.1 ⟨_, hd₁⟩
  obtain ⟨c₂, hc₂⟩ := Covenant.exists_issue hd₂
  exact ⟨h, c₁, c₂, hc₁, hc₂, hstatements _ _ hd₁ (Covenant.of_issue hc₂).2, hforms _ _ _ hc₁ hc₂⟩

end Delegation
