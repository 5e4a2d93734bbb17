import Delegation.Config.Matchers
import Delegation.Proofs.Covenant.Chain
import Delegation.Proofs.Covenant.Instant
import Delegation.Proofs.Json.Text
import Delegation.Proofs.Source.RoundTrip

namespace Delegation

namespace Identifier

theorem digitChar_inj {m n : Fin 16} (h : Nat.digitChar m.val = Nat.digitChar n.val) : m = n := by
  decide +revert

theorem digitChar_ne_hyphen (n : Fin 16) : Nat.digitChar n.val ≠ '-' := by
  decide +revert

theorem filter_text (id : Identifier) :
    id.text.filter (· ≠ '-') = id.digits.map fun d => Nat.digitChar d.val := by
  unfold text
  dsimp only
  generalize hcs : id.digits.map (fun d => Nat.digitChar d.val) = cs
  have hkeep : ∀ part : List Char, part ⊆ cs → part.filter (· ≠ '-') = part := by
    intro part hpart
    rw [List.filter_eq_self]
    intro c hc
    have hmem := hpart hc
    rw [← hcs] at hmem
    obtain ⟨n, -, rfl⟩ := List.mem_map.1 hmem
    exact decide_eq_true (digitChar_ne_hyphen n)
  have hgroup : ∀ part rest : List Char, part ⊆ cs →
      (part ++ '-' :: rest).filter (· ≠ '-') = part ++ rest.filter (· ≠ '-') := by
    intro part rest hpart
    rw [List.filter_append, hkeep part hpart, List.filter_cons_of_neg (by decide)]
  have hjoin : ∀ n k, (cs.drop n).take k ++ cs.drop (n + k) = cs.drop n := by
    intro n k
    rw [← List.drop_drop, List.take_append_drop]
  have hinner : ∀ n k, (cs.drop n).take k ⊆ cs :=
    fun n k _ hc => List.drop_subset n cs (List.take_subset k _ hc)
  rw [hgroup _ _ (List.take_subset 8 cs), hgroup _ _ (hinner 8 4), hgroup _ _ (hinner 12 4),
    hgroup _ _ (hinner 16 4), hkeep _ (List.drop_subset 20 cs), hjoin 16 4, hjoin 12 4, hjoin 8 4,
    List.take_append_drop]

theorem text_inj {a b : Identifier} (h : a.text = b.text) : a = b := by
  have hfilter := congrArg (List.filter (· ≠ '-')) h
  rw [filter_text, filter_text] at hfilter
  have hdigits := List.map_injective_iff.2 (fun _ _ => digitChar_inj) hfilter
  cases a
  cases b
  congr

end Identifier

namespace Document

variable [Matchers]

/-- No condition compares with an infinite number. -/
def HasFiniteNumbers (d : Document) : Prop :=
  ∀ s ∈ d.statements, ∀ c, s.condition = some c → ∀ x ∈ c.numbers, x.IsFinite

instance (d : Document) : Decidable d.HasFiniteNumbers :=
  decidable_of_iff
    (d.statements.all (fun s => s.condition.all fun c => c.numbers.all (decide ·.IsFinite)) = true) <| by
    simp only [HasFiniteNumbers, List.all_eq_true, Option.all_eq_true, decide_eq_true_eq]

variable {options : ParseOptions} {source source' : String} {d d' : Document}

theorem map_withoutLine_onLines (d : Document) :
    d.onLines.statements.map (·.withoutLine) = d.statements.map (·.withoutLine) :=
  Statement.map_onLines _ Statement.withoutLine_withLine

theorem canonical_eq_of_withoutLine
    (h : d.statements.map (·.withoutLine) = d'.statements.map (·.withoutLine)) :
    d.canonical = d'.canonical := by
  have hline : ∀ s : Statement, s.canonical ++ ['\n'] = s.withoutLine.canonical ++ ['\n'] := by
    intro s
    cases s <;> rfl
  have hlines : ∀ ss : List Statement, ss.flatMap (fun s => s.canonical ++ ['\n']) =
      (ss.map (·.withoutLine)).flatMap fun s => s.canonical ++ ['\n'] := by
    intro ss
    rw [List.flatMap_map]
    exact congrArg (List.flatMap · ss) (funext hline)
  rw [canonical, canonical, hlines, h, ← hlines]

/-- Canonical text is read back, so documents that were read have one text only if they agree but for
lines. -/
theorem canonical_eq_iff (h : (parse options source).result = .ok d)
    (h' : (parse options source').result = .ok d') (hfinite : d.HasFiniteNumbers)
    (hfinite' : d'.HasFiniteNumbers) : d.canonical = d'.canonical ↔
      d.statements.map (·.withoutLine) = d'.statements.map (·.withoutLine) := by
  refine ⟨fun htext => ?_, canonical_eq_of_withoutLine⟩
  have hread := parse_canonical (legible_of_parse h) hfinite
  have hread' := parse_canonical (legible_of_parse h') hfinite'
  rw [htext, hread'] at hread
  have hlines : d'.onLines = d.onLines := Except.ok.inj hread
  rw [← map_withoutLine_onLines d, ← hlines, map_withoutLine_onLines]

end Document

namespace Covenant

theorem endsFraction_zone : Instant.EndsFraction "+00:00".toList := by
  intro c hc
  cases hc
  decide

theorem idJson_inj {a b : Identifier} (h : idJson a = idJson b) : a = b :=
  Identifier.text_inj (String.ofList_inj.1 (Json.string.inj h))

theorem timeJson_inj {s t : Instant} (h : timeJson "+00:00" s = timeJson "+00:00" t) : s = t :=
  Instant.text_inj endsFraction_zone (String.ofList_inj.1 (Json.string.inj h))

section

theorem isTextOrNull_option {α : Type} {f : α → Json} (hf : ∀ a, (f a).IsTextOrNull) (o : Option α) :
    ((o.map f).getD .null).IsTextOrNull := by
  cases o with
  | none => trivial
  | some a => exact hf a

theorem option_inj {α : Type} {f : α → Json} (hf : ∀ a b, f a = f b → a = b) (hnull : ∀ a, f a ≠ .null)
    {o o' : Option α} (h : (o.map f).getD .null = (o'.map f).getD .null) : o = o' := by
  cases o with
  | none =>
    cases o' with
    | none => rfl
    | some b => exact absurd h.symm (hnull b)
  | some a =>
    cases o' with
    | none => exact absurd h (hnull a)
    | some b => rw [hf a b h]

variable [Matchers] {c c' : Covenant}

def signedFields (c : Covenant) : List (String × Json) := [
  ("beneficiary", .string c.beneficiary),
  ("constraints", .string c.document.canonical),
  ("expires_at", (c.expiresAt.map (timeJson "+00:00")).getD .null),
  ("id", idJson c.id),
  ("issued_at", timeJson "+00:00" c.issuedAt),
  ("issuer", .string c.issuer),
  ("parent_id", (c.parentId.map idJson).getD .null)]

theorem isTextOrNull_signedFields (c : Covenant) : ∀ f ∈ c.signedFields, f.2.IsTextOrNull := by
  have htime : ∀ t, (timeJson "+00:00" t).IsTextOrNull := fun _ => trivial
  have hid : ∀ id, (idJson id).IsTextOrNull := fun _ => trivial
  simp only [signedFields, List.forall_mem_cons]
  exact ⟨trivial, trivial, isTextOrNull_option htime _, hid _, htime _, trivial,
    isTextOrNull_option hid _, nofun⟩

/-- A canonical form tells the envelope and the canonical text of the document, and nothing else. -/
theorem canonicalForm_eq_iff_text : c.canonicalForm = c'.canonicalForm ↔
    c.toEnvelope = c'.toEnvelope ∧ c.document.canonical = c'.document.canonical := by
  constructor
  · intro h
    have hfields : c.signedFields = c'.signedFields :=
      Json.write_object_inj (isTextOrNull_signedFields c) (isTextOrNull_signedFields c')
        (String.ofList_inj.1 h)
    simp only [signedFields, List.cons.injEq, Prod.mk.injEq, true_and, and_true,
      Json.string.injEq] at hfields
    obtain ⟨hbeneficiary, htext, hexpires, hid, hissued, hissuer, hparent⟩ := hfields
    have hexpires' := option_inj (fun _ _ => timeJson_inj) nofun hexpires
    have hparent' := option_inj (fun _ _ => idJson_inj) nofun hparent
    obtain ⟨⟨_, _, _, _, _, _⟩, _, _⟩ := c
    obtain ⟨⟨_, _, _, _, _, _⟩, _, _⟩ := c'
    dsimp only at *
    rw [idJson_inj hid, hissuer, hbeneficiary, hparent', timeJson_inj hissued, hexpires']
    exact ⟨rfl, htext⟩
  · rintro ⟨henvelope, htext⟩
    obtain ⟨_, _, _⟩ := c
    obtain ⟨_, _, _⟩ := c'
    cases henvelope
    rw [canonicalForm, canonicalForm, htext]

variable {envelope : Envelope} {constraints : String}

theorem of_issue (h : (issue envelope constraints).result = .ok c) :
    c.toEnvelope = envelope ∧ (parse {} constraints).result = .ok c.document := by
  unfold issue at h
  dsimp only at h
  cases hd : (parse {} constraints).result with
  | error e =>
    rw [hd] at h
    cases h
  | ok d =>
    rw [hd] at h
    cases h
    exact ⟨rfl, rfl⟩

theorem exists_issue {d : Document} (h : (parse {} constraints).result = .ok d) :
    ∃ c, (issue envelope constraints).result = .ok c := by
  unfold issue
  dsimp only
  rw [h]
  exact ⟨_, rfl⟩

/-- Covenants come into being only with constraints that spell their documents. -/
def Issued (c : Covenant) : Prop := ∃ envelope constraints, (issue envelope constraints).result = .ok c

/-- Issued covenants have one canonical form exactly if their envelopes agree, and their statements but for
lines. -/
theorem canonicalForm_eq_iff (c c' : Covenant) (hc : c.Issued) (hc' : c'.Issued)
    (hfinite : c.document.HasFiniteNumbers) (hfinite' : c'.document.HasFiniteNumbers) :
    c.canonicalForm = c'.canonicalForm ↔ c.toEnvelope = c'.toEnvelope ∧
      c.document.statements.map (·.withoutLine) = c'.document.statements.map (·.withoutLine) := by
  obtain ⟨_, _, h⟩ := hc
  obtain ⟨_, _, h'⟩ := hc'
  rw [canonicalForm_eq_iff_text, Document.canonical_eq_iff (of_issue h).2 (of_issue h').2 hfinite hfinite']

/-- Issued to one who needs escapes, for a moment at the end of the year 9999. -/
def lastSecond : Envelope where
  id := numbered (Fin.last 15)
  issuer := "the \"operator\"\n"
  beneficiary := "agent"
  parentId := none
  issuedAt := .mk 4223371679 58 999999999
  expiresAt := some (.mk 4223371679 59 500000)

def firstTries : String :=
  "permit read on '/r/*' when (not tries > 0)\n\nlimit read 7 per 120 seconds"

def firstTriesAgain : String :=
  "permit read on \"/r/*\" when not tries > 0.0 # once\nlimit read 7 per 2 minutes severity high"

def finiteAndSame (c c' : Covenant) : Bool :=
  decide (c.document.HasFiniteNumbers ∧ c'.document.HasFiniteNumbers ∧
    Statement.canonicalLines c.document.statements = Statement.canonicalLines c'.document.statements)

end

theorem canonicalForm_eq_firstTries :
    ∃ c c', (issue lastSecond firstTries).result = .ok c ∧
      (issue lastSecond firstTriesAgain).result = .ok c' ∧
      c.document.HasFiniteNumbers ∧ c'.document.HasFiniteNumbers ∧
      c.canonicalForm = c'.canonicalForm ∧ c.toEnvelope = c'.toEnvelope ∧
      c.document.statements.map (·.withoutLine) = c'.document.statements.map (·.withoutLine) := by
  have hread : (issue lastSecond firstTries).result.toOption.any (fun c =>
      (issue lastSecond firstTriesAgain).result.toOption.any (finiteAndSame c)) = true := by
    decide +kernel
  obtain ⟨c, hc, hread'⟩ := exists_of_toOption_any hread
  obtain ⟨c', hc', hall⟩ := exists_of_toOption_any hread'
  obtain ⟨hfinite, hfinite', hlines⟩ := of_decide_eq_true hall
  have hsame : c.canonicalForm = c'.canonicalForm := by
    rw [canonicalForm_eq_iff_text, (of_issue hc).1, (of_issue hc').1]
    exact ⟨rfl, congrArg String.ofList hlines⟩
  have hgrant := (canonicalForm_eq_iff c c' ⟨_, _, hc⟩ ⟨_, _, hc'⟩ hfinite hfinite').1 hsame
  exact ⟨c, c', hc, hc', hfinite, hfinite', hsame, hgrant⟩

end Covenant

end Delegation
