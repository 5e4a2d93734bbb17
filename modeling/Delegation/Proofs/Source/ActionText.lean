import Delegation.Config.Matchers
import Delegation.Proofs.Source.RoundTrip
import Delegation.Proofs.Source.WellFormed

namespace Delegation

open Lexer

variable {ks : List TokenKind} {pattern : String} {options : ParseOptions}

theorem tokenize_of_lexes {text : List Char} (h : Lexes text ks) :
    ∃ stream, tokenize (String.ofList text) = .ok stream ∧ kinds stream.tokens = ks ∧
      ∀ t ∈ stream.tokens, t.position.line = 1 := by
  obtain ⟨toks, stop, hks, hlines, -, htokens⟩ := h [] .start nofun
  rw [List.append_nil, tokens_nil] at htokens
  refine ⟨.prepend toks ⟨[], stop⟩, ?_, ?_, ?_⟩
  · rw [tokenize, String.toList_ofList]
    exact htokens
  · rw [TokenStream.prepend, List.append_nil]
    exact hks
  · rw [TokenStream.prepend, List.append_nil]
    exact hlines

namespace ActionPattern

def permitText (pattern : String) : String := "permit " ++ pattern ++ " on *"

def permitRule (pattern : String) : AccessRule := ⟨pattern, "*", none, .standard, 1⟩

theorem canonical_permitRule (pattern : String) :
    String.ofList (Statement.access .permit (permitRule pattern)).canonical = permitText pattern := by
  apply String.toList_injective
  have hpermit : "permit ".toList = "permit".toList ++ [' '] := by decide
  have hresource : " on *".toList = " on ".toList ++ canonicalResource "*" := by decide
  have hseverity : canonicalSeverity .standard = [] := rfl
  rw [String.toList_ofList, permitText, String.toList_append, String.toList_append, hpermit, hresource]
  change "permit".toList ++ ' ' :: (pattern.toList ++ " on ".toList ++ canonicalResource "*" ++ [] ++
    canonicalSeverity .standard) = _
  rw [hseverity, List.append_nil, List.append_nil, List.append_assoc, List.append_assoc, List.append_assoc,
    List.singleton_append]

section

variable [Matchers]

theorem fault?_permitRule (h : fault? pattern = none) :
    (Statement.access .permit (permitRule pattern)).fault? = none := by
  have haction : fault? (Statement.access .permit (permitRule pattern)).action = none := h
  rw [Statement.fault?, haction]
  rfl

theorem exists_stream_of_fault? (options : ParseOptions) (h : fault? pattern = none) :
    ∃ stream, tokenize (permitText pattern) = .ok stream ∧
      Grammar.SpellsDocument options stream.tokens [.access .permit (permitRule pattern)] := by
  have hlegible : (Statement.access .permit (permitRule pattern)).Legible options.cap := nofun
  have hlexes := Statement.lexes (s := .access .permit (permitRule pattern)) h hlegible nofun
  obtain ⟨stream, hstream, hkinds, hlines⟩ := tokenize_of_lexes hlexes
  rw [canonical_permitRule] at hstream
  refine ⟨stream, hstream, .last ?_⟩
  have hspells : Grammar.SpellsStatement options 1 (Statement.access .permit (permitRule pattern)).kinds
      (.access .permit (permitRule pattern)) := Statement.spells (fault?_permitRule h) hlegible 1
  rw [← hkinds] at hspells
  cases htokens : stream.tokens with
  | nil =>
    rw [htokens] at hkinds
    exact absurd hkinds.symm (Statement.kinds_ne_nil _)
  | cons t rest =>
    refine ⟨t, rest, rfl, ?_⟩
    rw [← htokens, hlines t (htokens ▸ List.mem_cons_self)]
    exact hspells

/-- Whatever statement the grammar reads, from whatever text, its action passes the check. -/
theorem fault?_of_spellsDocument {source : String} {stream : TokenStream} {ss : List Statement}
    (hstream : tokenize source = .ok stream) (h : Grammar.SpellsDocument options stream.tokens ss) :
    ∀ s ∈ ss, fault? s.action = none :=
  Grammar.forall_of_spellsDocument (fun hs hlexed => Grammar.actionFault?_of_spellsStatement hs hlexed) h
    (lexed_of_tokens hstream)

/-- A text passes the check of action patterns just if a permit for it is read as one statement, a permit for
that text: by the grammar alone, and with the check that documents make. -/
theorem fault?_eq_none_iff_read (options : ParseOptions) (pattern : String) :
    (fault? pattern = none ↔ ∃ d r, (parse options ("permit " ++ pattern ++ " on *")).result = .ok d ∧
        d.statements = [.access .permit r] ∧ r.action = pattern) ∧
      (fault? pattern = none ↔ ∃ stream r, tokenize ("permit " ++ pattern ++ " on *") = .ok stream ∧
        (Grammar.statements options stream.tokens).2 = .ok [.access .permit r] ∧ r.action = pattern) := by
  constructor
  · constructor
    · intro h
      obtain ⟨stream, hstream, hspells⟩ := exists_stream_of_fault? options h
      have hwell : ∀ s ∈ [Statement.access .permit (permitRule pattern)], s.fault? = none :=
        List.forall_mem_singleton.2 (fault?_permitRule h)
      exact ⟨⟨_, hwell⟩, permitRule pattern, parse_eq_ok.2 ⟨stream, hstream, hspells⟩, rfl, rfl⟩
    · rintro ⟨d, r, hd, hstatements, rfl⟩
      obtain ⟨stream, hstream, hspells⟩ := parse_eq_ok.1 hd
      exact fault?_of_spellsDocument hstream hspells (.access .permit r) (hstatements ▸ List.mem_cons_self)
  · constructor
    · intro h
      obtain ⟨stream, hstream, hspells⟩ := exists_stream_of_fault? options h
      exact ⟨stream, permitRule pattern, hstream, Grammar.statements_complete hspells, rfl⟩
    · rintro ⟨stream, r, hstream, hread, rfl⟩
      have hspells := Grammar.statements_sound hread
      exact fault?_of_spellsDocument hstream hspells (.access .permit r) List.mem_cons_self

end

example : (parse {} (permitText "x on y #")).result.toOption.map (·.statements.map (·.action)) = some ["x"] ∧
    fault? "x on y #" = some (.badSegment "x on y #".toList) := by
  decide +kernel

end ActionPattern

end Delegation
