import Delegation.Config.Matchers
import Delegation.Proofs.Number.Nearest
import Delegation.Proofs.Source.Failure
import Delegation.Proofs.Source.Lines
import Delegation.Proofs.Source.Pieces
import Mathlib.Data.List.Forall2

namespace Delegation

/-- The numbers of a limit as they are written, with its unit and its line. -/
structure LimitText where
  count : List Char
  amount : List Char
  unit : String
  line : Nat

namespace LimitText

def isNumber : TokenKind → Bool
  | .number _ => true
  | _ => false

/-- The limit that a line of tokens writes. Its count is the first number there, since no action has one. -/
def ofLine? : List Token → Option LimitText
  | [] => none
  | t :: rest =>
    if t.kind = .keyword .limit then
      match rest.dropWhile (!isNumber ·.kind) with
      | count :: per :: amount :: unit :: _ =>
        match per.kind, amount.kind, unit.kind with
        | .keyword .per, .number _, .word name => some ⟨count.lexeme, amount.lexeme, name, t.position.line⟩
        | _, _, _ => none
      | _ => none
    else none

/-- The limits of some lines of tokens. -/
def inLines (tokens : List Token) : List LimitText :=
  (tokens.splitOnP (·.kind = .newline)).filterMap ofLine?

def seconds (w : LimitText) : Nat := (unitSeconds? w.unit).getD 1

/-- The rule of a limit, by the numbers that literals stand for. -/
structure Gives (standsFor : List Char → Nat → Prop) (w : LimitText) (r : LimitRule) : Prop where
  line : r.line = w.line
  count : standsFor w.count r.count
  period : ∃ amount, standsFor w.amount amount ∧ r.period = amount * w.seconds
  period_pos : 0 < r.period
  period_le : r.period ≤ maxCount

/-- The number that a literal writes, if it may be a count. -/
def Writes (literal : List Char) (n : Nat) : Prop := decimalValue literal = n ∧ n ≤ maxCount

/-- The number that the value nearest to a literal is; two to the 64th counts as the largest count. -/
def RoundsTo (literal : List Char) (n : Nat) : Prop :=
  ∃ m, (Binary64.nearest (decimalValue literal)).toNat? = some m ∧ m ≤ maxCount + 1 ∧ n = min m maxCount

/-- What binary64 holds of the counts: those of at most 53 binary digits before their zeros. The largest count
is held as two to the 64th. -/
def IsHeld (literal : List Char) : Prop :=
  ∃ n, Writes literal n ∧ (Binary64.Representable n ∨ n = maxCount)

end LimitText

def TokenStream.limitTexts (stream : TokenStream) : List LimitText := LimitText.inLines stream.tokens

namespace LimitText

open Grammar

section Literals

variable {literal : List Char} {n : Nat} {x : Binary64} {w : LimitText} {r : LimitRule}

theorem quantity?_congr {y : Binary64} (h : x.toNat? = y.toNat?) : quantity? x = quantity? y := by
  rw [quantity?, quantity?, h]

theorem roundsTo_iff :
    RoundsTo literal n ↔ quantity? (Binary64.nearest (decimalValue literal)) = some n := by
  constructor
  · rintro ⟨m, hm, hle, rfl⟩
    exact quantity?_of_toNat? hm hle
  · intro h
    obtain ⟨x, m, hx, hm⟩ := spellsQuantity_iff.2 ⟨_, rfl, h⟩
    cases hx
    exact ⟨m, hm⟩

theorem RoundsTo.unique {m : Nat} (hm : RoundsTo literal m) (hn : RoundsTo literal n) : m = n := by
  rw [roundsTo_iff] at hm hn
  exact Option.some.inj (hm.symm.trans hn)

theorem IsHeld.exists_roundsTo (h : IsHeld literal) : ∃ n, Writes literal n ∧ RoundsTo literal n := by
  obtain ⟨n, ⟨hvalue, hle⟩, hheld⟩ := h
  refine ⟨n, ⟨hvalue, hle⟩, ?_⟩
  rw [roundsTo_iff, hvalue, Binary64.nearest_natCast]
  rcases hheld with hrep | rfl
  · exact readable_of_representable hrep hle
  · exact readable_maxCount

theorem writes_iff_isHeld (h : RoundsTo literal n) : Writes literal n ↔ IsHeld literal := by
  constructor
  · intro hwrites
    exact ⟨n, hwrites, (representable_or_eq (roundsTo_iff.1 h)).2⟩
  · intro hheld
    obtain ⟨m, hwrites, hrounds⟩ := hheld.exists_roundsTo
    rw [h.unique hrounds]
    exact hwrites

theorem gives_writes_iff (h : w.Gives RoundsTo r) :
    w.Gives Writes r ↔ IsHeld w.count ∧ IsHeld w.amount := by
  obtain ⟨amount, hamount, hperiod⟩ := h.period
  have hseconds : 0 < w.seconds := by
    apply Nat.pos_of_ne_zero
    intro hzero
    rw [hzero, Nat.mul_zero] at hperiod
    exact absurd h.period_pos (hperiod ▸ Nat.lt_irrefl 0)
  constructor
  · intro hwrites
    obtain ⟨amount', hamount', hperiod'⟩ := hwrites.period
    have hsame : amount' = amount := Nat.eq_of_mul_eq_mul_right hseconds (hperiod'.symm.trans hperiod)
    exact ⟨(writes_iff_isHeld h.count).1 hwrites.count, (writes_iff_isHeld hamount).1 (hsame ▸ hamount')⟩
  · rintro ⟨hcount, hheld⟩
    exact ⟨h.line, (writes_iff_isHeld h.count).2 hcount, ⟨amount, (writes_iff_isHeld hamount).2 hheld, hperiod⟩,
      h.period_pos, h.period_le⟩

end Literals

variable {options : ParseOptions} {tokens front rest : List Token} {t : Token} {s : Statement}
  {ss : List Statement} {x : Binary64} {n : Nat}

theorem roundsTo_of_scanned (h : Lexer.Scanned t) (hkind : t.kind = .number x) (hn : quantity? x = some n) :
    RoundsTo t.lexeme n := by
  obtain ⟨afterDot, c, cs, more, hscan, hlexeme⟩ := h
  rw [hkind] at hscan
  obtain ⟨negative, l, rfl, htext⟩ := Lexer.exists_literal_of_scan hscan
  have hnearest := Binary64.toNat?_ofLiteral negative l
  rw [← htext, ← hlexeme] at hnearest
  rw [quantity?_congr hnearest] at hn
  exact roundsTo_iff.2 hn

theorem not_isNumber_of_action {action : String} (h : SpellsAction (kinds tokens) action) :
    ∀ t ∈ tokens, (!isNumber t.kind) = true := by
  intro t ht
  cases hkind : t.kind with
  | number x =>
    have hnot : .number x ∉ kinds tokens := notMem_path (Lexer.number_ne_dot x) rfl rfl h
    exact absurd (hkind ▸ List.mem_map_of_mem ht) hnot
  | _ => rfl

theorem splits_only_newlines (h : .newline ∉ kinds front) : ∀ t ∈ front, decide (t.kind = .newline) = false := by
  intro t ht
  rw [decide_eq_false_iff_not]
  intro hkind
  exact h (hkind ▸ List.mem_map_of_mem ht)

theorem inLines_single (h : .newline ∉ kinds front) : inLines front = (ofLine? front).toList := by
  rw [inLines, List.splitOnP_eq_singleton (splits_only_newlines h), List.filterMap_eq_flatMap_toList,
    List.flatMap_singleton]

theorem inLines_line (h : .newline ∉ kinds front) (ht : t.kind = .newline) :
    inLines (front ++ t :: rest) = (ofLine? front).toList ++ inLines rest := by
  rw [inLines, inLines, List.splitOnP_append_cons_of_forall_mem (splits_only_newlines h) t (decide_eq_true ht),
    List.filterMap_eq_flatMap_toList, List.filterMap_eq_flatMap_toList, List.flatMap_cons]

variable [Matchers]

/-- The line of a limit writes it, and its rule is what the literals there are nearest to. -/
theorem exists_ofLine? {r : LimitRule} (h : SpellsLine options front (.limit r))
    (hscanned : ∀ t ∈ front, Lexer.Scanned t) : ∃ w, ofLine? front = some w ∧ w.Gives RoundsTo r := by
  obtain ⟨t, tokens, rfl, body, hks, as, x, y, unit, ss, amount, seconds, rfl, ha, hx, hy, hunit, hperiod, hmax,
    hzero, -, hline⟩ := h
  obtain ⟨ht, hbody⟩ := List.cons_eq_cons.1 hks
  obtain ⟨xs, ys, rfl, rfl, hks₀⟩ := kinds_eq_append hbody
  obtain ⟨t₁, ys₁, rfl, ht₁, hks₁⟩ := kinds_eq_cons hks₀
  obtain ⟨t₂, ys₂, rfl, ht₂, hks₂⟩ := kinds_eq_cons hks₁
  obtain ⟨t₃, ys₃, rfl, ht₃, hks₃⟩ := kinds_eq_cons hks₂
  obtain ⟨t₄, ys₄, rfl, ht₄, -⟩ := kinds_eq_cons hks₃
  have hcount : ¬(!isNumber t₁.kind) = true := by
    rw [ht₁]
    exact Bool.false_ne_true
  refine ⟨⟨t₁.lexeme, t₃.lexeme, unit, t.position.line⟩, ?_, hline, ?_, ⟨amount, ?_, ?_⟩, ?_, hmax⟩
  · rw [ofLine?, if_pos ht, List.dropWhile_append_of_pos (not_isNumber_of_action ha), List.dropWhile_cons,
      if_neg hcount]
    simp only [ht₂, ht₃, ht₄]
  · exact roundsTo_of_scanned (hscanned t₁ (by simp)) ht₁ hx
  · exact roundsTo_of_scanned (hscanned t₃ (by simp)) ht₃ hy
  · rw [hperiod, LimitText.seconds]
    rcases hunit with hunit | ⟨hunit, -, rfl⟩
    · rw [hunit, Option.getD_some]
    · rw [hunit, Option.getD_none]
  · exact Nat.pos_of_ne_zero hzero

theorem ofLine?_of_access {kind : AccessKind} {r : AccessRule} (h : SpellsLine options front (.access kind r)) :
    ofLine? front = none := by
  obtain ⟨t, rest, rfl, k, body, hks, hkind, -⟩ := h
  obtain ⟨ht, -⟩ := List.cons_eq_cons.1 hks
  rw [ofLine?, if_neg]
  intro hlimit
  have hlimit' : k = .keyword .limit := ht.symm.trans hlimit
  rw [hlimit'] at hkind
  cases hkind

theorem gives_of_line (h : SpellsLine options front s) (hscanned : ∀ t ∈ front, Lexer.Scanned t) :
    List.Forall₂ (Gives RoundsTo) (ofLine? front).toList s.limit?.toList := by
  cases s with
  | access kind r =>
    rw [ofLine?_of_access h]
    exact .nil
  | limit r =>
    obtain ⟨w, hw, hgives⟩ := exists_ofLine? h hscanned
    rw [hw]
    exact .cons hgives .nil

theorem gives_of_spellsDocument (h : SpellsDocument options tokens ss) (hscanned : ∀ t ∈ tokens, Lexer.Scanned t) :
    List.Forall₂ (Gives RoundsTo) (inLines tokens) (ss.filterMap (·.limit?)) := by
  rw [List.filterMap_eq_flatMap_toList]
  induction h with
  | nil => exact .nil
  | @newline t tokens ss ht _ ih =>
    have hline : inLines ([] ++ t :: tokens) = (ofLine? []).toList ++ inLines tokens :=
      inLines_line List.not_mem_nil ht
    rw [List.nil_append] at hline
    rw [hline]
    exact ih (List.forall_mem_cons.1 hscanned).2
  | last hline =>
    rw [inLines_single hline.newline_notMem, List.flatMap_singleton]
    exact gives_of_line hline hscanned
  | line hline ht _ ih =>
    obtain ⟨hfront, hrest⟩ := List.forall_mem_append.1 hscanned
    rw [inLines_line hline.newline_notMem ht, List.flatMap_cons]
    exact List.rel_append (gives_of_line hline hfront) (ih (List.forall_mem_cons.1 hrest).2)

end LimitText

open LimitText

/-- Every limit of a document that is read has the numbers that the values nearest to its literals are. These
are the numbers that are written just if binary64 holds both. A line on which the nearest values are no count
and no period of a limit is refused. -/
theorem limits_read_nearest [Matchers] (options : ParseOptions) (source : String) (stream : TokenStream)
    (h : tokenize source = .ok stream) :
    (∀ d, (parse options source).result = .ok d →
        List.Forall₂ (fun w r => w.Gives RoundsTo r ∧ (w.Gives Writes r ↔ IsHeld w.count ∧ IsHeld w.amount))
          stream.limitTexts d.limits) ∧
      ∀ w ∈ stream.limitTexts, (∀ r, ¬w.Gives RoundsTo r) →
        ∃ fault found position, (parse options source).result = .error (.grammar fault found position) := by
  have hscanned : ∀ t ∈ stream.tokens, Lexer.Scanned t := And.right (Lexer.laysOut_of_tokenize h)
  constructor
  · intro d hd
    obtain ⟨stream', hstream', hspells⟩ := parse_eq_ok.1 hd
    cases h.symm.trans hstream'
    exact (gives_of_spellsDocument hspells hscanned).imp fun w r hgives => ⟨hgives, gives_writes_iff hgives⟩
  · intro w hw hnone
    cases hss : (Grammar.statements options stream.tokens).2 with
    | error refusal => exact ⟨_, _, _, parse_of_refusal h hss⟩
    | ok ss =>
      have hgives := gives_of_spellsDocument (Grammar.statements_sound hss) hscanned
      have hsome := hgives.imp fun w r hr => And.intro (Exists.intro r hr) hr
      obtain ⟨r, hr⟩ := ((List.forall₂_and_left _ _).1 hsome).1 w hw
      exact absurd hr (hnone r)

theorem limits_read_nearest_twoMinutes :
    ∃ stream d, tokenize "permit a on *\nlimit a 5 per 2 minutes" = .ok stream ∧
      (parse {} "permit a on *\nlimit a 5 per 2 minutes").result = .ok d ∧
      d.limits = [⟨"a", 5, 120, .high, 2⟩] ∧ List.Forall₂ (Gives RoundsTo) stream.limitTexts d.limits := by
  have hread : (parse {} "permit a on *\nlimit a 5 per 2 minutes").result.toOption.any
      (fun d => d.limits = [⟨"a", 5, 120, .high, 2⟩]) = true := by
    decide +kernel
  obtain ⟨d, hd, hlimits⟩ := exists_of_toOption_any hread
  obtain ⟨stream, hstream, -⟩ := parse_eq_ok.1 hd
  have hnearest := (limits_read_nearest _ _ stream hstream).1 d hd
  exact ⟨stream, d, hstream, hd, of_decide_eq_true hlimits, hnearest.imp fun _ _ h => h.1⟩

/-- A limit whose count is a fraction just above one. -/
def aboveOne : String := "limit a 1.00000000000000001 per 1 hour"

/-- Limits are not always what their literals write: a fraction is read as a count. -/
theorem not_limits_read_exactly : ¬ ∀ (options : ParseOptions) (source : String) (stream : TokenStream),
    tokenize source = .ok stream →
      (∀ d, (parse options source).result = .ok d → List.Forall₂ (Gives Writes) stream.limitTexts d.limits) ∧
        ∀ w ∈ stream.limitTexts, (∀ r, ¬w.Gives Writes r) →
          ∃ fault found position, (parse options source).result = .error (.grammar fault found position) := by
  intro h
  have hread : (parse {} aboveOne).result.toOption.any (fun d => d.limits = [⟨"a", 1, 3600, .high, 1⟩]) = true := by
    decide +kernel
  have htexts : (tokenize aboveOne).toOption.any
      (fun stream => stream.limitTexts.map (·.count) = ["1.00000000000000001".toList]) = true := by
    decide +kernel
  have hvalue : decimalValue "1.00000000000000001".toList ≠ 1 := by decide +kernel
  obtain ⟨d, hd, hlimits⟩ := exists_of_toOption_any hread
  obtain ⟨stream, hstream, hcounts⟩ := exists_of_toOption_any htexts
  have hgives := (h {} aboveOne stream hstream).1 d hd
  rw [of_decide_eq_true hlimits] at hgives
  obtain ⟨w, ws, hw, -, htexts⟩ := List.forall₂_cons_right_iff.1 hgives
  have hcount : w.count = "1.00000000000000001".toList := by
    have hmap := of_decide_eq_true hcounts
    rw [htexts, List.map_cons] at hmap
    exact (List.cons.inj hmap).1
  have hone : decimalValue w.count = 1 := hw.count.1.trans Nat.cast_one
  rw [hcount] at hone
  exact hvalue hone

end Delegation
