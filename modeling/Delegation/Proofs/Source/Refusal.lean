import Delegation.Proofs.Source.StatementReading

namespace Delegation

namespace Grammar

variable {α β : Type} {tokens ts : List Token} {rest : α → List Token} {rest' : β → List Token}

/-- What is left after reading, and at a refusal, is an end of the tokens. -/
structure Within (tokens : List Token) (rest : α → List Token) (result : Except Refusal α) : Prop where
  read : ∀ a, result = .ok a → rest a <:+ tokens
  refused : ∀ refusal, result = .error refusal → refusal.tokens <:+ tokens

theorem within_ok {a : α} (h : rest a <:+ tokens) : Within tokens rest (.ok a) where
  read _ ha := Except.ok.inj ha ▸ h
  refused := nofun

theorem within_refuse {fault : GrammarFault} (h : ts <:+ tokens) :
    Within tokens rest (refuse fault ts) where
  read := nofun
  refused _ hr := Except.error.inj hr ▸ h

theorem Within.of_suffix {result : Except Refusal α} (h : Within ts rest result)
    (hts : ts <:+ tokens) : Within tokens rest result where
  read a ha := (h.read a ha).trans hts
  refused r hr := (h.refused r hr).trans hts

theorem Within.bind {x : Except Refusal α} {f : α → Except Refusal β} (hx : Within tokens rest x)
    (hf : ∀ a, rest a <:+ tokens → Within tokens rest' (f a)) : Within tokens rest' (x >>= f) := by
  cases x with
  | error e => exact ⟨nofun, fun _ hr => Except.error.inj hr ▸ hx.refused e rfl⟩
  | ok a => exact hf a (hx.read a rfl)

theorem Within.andThen {x : Except Refusal α} {f : α → Except Refusal β} (hx : Within tokens rest x)
    (hf : ∀ a, Within (rest a) rest' (f a)) : Within tokens rest' (x >>= f) :=
  hx.bind fun a ha => (hf a).of_suffix ha

theorem within_token (kind : TokenKind) (what : Wanted) (tokens : List Token) :
    Within tokens Parsed.rest (token kind what tokens) := by
  cases tokens with
  | nil => exact within_refuse List.suffix_rfl
  | cons t ts =>
    rw [token]
    split
    · exact within_ok (List.suffix_cons t ts)
    · exact within_refuse List.suffix_rfl

theorem within_one (make : TokenKind → Option α) (what : Wanted) (tokens : List Token) :
    Within tokens Parsed.rest (one make what tokens) := by
  cases tokens with
  | nil => exact within_refuse List.suffix_rfl
  | cons t ts =>
    rw [one]
    split
    · exact within_ok (List.suffix_cons t ts)
    · exact within_refuse List.suffix_rfl

theorem within_segments (segment? : TokenKind → Option (List Char)) (what : Wanted)
    (tokens : List Token) : Within tokens Trailing.rest (segments segment? what tokens) := by
  induction hn : tokens.length using Nat.strongRecOn generalizing tokens with
  | ind n ih =>
    unfold segments
    split
    next => exact within_ok List.suffix_rfl
    next t ts =>
      split
      next =>
        split
        next => exact within_refuse List.nil_suffix
        next s ts =>
          have hts : ts <:+ t :: s :: ts := (List.suffix_cons s ts).trans (List.suffix_cons t _)
          have hmore := ih ts.length (by simp only [List.length_cons] at hn; omega) ts rfl
          split
          next => exact within_refuse (List.suffix_cons t _)
          next =>
            split
            next e he => exact within_refuse ((hmore.refused e he).trans hts)
            next more rest h hok => exact within_ok ((hmore.read _ hok).trans hts)
      next => exact within_ok List.suffix_rfl

theorem within_path (first? segment? : TokenKind → Option (List Char))
    (wantFirst wantSegment : Wanted) (tokens : List Token) :
    Within tokens Parsed.rest (path first? segment? wantFirst wantSegment tokens) := by
  apply (within_one first? wantFirst tokens).andThen
  intro first
  apply (within_segments segment? wantSegment first.rest).andThen
  intro more
  exact within_ok List.suffix_rfl

theorem within_resource (tokens : List Token) : Within tokens Parsed.rest (resource tokens) := by
  have hone := within_one resourceText? .resource tokens
  rw [resource]
  split
  next value rest h hok =>
    split
    · exact within_refuse List.suffix_rfl
    · exact within_ok (hone.read _ hok)
  next e he => exact within_refuse (hone.refused e he)

theorem within_severityClause (tokens : List Token) :
    Within tokens Trailing.rest (severityClause tokens) := by
  unfold severityClause
  split
  next => exact within_ok List.suffix_rfl
  next t ts =>
    split
    next =>
      split
      next => exact within_refuse List.nil_suffix
      next s ts =>
        split
        next =>
          split
          next => exact within_ok ((List.suffix_cons s ts).trans (List.suffix_cons t _))
          next => exact within_refuse (List.suffix_cons t _)
        next => exact within_refuse (List.suffix_cons t _)
    next => exact within_ok List.suffix_rfl

theorem within_quantity (q : Quantity) (tokens : List Token) :
    Within tokens Parsed.rest (quantity q tokens) := by
  unfold quantity
  split
  next => exact within_refuse List.suffix_rfl
  next t ts =>
    split
    next =>
      split
      next => exact within_ok (List.suffix_cons t ts)
      next => exact within_refuse List.suffix_rfl
    next => exact within_refuse List.suffix_rfl

theorem within_separated {item : Production α} (hitem : ∀ ts, Within ts Parsed.rest (item ts))
    (separator : TokenKind) (tokens : List Token) :
    Within tokens Parsed.rest (separated item separator tokens) := by
  induction hn : tokens.length using Nat.strongRecOn generalizing tokens with
  | ind n ih =>
    rw [separated]
    apply (hitem tokens).bind
    intro first hrest
    dsimp only
    split
    next hempty _ =>
      rw [hempty] at hrest
      exact within_ok hrest
    next t ts hlen hcons _ =>
      rw [hcons] at hrest
      have hts : ts <:+ tokens := (List.suffix_cons t ts).trans hrest
      split
      next =>
        have hmore := ih ts.length (by simp only [List.length_cons] at hlen; omega) ts rfl
        apply (hmore.of_suffix hts).andThen
        intro more
        exact within_ok List.suffix_rfl
      next => exact within_ok hrest

theorem within_value (cap levels : Nat) (tokens : List Token) :
    Within tokens Parsed.rest (value cap levels tokens) := by
  induction levels using Nat.strongRecOn generalizing tokens with
  | ind levels ih =>
    cases tokens with
    | nil =>
      unfold value
      exact within_refuse List.suffix_rfl
    | cons t ts =>
      unfold value
      dsimp only
      split
      next => exact within_ok (List.suffix_cons t ts)
      next => exact within_ok (List.suffix_cons t ts)
      next => exact within_ok (List.suffix_cons t ts)
      next => exact within_ok (List.suffix_cons t ts)
      next =>
        split
        next => exact within_refuse List.suffix_rfl
        next n =>
          have hitem := ih n (Nat.lt_succ_self n)
          apply ((within_separated hitem .comma ts).of_suffix (List.suffix_cons t ts)).andThen
          intro items
          apply (within_token .closeBracket (.closing .closeBracket) items.rest).andThen
          intro close
          exact within_ok List.suffix_rfl
      next => exact within_refuse List.suffix_rfl

theorem within_conjunction {operand : Production Condition}
    (h : ∀ ts, Within ts Parsed.rest (operand ts)) (tokens : List Token) :
    Within tokens Parsed.rest (conjunction operand tokens) := by
  apply (within_separated h (.keyword .and) tokens).andThen
  intro cs
  exact within_ok List.suffix_rfl

theorem within_disjunction {operand : Production Condition}
    (h : ∀ ts, Within ts Parsed.rest (operand ts)) (tokens : List Token) :
    Within tokens Parsed.rest (disjunction operand tokens) := by
  apply (within_separated (within_conjunction h) (.keyword .or) tokens).andThen
  intro cs
  exact within_ok List.suffix_rfl

/-- A limit may still be refused at its unit once it is read. -/
theorem within_writtenLimit (tokens : List Token) :
    Within tokens (fun w => w.value.unitTokens) (writtenLimit tokens) := by
  apply (within_path _ _ _ _ tokens).andThen
  intro action
  apply (within_quantity .count action.rest).andThen
  intro count
  apply (within_token _ _ count.rest).andThen
  intro per
  apply (within_quantity .period per.rest).andThen
  intro amount
  apply (within_one unitWord? .timeUnit amount.rest).bind
  intro unit _
  exact within_ok List.suffix_rfl

theorem rest_suffix_unitTokens {w : Parsed WrittenLimit tokens} (h : writtenLimit tokens = .ok w) :
    w.rest <:+ w.value.unitTokens := by
  obtain ⟨_, _, _, _, ts, line, -, -, -, -, hunit, -, hw⟩ := reads_writtenLimit.1 ⟨w.shorter, h⟩
  obtain ⟨t, rfl, -⟩ := reads_unit.1 hunit
  rw [hw]
  exact List.suffix_cons t w.rest

theorem within_limitRule {line seconds : Nat} {w : WrittenLimit} (hunit : w.unitTokens <:+ ts)
    (hrest : tokens <:+ ts) : Within ts Trailing.rest (limitRule line seconds w tokens) := by
  rw [limitRule]
  dsimp only
  split
  · exact within_refuse hunit
  · split
    · exact within_refuse hunit
    · apply ((within_severityClause tokens).of_suffix hrest).andThen
      intro severity
      exact within_ok List.suffix_rfl

theorem within_limit (strict : Bool) (line : Nat) (tokens : List Token) :
    Within tokens Parsed.rest (limit strict line tokens).2 := by
  have hwritten := within_writtenLimit tokens
  rw [limit]
  split
  next e he => exact within_refuse (hwritten.refused e he)
  next w ts hlen hok =>
    have hunit := hwritten.read _ hok
    have hrest := (rest_suffix_unitTokens hok).trans hunit
    have hrule : ∀ seconds, Within tokens Trailing.rest (limitRule line seconds w ts) :=
      fun _ => within_limitRule hunit hrest
    dsimp only
    split
    next seconds _ =>
      apply (hrule seconds).andThen
      intro rule
      exact within_ok List.suffix_rfl
    next =>
      split
      · exact within_refuse hunit
      · apply (hrule 1).andThen
        intro rule
        exact within_ok List.suffix_rfl

variable [Matchers]

theorem within_comparison (cap levels : Nat) (tokens : List Token) :
    Within tokens Parsed.rest (comparison cap levels tokens) := by
  apply (within_path _ _ _ _ tokens).andThen
  intro field
  apply (within_one operator? .operator field.rest).andThen
  intro op
  apply (within_value cap levels op.rest).bind
  intro literal hliteral
  dsimp only
  split
  · exact within_refuse List.suffix_rfl
  · exact within_ok hliteral

theorem within_operand (cap levels : Nat) (tokens : List Token) :
    Within tokens Parsed.rest (operand cap levels tokens) := by
  induction levels using Nat.strongRecOn generalizing tokens with
  | ind levels ih =>
    cases tokens with
    | nil =>
      unfold operand
      exact within_comparison cap levels []
    | cons t ts =>
      unfold operand
      dsimp only
      split
      next =>
        split
        next => exact within_refuse (List.suffix_cons t ts)
        next n =>
          have hinner := ih n (Nat.lt_succ_self n) ts
          apply (hinner.of_suffix (List.suffix_cons t ts)).andThen
          intro c
          exact within_ok List.suffix_rfl
      next =>
        split
        next => exact within_refuse (List.suffix_cons t ts)
        next n =>
          have hinner := within_disjunction (ih n (Nat.lt_succ_self n)) ts
          apply (hinner.of_suffix (List.suffix_cons t ts)).andThen
          intro c
          apply (within_token .closeParen (.closing .closeParen) c.rest).andThen
          intro close
          exact within_ok List.suffix_rfl
      next => exact within_comparison cap levels (t :: ts)

theorem within_condition (cap : Nat) (tokens : List Token) :
    Within tokens Parsed.rest (condition cap tokens) := by
  cases cap with
  | zero => exact within_refuse List.suffix_rfl
  | succ levels => exact within_disjunction (within_operand (levels + 1) levels) tokens

theorem within_whenClause (cap : Nat) (tokens : List Token) :
    Within tokens Trailing.rest (whenClause cap tokens) := by
  unfold whenClause
  split
  next => exact within_ok List.suffix_rfl
  next t ts =>
    split
    next =>
      apply ((within_condition cap ts).of_suffix (List.suffix_cons t ts)).andThen
      intro c
      exact within_ok List.suffix_rfl
    next => exact within_ok List.suffix_rfl

theorem within_accessRule (cap line : Nat) (tokens : List Token) :
    Within tokens Parsed.rest (accessRule cap line tokens) := by
  apply (within_path _ _ _ _ tokens).andThen
  intro action
  apply (within_token _ _ action.rest).andThen
  intro on
  apply (within_resource on.rest).andThen
  intro resource
  apply (within_whenClause cap resource.rest).andThen
  intro condition
  apply (within_severityClause condition.rest).andThen
  intro severity
  exact within_ok List.suffix_rfl

theorem within_statement (options : ParseOptions) (tokens : List Token) :
    Within tokens Parsed.rest (statement options tokens).2 := by
  unfold statement
  split
  next => exact within_refuse List.suffix_rfl
  next t ts =>
    have hts := List.suffix_cons t ts
    split
    next =>
      apply ((within_accessRule options.cap t.position.line ts).of_suffix hts).andThen
      intro rule
      exact within_ok List.suffix_rfl
    next =>
      split
      next =>
        have hlimit := within_limit options.strictTimeUnits t.position.line ts
        apply (hlimit.of_suffix hts).andThen
        intro rule
        exact within_ok List.suffix_rfl
      next => exact within_refuse List.suffix_rfl

/-- The statements of a source are refused at one of its tokens or at their end. -/
theorem refusal_suffix {options : ParseOptions} {refusal : Refusal}
    (h : (statements options tokens).2 = .error refusal) : refusal.tokens <:+ tokens := by
  induction hn : tokens.length using Nat.strongRecOn generalizing tokens with
  | ind n ih =>
    rw [statements.eq_def] at h
    split at h
    next => cases h
    next t ts =>
      have hstatement := within_statement options (t :: ts)
      split at h
      next =>
        have hmore := ih ts.length (by simp only [List.length_cons] at hn; omega) h rfl
        exact hmore.trans (List.suffix_cons t ts)
      next =>
        split at h
        next e he =>
          cases h
          exact hstatement.refused _ (congrArg Prod.snd he)
        next => cases h
        next s t' ts' hlen hok =>
          have hrest : t' :: ts' <:+ t :: ts := hstatement.read _ (congrArg Prod.snd hok)
          split at h
          next =>
            dsimp only at h
            cases hmore : (statements options ts').2 with
            | ok more =>
              rw [hmore] at h
              cases h
            | error e =>
              rw [hmore] at h
              cases h
              have hshort : ts'.length < n := by
                simp only [List.length_cons] at hlen hn
                omega
              have hsuffix := ih ts'.length hshort hmore rfl
              exact (hsuffix.trans (List.suffix_cons t' ts')).trans hrest
          next =>
            cases h
            exact hrest

end Grammar

end Delegation
