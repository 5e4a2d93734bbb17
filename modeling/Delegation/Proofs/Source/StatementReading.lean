import Delegation.Proofs.Source.ConditionReading

namespace Delegation

namespace Grammar

variable {tokens rest : List Token}

def EndsLine (k : Option TokenKind) : Prop := k = none ∨ k = some .newline

theorem EndsLine.ne {k : Option TokenKind} (h : EndsLine k) (w : Keyword) :
    k ≠ some (.keyword w) := by
  rintro rfl
  rcases h with h | h <;> cases h

theorem EndsLine.afterDisjunction {k : Option TokenKind} (h : EndsLine k) : AfterDisjunction k :=
  ⟨⟨trivial, h.ne .and⟩, h.ne .or⟩

theorem reads_writtenLimit {w : WrittenLimit} :
    Reads writtenLimit tokens w rest ↔
      ∃ ts ts₂ u ts₃ ts₄ line, Reads action tokens w.action ts ∧
        Reads (quantity .count) ts w.count ts₂ ∧ Reads (keyword .per) ts₂ u ts₃ ∧
        Reads (quantity .period) ts₃ w.amount ts₄ ∧
        Reads (one unitWord? .timeUnit) ts₄ w.unit rest ∧
        line = (ts₄.head?.map (·.position.line)).getD 0 ∧
        w = ⟨w.action, w.count, w.amount, w.unit, line, ts₄⟩ := by
  constructor
  · rintro ⟨h, hp⟩
    obtain ⟨⟨a, ts, h₁⟩, ha, hp⟩ := exists_of_bind hp
    obtain ⟨⟨count, ts₂, h₂⟩, hcount, hp⟩ := exists_of_bind hp
    obtain ⟨⟨u, ts₃, h₃⟩, hu, hp⟩ := exists_of_bind hp
    obtain ⟨⟨amount, ts₄, h₄⟩, hamount, hp⟩ := exists_of_bind hp
    obtain ⟨⟨unit, ts₅, h₅⟩, hunit, hp⟩ := exists_of_bind hp
    cases hp
    exact ⟨ts, ts₂, u, ts₃, ts₄, _, ⟨h₁, ha⟩, ⟨h₂, hcount⟩, ⟨h₃, hu⟩, ⟨h₄, hamount⟩, ⟨h₅, hunit⟩,
      rfl, rfl⟩
  · rintro ⟨ts, ts₂, u, ts₃, ts₄, line, ⟨h₁, ha⟩, ⟨h₂, hcount⟩, ⟨h₃, hu⟩, ⟨h₄, hamount⟩,
      ⟨h₅, hunit⟩, rfl, hw⟩
    refine ⟨by omega, ?_⟩
    rw [hw]
    simp only [writtenLimit, ha, hcount, hu, hamount, hunit, Bind.bind, Except.bind]
    rfl

theorem trails_limitRule {line seconds : Nat} {w : WrittenLimit} {r : LimitRule} :
    Trails (limitRule line seconds w) tokens r rest ↔
      w.amount * seconds ≤ maxCount ∧ w.amount * seconds ≠ 0 ∧
        Trails severityClause tokens r.severity rest ∧
        r = ⟨w.action, w.count, w.amount * seconds, r.severity, line⟩ := by
  constructor
  · rintro ⟨h, hp⟩
    rw [limitRule] at hp
    dsimp only at hp
    split at hp
    next => cases hp
    next hmax =>
      split at hp
      next => cases hp
      next hzero =>
        obtain ⟨⟨severity, ts, h₁⟩, hs, hp⟩ := exists_of_bind hp
        cases hp
        exact ⟨Nat.le_of_not_lt hmax, hzero, ⟨h₁, hs⟩, rfl⟩
  · rintro ⟨hmax, hzero, ⟨h₁, hs⟩, hr⟩
    refine ⟨h₁, ?_⟩
    rw [limitRule, hr]
    simp only [if_neg (Nat.not_lt.2 hmax), if_neg hzero, hs, Bind.bind, Except.bind]
    rfl

theorem reads_limit {strict : Bool} {line : Nat} {r : LimitRule} :
    Reads (fun tokens => (limit strict line tokens).2) tokens r rest ↔
      ∃ w ts seconds, Reads writtenLimit tokens w ts ∧ UnitStandsFor strict w.unit seconds ∧
        Trails (limitRule line seconds w) ts r rest := by
  constructor
  · rintro ⟨h, hp⟩
    dsimp only at hp
    rw [limit] at hp
    split at hp
    next => cases hp
    next w ts h₁ hw =>
      dsimp only at hp
      split at hp
      next seconds hseconds =>
        obtain ⟨⟨r', ts', h₂⟩, hr, hp⟩ := exists_of_bind hp
        cases hp
        exact ⟨w, ts, seconds, ⟨h₁, hw⟩, .inl hseconds, h₂, hr⟩
      next hnone =>
        split at hp
        next => cases hp
        next hstrict =>
          obtain ⟨⟨r', ts', h₂⟩, hr, hp⟩ := exists_of_bind hp
          cases hp
          exact ⟨w, ts, 1, ⟨h₁, hw⟩, .inr ⟨hnone, Bool.eq_false_iff.2 hstrict, rfl⟩, h₂, hr⟩
  · rintro ⟨w, ts, seconds, ⟨h₁, hw⟩, hunit, ⟨h₂, hr⟩⟩
    refine ⟨by omega, ?_⟩
    dsimp only
    rw [limit, hw]
    rcases hunit with hunit | ⟨hunit, rfl, rfl⟩
    · simp only [hunit, hr, Bind.bind, Except.bind]
      rfl
    · simp only [hunit, hr, Bind.bind, Except.bind]
      rfl

theorem reads_unit {unit : String} :
    Reads (one unitWord? .timeUnit) tokens unit rest ↔
      ∃ t, tokens = t :: rest ∧ t.kind = .word unit := by
  rw [reads_one]
  constructor
  · rintro ⟨t, rfl, ht⟩
    unfold unitWord? at ht
    split at ht
    next name hname =>
      cases ht
      exact ⟨t, rfl, hname⟩
    next => cases ht
  · rintro ⟨t, rfl, ht⟩
    exact ⟨t, rfl, by rw [ht]; rfl⟩

theorem limit_exact (strict : Bool) (line : Nat) :
    Exact (Reads (fun tokens => (limit strict line tokens).2)) (SpellsLimit strict line)
      EndsLine where
  sound := by
    intro tokens r rest h
    obtain ⟨w, ts, seconds, hw, hunit, hrule⟩ := reads_limit.1 h
    obtain ⟨hmax, hzero, hs, hr⟩ := trails_limitRule.1 hrule
    obtain ⟨ts₁, ts₂, u, ts₃, ts₄, _, ha, hcount, hu, hamount, hword, -, -⟩ := reads_writtenLimit.1 hw
    obtain ⟨as, rfl, haction⟩ := (path_exact ..).sound ha
    obtain ⟨t₁, x, rfl, ht₁, hx⟩ := reads_quantity.1 hcount
    obtain ⟨t₂, rfl, ht₂⟩ := reads_token.1 hu
    obtain ⟨t₃, y, rfl, ht₃, hy⟩ := reads_quantity.1 hamount
    obtain ⟨t₄, rfl, ht₄⟩ := reads_unit.1 hword
    obtain ⟨ss, rfl, hseverity⟩ := severityClause_exact.sound hs
    rw [hr]
    refine ⟨as ++ t₁ :: t₂ :: t₃ :: t₄ :: ss, by simp, kinds as, x, y, w.unit, kinds ss, w.amount,
      seconds, ?_, haction, hx, hy, hunit, rfl, hmax, hzero, hseverity, rfl⟩
    rw [kinds_append, kinds_cons, kinds_cons, kinds_cons, kinds_cons, ht₁, ht₂, ht₃, ht₄]
  complete := by
    rintro front r rest ⟨as, x, y, unit, ss, amount, seconds, hks, ha, hx, hy, hunit, hperiod, hmax,
      hzero, hs, rfl⟩ hends
    obtain ⟨xs, ys, rfl, rfl, hks₀⟩ := kinds_eq_append hks
    obtain ⟨t₁, ys₁, rfl, ht₁, hks₁⟩ := kinds_eq_cons hks₀
    obtain ⟨t₂, ys₂, rfl, ht₂, hks₂⟩ := kinds_eq_cons hks₁
    obtain ⟨t₃, ys₃, rfl, ht₃, hks₃⟩ := kinds_eq_cons hks₂
    obtain ⟨t₄, ys₄, rfl, ht₄, rfl⟩ := kinds_eq_cons hks₃
    rw [hperiod] at hmax hzero
    refine reads_limit.2 ⟨⟨r.action, r.count, amount, unit, _, t₄ :: (ys₄ ++ rest)⟩, ys₄ ++ rest, seconds,
      reads_writtenLimit.2 ⟨t₁ :: t₂ :: t₃ :: t₄ :: (ys₄ ++ rest), t₂ :: t₃ :: t₄ :: (ys₄ ++ rest), (),
        t₃ :: t₄ :: (ys₄ ++ rest), t₄ :: (ys₄ ++ rest), _, ?_, reads_quantity.2 ⟨t₁, x, rfl, ht₁, hx⟩,
        reads_token.2 ⟨t₂, rfl, ht₂⟩, reads_quantity.2 ⟨t₃, y, rfl, ht₃, hy⟩,
        reads_unit.2 ⟨t₄, rfl, ht₄⟩, rfl, rfl⟩,
      hunit, trails_limitRule.2 ⟨hmax, hzero, severityClause_exact.complete hs (hends.ne .severity), ?_⟩⟩
    · rw [List.append_assoc]
      refine (path_exact ..).complete ha ?_
      rw [List.cons_append, next, List.head?_cons, Option.map_some, ht₁]
      simp only [ne_eq, Option.some.injEq, reduceCtorEq, not_false_eq_true]
    · rw [← hperiod]

variable [Matchers]

theorem trails_whenClause {cap : Nat} {condition : Option Condition} :
    Trails (whenClause cap) tokens condition rest ↔
      (condition = none ∧ tokens = rest ∧ next rest ≠ some (.keyword .when)) ∨
      ∃ t ts c, tokens = t :: ts ∧ t.kind = .keyword .when ∧ condition = some c ∧
        Reads (Grammar.condition cap) ts c rest := by
  constructor
  · rintro ⟨h, hp⟩
    unfold whenClause at hp
    split at hp
    next =>
      cases hp
      exact .inl ⟨rfl, rfl, next_nil_ne _⟩
    next t ts =>
      split at hp
      next ht =>
        obtain ⟨⟨c, ts', h₁⟩, hc, hp⟩ := exists_of_bind hp
        cases hp
        exact .inr ⟨t, ts, c, rfl, ht, rfl, h₁, hc⟩
      next ht =>
        cases hp
        exact .inl ⟨rfl, rfl, fun hnext => ht (Option.some.inj hnext)⟩
  · rintro (⟨rfl, rfl, hnext⟩ | ⟨t, ts, c, rfl, ht, rfl, h₁, hc⟩)
    · refine ⟨Nat.le_refl _, ?_⟩
      unfold whenClause
      split
      next => rfl
      next t ts => exact if_neg fun ht => hnext (congrArg some ht)
    · refine ⟨by simp only [List.length_cons]; omega, ?_⟩
      unfold whenClause
      simp only [if_pos ht, hc, Bind.bind, Except.bind]
      rfl

theorem whenClause_exact (cap : Nat) :
    Exact (Trails (whenClause cap)) (SpellsWhen cap)
      (fun k => k ≠ some (.keyword .when) ∧ AfterDisjunction k) where
  sound := by
    intro tokens condition rest h
    rcases trails_whenClause.1 h with ⟨rfl, rfl, -⟩ | ⟨t, ts, c, rfl, ht, rfl, hc⟩
    · exact ⟨[], rfl, .inl ⟨rfl, rfl⟩⟩
    · obtain ⟨front, rfl, hspells⟩ := (condition_exact cap).sound hc
      exact ⟨t :: front, rfl, .inr ⟨kinds front, c, by rw [kinds_cons, ht], rfl, hspells⟩⟩
  complete := by
    rintro front condition rest (⟨hks, rfl⟩ | ⟨inner, c, hks, rfl, hspells⟩) ⟨hnext, hafter⟩
    · rw [List.map_eq_nil_iff.1 hks]
      exact trails_whenClause.2 (.inl ⟨rfl, rfl, hnext⟩)
    · obtain ⟨t, front', rfl, ht, rfl⟩ := kinds_eq_cons hks
      exact trails_whenClause.2 (.inr ⟨t, front' ++ rest, c, rfl, ht, rfl,
        (condition_exact cap).complete hspells hafter⟩)

theorem reads_accessRule {cap line : Nat} {r : AccessRule} :
    Reads (accessRule cap line) tokens r rest ↔
      ∃ ts u ts₂ ts₃ ts₄, Reads action tokens r.action ts ∧ Reads (keyword .on) ts u ts₂ ∧
        Reads resource ts₂ r.resource ts₃ ∧ Trails (whenClause cap) ts₃ r.condition ts₄ ∧
        Trails severityClause ts₄ r.severity rest ∧ r.line = line := by
  constructor
  · rintro ⟨h, hp⟩
    obtain ⟨⟨a, ts, h₁⟩, ha, hp⟩ := exists_of_bind hp
    obtain ⟨⟨u, ts₂, h₂⟩, hu, hp⟩ := exists_of_bind hp
    obtain ⟨⟨resource, ts₃, h₃⟩, hr, hp⟩ := exists_of_bind hp
    obtain ⟨⟨condition, ts₄, h₄⟩, hc, hp⟩ := exists_of_bind hp
    obtain ⟨⟨severity, ts₅, h₅⟩, hs, hp⟩ := exists_of_bind hp
    cases hp
    exact ⟨ts, u, ts₂, ts₃, ts₄, ⟨h₁, ha⟩, ⟨h₂, hu⟩, ⟨h₃, hr⟩, ⟨h₄, hc⟩, ⟨h₅, hs⟩, rfl⟩
  · rintro ⟨ts, u, ts₂, ts₃, ts₄, ⟨h₁, ha⟩, ⟨h₂, hu⟩, ⟨h₃, hr⟩, ⟨h₄, hc⟩, ⟨h₅, hs⟩, rfl⟩
    refine ⟨by omega, ?_⟩
    simp only [accessRule, ha, hu, hr, hc, hs, Bind.bind, Except.bind]
    rfl

theorem accessRule_exact (cap line : Nat) :
    Exact (Reads (accessRule cap line)) (SpellsAccess cap line) EndsLine where
  sound := by
    intro tokens r rest h
    obtain ⟨ts, u, ts₂, ts₃, ts₄, ha, hu, hr, hc, hs, hline⟩ := reads_accessRule.1 h
    obtain ⟨as, rfl, haction⟩ := (path_exact ..).sound ha
    obtain ⟨t, rfl, ht⟩ := reads_token.1 hu
    obtain ⟨rs, rfl, hresource⟩ := resource_exact.sound hr
    obtain ⟨ws, rfl, hwhen⟩ := (whenClause_exact cap).sound hc
    obtain ⟨ss, rfl, hseverity⟩ := severityClause_exact.sound hs
    refine ⟨as ++ t :: (rs ++ (ws ++ ss)), by simp, kinds as, kinds rs, kinds ws, kinds ss, ?_,
      haction, hresource, hwhen, hseverity, hline⟩
    rw [kinds_append, kinds_cons, kinds_append, kinds_append, ht]
  complete := by
    rintro front r rest ⟨as, rs, ws, ss, hks, ha, hr, hc, hs, hline⟩ hends
    obtain ⟨xs, xs', rfl, rfl, hks₁⟩ := kinds_eq_append hks
    obtain ⟨t, xs'', rfl, ht, hks₂⟩ := kinds_eq_cons hks₁
    obtain ⟨ys, ys', rfl, rfl, hks₃⟩ := kinds_eq_append hks₂
    obtain ⟨zs, vs, rfl, rfl, rfl⟩ := kinds_eq_append hks₃
    refine reads_accessRule.2 ⟨t :: (ys ++ (zs ++ vs)) ++ rest, (), ys ++ (zs ++ (vs ++ rest)),
      zs ++ (vs ++ rest), vs ++ rest, ?_, reads_token.2 ⟨t, by simp, ht⟩,
      resource_exact.complete hr trivial, ?_, ?_, hline⟩
    · rw [List.append_assoc]
      refine (path_exact ..).complete ha ?_
      rw [List.cons_append, next, List.head?_cons, Option.map_some, ht]
      decide
    · apply (whenClause_exact cap).complete hc
      rcases hs with ⟨hss, -⟩ | ⟨level, hss, -⟩
      · rw [List.map_eq_nil_iff.1 hss]
        exact ⟨hends.ne .when, hends.afterDisjunction⟩
      · obtain ⟨s, vs, rfl, hs, -⟩ := kinds_eq_cons hss
        rw [List.cons_append, next, List.head?_cons, Option.map_some, hs]
        exact ⟨by decide, ⟨trivial, by decide⟩, by decide⟩
    · exact severityClause_exact.complete hs (hends.ne .severity)

theorem reads_statement {options : ParseOptions} {s : Statement} :
    Reads (fun tokens => (statement options tokens).2) tokens s rest ↔
      ∃ t ts, tokens = t :: ts ∧
        ((∃ kind r, accessKind? t.kind = some kind ∧ s = .access kind r ∧
            Reads (accessRule options.cap t.position.line) ts r rest) ∨
          ∃ r, t.kind = .keyword .limit ∧ s = .limit r ∧
            Reads (fun tokens => (limit options.strictTimeUnits t.position.line tokens).2) ts r rest) := by
  constructor
  · rintro ⟨h, hp⟩
    dsimp only at hp
    unfold statement at hp
    split at hp
    next => cases hp
    next t ts =>
      refine ⟨t, ts, rfl, ?_⟩
      split at hp
      next kind hkind =>
        obtain ⟨⟨r, ts', h₁⟩, hr, hp⟩ := exists_of_bind hp
        cases hp
        exact .inl ⟨kind, r, hkind, rfl, h₁, hr⟩
      next =>
        split at hp
        next ht =>
          obtain ⟨⟨r, ts', h₁⟩, hr, hp⟩ := exists_of_bind hp
          cases hp
          exact .inr ⟨r, ht, rfl, h₁, hr⟩
        next => cases hp
  · rintro ⟨t, ts, rfl, ⟨kind, r, hkind, rfl, h₁, hr⟩ | ⟨r, ht, rfl, h₁, hr⟩⟩
    · refine ⟨by simp only [List.length_cons]; omega, ?_⟩
      unfold statement
      simp only [hkind, hr, Bind.bind, Except.bind]
      rfl
    · refine ⟨by simp only [List.length_cons]; omega, ?_⟩
      have hkind : accessKind? (.keyword .limit) = none := rfl
      unfold statement
      simp only [ht, hkind, hr, Bind.bind, Except.bind, if_true]
      rfl

theorem line_sound {options : ParseOptions} {s : Statement}
    (h : Reads (fun tokens => (statement options tokens).2) tokens s rest) :
    ∃ front, tokens = front ++ rest ∧ SpellsLine options front s := by
  obtain ⟨t, ts, rfl, ⟨kind, r, hkind, rfl, hr⟩ | ⟨r, ht, rfl, hr⟩⟩ := reads_statement.1 h
  · obtain ⟨front, rfl, hspells⟩ := (accessRule_exact ..).sound hr
    exact ⟨t :: front, rfl, t, front, rfl, t.kind, kinds front, rfl, hkind, hspells⟩
  · obtain ⟨front, rfl, hspells⟩ := (limit_exact ..).sound hr
    exact ⟨t :: front, rfl, t, front, rfl, kinds front, by rw [kinds_cons, ht], hspells⟩

theorem line_complete {options : ParseOptions} {s : Statement} {front : List Token}
    (h : SpellsLine options front s) (hends : EndsLine (next rest)) :
    Reads (fun tokens => (statement options tokens).2) (front ++ rest) s rest := by
  obtain ⟨t, ts, rfl, hspells⟩ := h
  apply reads_statement.2
  refine ⟨t, ts ++ rest, rfl, ?_⟩
  cases s with
  | access kind r =>
    obtain ⟨k, body, hks, hkind, hr⟩ := hspells
    cases hks
    exact .inl ⟨kind, r, hkind, rfl, (accessRule_exact ..).complete hr hends⟩
  | limit r =>
    obtain ⟨body, hks, hr⟩ := hspells
    obtain ⟨ht, rfl⟩ := List.cons_eq_cons.1 hks
    exact .inr ⟨r, ht, rfl, (limit_exact ..).complete hr hends⟩

theorem SpellsLine.kind_ne_newline {options : ParseOptions} {s : Statement} {t : Token}
    (h : SpellsLine options (t :: tokens) s) : t.kind ≠ .newline := by
  intro ht
  obtain ⟨_, _, -, hspells⟩ := h
  rw [kinds_cons, ht] at hspells
  cases s with
  | access kind r =>
    obtain ⟨k, body, hks, hkind, -⟩ := hspells
    cases hks
    cases hkind
  | limit r =>
    obtain ⟨body, hks, -⟩ := hspells
    cases hks

theorem statements_sound {options : ParseOptions} {ss : List Statement}
    (h : (statements options tokens).2 = .ok ss) : SpellsDocument options tokens ss := by
  induction hn : tokens.length using Nat.strongRecOn generalizing tokens ss with
  | ind n ih =>
    rw [statements.eq_def] at h
    split at h
    next =>
      cases h
      exact .nil
    next t ts =>
      split at h
      next ht => exact .newline ht (ih ts.length (by simp only [List.length_cons] at hn; omega) h rfl)
      next =>
        split at h
        next => cases h
        next s hlen hs =>
          cases h
          obtain ⟨front, hfront, hline⟩ := line_sound ⟨hlen, congrArg Prod.snd hs⟩
          rw [hfront, List.append_nil]
          exact .last hline
        next s t' rest' hlen hs =>
          split at h
          next ht' =>
            obtain ⟨front, hfront, hline⟩ := line_sound ⟨hlen, congrArg Prod.snd hs⟩
            dsimp only at h
            cases hmore : (statements options rest').2 with
            | error e =>
              rw [hmore] at h
              cases h
            | ok more =>
              rw [hmore] at h
              cases h
              have hshort : rest'.length < n := by
                simp only [List.length_cons] at hlen hn
                omega
              rw [hfront]
              exact .line hline ht' (ih rest'.length hshort hmore rfl)
          next => cases h

theorem exists_notices {options : ParseOptions} {s : Statement}
    (h : Reads (fun tokens => (statement options tokens).2) tokens s rest) :
    ∃ notices hlen, statement options tokens = (notices, .ok ⟨s, rest, hlen⟩) := by
  obtain ⟨hlen, hs⟩ := h
  exact ⟨(statement options tokens).1, hlen, Prod.ext rfl hs⟩

theorem statements_complete {options : ParseOptions} {ss : List Statement}
    (h : SpellsDocument options tokens ss) : (statements options tokens).2 = .ok ss := by
  induction h with
  | nil => rw [statements]
  | newline ht _ ih =>
    rw [statements, if_pos ht]
    exact ih
  | @last tokens s hline =>
    have hreads : Reads (fun tokens => (statement options tokens).2) (tokens ++ []) s [] :=
      line_complete hline (.inl rfl)
    rw [List.append_nil] at hreads
    obtain ⟨t, ts, rfl, -⟩ := id hline
    obtain ⟨notices, hlen, hs⟩ := exists_notices hreads
    rw [statements, if_neg hline.kind_ne_newline, hs]
  | @line front t' rest s ss hline ht' _ ih =>
    have hreads : Reads (fun tokens => (statement options tokens).2) (front ++ t' :: rest) s
        (t' :: rest) := line_complete hline (.inr (congrArg some ht'))
    obtain ⟨t, ts, rfl, -⟩ := id hline
    rw [List.cons_append] at hreads ⊢
    obtain ⟨notices, hlen, hs⟩ := exists_notices hreads
    rw [statements, if_neg hline.kind_ne_newline, hs]
    simp only [if_pos ht', ih]
    rfl

/-- The statements read are those that the tokens spell. -/
theorem statements_eq_ok {options : ParseOptions} {ss : List Statement} :
    (statements options tokens).2 = .ok ss ↔ SpellsDocument options tokens ss :=
  ⟨statements_sound, statements_complete⟩

end Grammar

end Delegation
