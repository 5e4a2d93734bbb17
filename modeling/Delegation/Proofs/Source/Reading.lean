import Delegation.Proofs.Source.Derivation

namespace Delegation

@[simp] theorem kinds_nil : kinds [] = [] := rfl

@[simp] theorem kinds_cons (t : Token) (tokens : List Token) :
    kinds (t :: tokens) = t.kind :: kinds tokens := rfl

@[simp] theorem kinds_append (xs ys : List Token) : kinds (xs ++ ys) = kinds xs ++ kinds ys :=
  List.map_append

namespace Grammar

variable {α β : Type} {tokens rest : List Token} {ks : List TokenKind}

theorem exists_of_bind {x : Except Refusal α} {f : α → Except Refusal β} {b : β}
    (h : x >>= f = .ok b) : ∃ a, x = .ok a ∧ f a = .ok b := by
  cases x with
  | error e => cases h
  | ok a => exact ⟨a, rfl, h⟩

def next (rest : List Token) : Option TokenKind := rest.head?.map (·.kind)

theorem next_nil_ne (k : TokenKind) : next [] ≠ some k := nofun

def Reads (p : Production α) (tokens : List Token) (v : α) (rest : List Token) : Prop :=
  ∃ h, p tokens = .ok ⟨v, rest, h⟩

def Trails (p : (tokens : List Token) → Except Refusal (Trailing α tokens)) (tokens : List Token)
    (v : α) (rest : List Token) : Prop :=
  ∃ h, p tokens = .ok ⟨v, rest, h⟩

/-- A reading takes tokens that spell the value, and takes them if the next token allows it. -/
structure Exact (reads : List Token → α → List Token → Prop) (spells : List TokenKind → α → Prop)
    (follow : Option TokenKind → Prop) : Prop where
  sound : ∀ {tokens v rest}, reads tokens v rest →
    ∃ front, tokens = front ++ rest ∧ spells (kinds front) v
  complete : ∀ {front v rest}, spells (kinds front) v → follow (next rest) →
    reads (front ++ rest) v rest

def Anything (_ : Option TokenKind) : Prop := True

theorem kinds_eq_singleton {front : List Token} {k : TokenKind} (h : kinds front = [k]) :
    ∃ t, front = [t] ∧ t.kind = k := by
  obtain ⟨t, rfl, ht⟩ := List.map_eq_singleton_iff.1 h
  exact ⟨t, rfl, ht⟩

theorem kinds_eq_cons {front : List Token} {k : TokenKind} (h : kinds front = k :: ks) :
    ∃ t front', front = t :: front' ∧ t.kind = k ∧ kinds front' = ks := by
  obtain ⟨t, front', rfl, ht, hks⟩ := List.map_eq_cons_iff.1 h
  exact ⟨t, front', rfl, ht, hks⟩

theorem kinds_eq_append {front : List Token} {ks' : List TokenKind} (h : kinds front = ks ++ ks') :
    ∃ xs ys, front = xs ++ ys ∧ kinds xs = ks ∧ kinds ys = ks' := by
  obtain ⟨xs, ys, rfl, hxs, hys⟩ := List.map_eq_append_iff.1 h
  exact ⟨xs, ys, rfl, hxs, hys⟩

theorem reads_token {kind : TokenKind} {what : Wanted} {u : Unit} :
    Reads (token kind what) tokens u rest ↔ ∃ t, tokens = t :: rest ∧ t.kind = kind := by
  constructor
  · rintro ⟨h, hp⟩
    cases tokens with
    | nil => cases hp
    | cons t ts =>
      rw [token] at hp
      split at hp
      next hk =>
        cases hp
        exact ⟨t, rfl, hk⟩
      next => cases hp
  · rintro ⟨t, rfl, hk⟩
    exact ⟨by simp, if_pos hk⟩

theorem reads_one {make : TokenKind → Option α} {what : Wanted} {a : α} :
    Reads (one make what) tokens a rest ↔ ∃ t, tokens = t :: rest ∧ make t.kind = some a := by
  constructor
  · rintro ⟨h, hp⟩
    cases tokens with
    | nil => cases hp
    | cons t ts =>
      rw [one] at hp
      split at hp
      next b hb =>
        cases hp
        exact ⟨t, rfl, hb⟩
      next => cases hp
  · rintro ⟨t, rfl, ha⟩
    refine ⟨by simp, ?_⟩
    rw [one]
    split
    next b hb =>
      rw [ha] at hb
      cases hb
      rfl
    next hb =>
      rw [ha] at hb
      cases hb

theorem one_exact (make : TokenKind → Option α) (what : Wanted) :
    Exact (Reads (one make what)) (SpellsOne make) Anything where
  sound := by
    intro tokens a rest h
    obtain ⟨t, rfl, ha⟩ := reads_one.1 h
    exact ⟨[t], rfl, t.kind, rfl, ha⟩
  complete := by
    rintro front a rest ⟨k, hk, ha⟩ -
    obtain ⟨t, rfl, rfl⟩ := kinds_eq_singleton hk
    exact reads_one.2 ⟨t, rfl, ha⟩

theorem trails_segments {segment? : TokenKind → Option (List Char)} {what : Wanted}
    {segs : List (List Char)} :
    Trails (segments segment? what) tokens segs rest ↔
      (segs = [] ∧ tokens = rest ∧ next rest ≠ some .dot) ∨
      ∃ t s ts seg more, tokens = t :: s :: ts ∧ t.kind = .dot ∧ segment? s.kind = some seg ∧
        segs = seg :: more ∧ Trails (segments segment? what) ts more rest := by
  constructor
  · rintro ⟨h, hp⟩
    unfold segments at hp
    split at hp
    next =>
      cases hp
      exact .inl ⟨rfl, rfl, next_nil_ne _⟩
    next t ts =>
      split at hp
      next ht =>
        split at hp
        next => cases hp
        next s ts =>
          split at hp
          next => cases hp
          next seg hseg =>
            split at hp
            next => cases hp
            next more rest' h' hmore =>
              cases hp
              exact .inr ⟨t, s, ts, seg, more, rfl, ht, hseg, rfl, h', hmore⟩
      next ht =>
        cases hp
        exact .inl ⟨rfl, rfl, fun hnext => ht (Option.some.inj hnext)⟩
  · rintro (⟨rfl, rfl, hnext⟩ | ⟨t, s, ts, seg, more, rfl, ht, hseg, rfl, h', hmore⟩)
    · refine ⟨Nat.le_refl _, ?_⟩
      unfold segments
      split
      next => rfl
      next t ts =>
        rw [if_neg]
        exact fun ht => hnext (congrArg some ht)
    · refine ⟨by simp only [List.length_cons]; omega, ?_⟩
      unfold segments
      rw [if_pos ht]
      dsimp only
      split
      next hnone =>
        rw [hseg] at hnone
        cases hnone
      next seg' hseg' =>
        rw [hseg] at hseg'
        cases hseg'
        rw [hmore]

theorem segments_exact (segment? : TokenKind → Option (List Char)) (what : Wanted) :
    Exact (Trails (segments segment? what)) (Dotted segment?) (· ≠ some .dot) where
  sound := by
    intro tokens segs rest h
    induction hn : tokens.length using Nat.strongRecOn generalizing tokens segs with
    | ind n ih =>
      rcases trails_segments.1 h with ⟨rfl, rfl, -⟩ | ⟨t, s, ts, seg, more, rfl, ht, hseg, rfl, hmore⟩
      · exact ⟨[], rfl, .nil⟩
      · obtain ⟨front, rfl, hdotted⟩ :=
          ih ts.length (by simp only [List.length_cons] at hn; omega) hmore rfl
        refine ⟨t :: s :: front, rfl, ?_⟩
        rw [kinds_cons, kinds_cons, ht]
        exact .cons hseg hdotted
  complete := by
    intro front segs rest h hnext
    generalize hks : kinds front = ks at h
    induction h generalizing front with
    | nil =>
      rw [List.map_eq_nil_iff.1 hks]
      exact trails_segments.2 (.inl ⟨rfl, rfl, hnext⟩)
    | cons hseg _ ih =>
      obtain ⟨t, front', rfl, ht, hks'⟩ := kinds_eq_cons hks
      obtain ⟨s, front'', rfl, rfl, hks''⟩ := kinds_eq_cons hks'
      exact trails_segments.2 (.inr ⟨t, s, _, _, _, rfl, ht, hseg, rfl, ih hks''⟩)

theorem reads_path {first? segment? : TokenKind → Option (List Char)} {wantFirst wantSegment : Wanted}
    {v : String} :
    Reads (path first? segment? wantFirst wantSegment) tokens v rest ↔
      ∃ first ts more, Reads (one first? wantFirst) tokens first ts ∧
        Trails (segments segment? wantSegment) ts more rest ∧
        v = String.ofList (joinWith ['.'] (first :: more)) := by
  constructor
  · rintro ⟨h, hp⟩
    obtain ⟨⟨first, ts, h₁⟩, hfirst, hp⟩ := exists_of_bind hp
    obtain ⟨⟨more, ts', h₂⟩, hmore, hp⟩ := exists_of_bind hp
    cases hp
    exact ⟨first, ts, more, ⟨h₁, hfirst⟩, ⟨h₂, hmore⟩, rfl⟩
  · rintro ⟨first, ts, more, ⟨h₁, hfirst⟩, ⟨h₂, hmore⟩, rfl⟩
    refine ⟨by omega, ?_⟩
    simp only [path, hfirst, hmore, Bind.bind, Except.bind, Pure.pure, Except.pure]

theorem path_exact (first? segment? : TokenKind → Option (List Char))
    (wantFirst wantSegment : Wanted) :
    Exact (Reads (path first? segment? wantFirst wantSegment)) (SpellsPath first? segment?)
      (· ≠ some .dot) where
  sound := by
    intro tokens v rest h
    obtain ⟨first, ts, more, hfirst, hmore, rfl⟩ := reads_path.1 h
    obtain ⟨t, rfl, ht⟩ := reads_one.1 hfirst
    obtain ⟨front, rfl, hdotted⟩ := (segments_exact ..).sound hmore
    exact ⟨t :: front, rfl, t.kind, kinds front, first, more, rfl, ht, hdotted, rfl⟩
  complete := by
    rintro front v rest ⟨k, ks', first, more, hks, hk, hdotted, rfl⟩ hnext
    obtain ⟨t, front', rfl, rfl, rfl⟩ := kinds_eq_cons hks
    exact reads_path.2 ⟨first, front' ++ rest, more, reads_one.2 ⟨t, rfl, hk⟩,
      (segments_exact ..).complete hdotted hnext, rfl⟩

theorem reads_resource {v : String} :
    Reads resource tokens v rest ↔
      Reads (one resourceText? .resource) tokens v rest ∧ v.isEmpty = false := by
  constructor
  · rintro ⟨h, hp⟩
    rw [resource] at hp
    split at hp
    next v' ts h' hone =>
      split at hp
      next => cases hp
      next hempty =>
        cases hp
        exact ⟨⟨h', hone⟩, Bool.eq_false_iff.2 hempty⟩
    next => cases hp
  · rintro ⟨⟨h', hone⟩, hempty⟩
    refine ⟨h', ?_⟩
    rw [resource, hone]
    exact if_neg (Bool.eq_false_iff.1 hempty)

theorem resource_exact : Exact (Reads resource) SpellsResource Anything where
  sound := by
    intro tokens v rest h
    obtain ⟨hone, hempty⟩ := reads_resource.1 h
    obtain ⟨front, rfl, hspells⟩ := (one_exact ..).sound hone
    exact ⟨front, rfl, hspells, hempty⟩
  complete := fun ⟨hspells, hempty⟩ hnext =>
    reads_resource.2 ⟨(one_exact ..).complete hspells hnext, hempty⟩

theorem trails_severityClause {severity : Severity} :
    Trails severityClause tokens severity rest ↔
      (severity = .standard ∧ tokens = rest ∧ next rest ≠ some (.keyword .severity)) ∨
      ∃ t s level, tokens = t :: s :: rest ∧ t.kind = .keyword .severity ∧ s.kind = .word level ∧
        Severity.ofText? level = some severity := by
  constructor
  · rintro ⟨h, hp⟩
    unfold severityClause at hp
    split at hp
    next =>
      cases hp
      exact .inl ⟨rfl, rfl, next_nil_ne _⟩
    next t ts =>
      split at hp
      next ht =>
        split at hp
        next => cases hp
        next s ts =>
          split at hp
          next level hs =>
            split at hp
            next severity' hlevel =>
              cases hp
              exact .inr ⟨t, s, level, rfl, ht, hs, hlevel⟩
            next => cases hp
          next => cases hp
      next ht =>
        cases hp
        exact .inl ⟨rfl, rfl, fun hnext => ht (Option.some.inj hnext)⟩
  · rintro (⟨rfl, rfl, hnext⟩ | ⟨t, s, level, rfl, ht, hs, hlevel⟩)
    · refine ⟨Nat.le_refl _, ?_⟩
      unfold severityClause
      split
      next => rfl
      next t ts => exact if_neg fun ht => hnext (congrArg some ht)
    · refine ⟨by simp only [List.length_cons]; omega, ?_⟩
      unfold severityClause
      dsimp only
      rw [if_pos ht]
      split
      next level' hlevel' =>
        rw [hs] at hlevel'
        cases hlevel'
        rw [hlevel]
      next hword => exact absurd hs (hword level)

theorem severityClause_exact :
    Exact (Trails severityClause) SpellsSeverity (· ≠ some (.keyword .severity)) where
  sound := by
    intro tokens severity rest h
    rcases trails_severityClause.1 h with ⟨rfl, rfl, -⟩ | ⟨t, s, level, rfl, ht, hs, hlevel⟩
    · exact ⟨[], rfl, .inl ⟨rfl, rfl⟩⟩
    · refine ⟨[t, s], rfl, .inr ⟨level, ?_, hlevel⟩⟩
      rw [kinds_cons, kinds_cons, kinds_nil, ht, hs]
  complete := by
    rintro front severity rest (⟨hks, rfl⟩ | ⟨level, hks, hlevel⟩) hnext
    · rw [List.map_eq_nil_iff.1 hks]
      exact trails_severityClause.2 (.inl ⟨rfl, rfl, hnext⟩)
    · obtain ⟨t, front', rfl, ht, hks'⟩ := kinds_eq_cons hks
      obtain ⟨s, rfl, hs⟩ := kinds_eq_singleton hks'
      exact trails_severityClause.2 (.inr ⟨t, s, level, rfl, ht, hs, hlevel⟩)

theorem reads_quantity {q : Quantity} {n : Nat} :
    Reads (quantity q) tokens n rest ↔
      ∃ t x, tokens = t :: rest ∧ t.kind = .number x ∧ quantity? x = some n := by
  constructor
  · rintro ⟨h, hp⟩
    unfold quantity at hp
    split at hp
    next => cases hp
    next t ts =>
      split at hp
      next x hx =>
        split at hp
        next m hm =>
          cases hp
          exact ⟨t, x, rfl, hx, hm⟩
        next => cases hp
      next => cases hp
  · rintro ⟨t, x, rfl, hx, hn⟩
    refine ⟨by simp, ?_⟩
    unfold quantity
    dsimp only
    split
    next x' hx' =>
      rw [hx] at hx'
      cases hx'
      rw [hn]
    next hnumber => exact absurd hx (hnumber x)

theorem reads_separated {item : Production α} {separator : TokenKind} {as : List α} :
    Reads (separated item separator) tokens as rest ↔
      ∃ a ts, Reads item tokens a ts ∧
        ((as = [a] ∧ ts = rest ∧ next rest ≠ some separator) ∨
          ∃ t ts' more, ts = t :: ts' ∧ t.kind = separator ∧ as = a :: more ∧
            Reads (separated item separator) ts' more rest) := by
  constructor
  · rintro ⟨h, hp⟩
    rw [separated] at hp
    obtain ⟨⟨a, ts, h₁⟩, hitem, hp⟩ := exists_of_bind hp
    refine ⟨a, ts, ⟨h₁, hitem⟩, ?_⟩
    dsimp only at hp
    split at hp
    next =>
      cases hp
      exact .inl ⟨rfl, rfl, next_nil_ne _⟩
    next h₁' t ts' _ =>
      split at hp
      next ht =>
        obtain ⟨⟨more, ts'', h₂⟩, hmore, hp⟩ := exists_of_bind hp
        cases hp
        exact .inr ⟨t, ts', more, rfl, ht, rfl, h₂, hmore⟩
      next ht =>
        cases hp
        exact .inl ⟨rfl, rfl, fun hnext => ht (Option.some.inj hnext)⟩
  · rintro ⟨a, ts, ⟨h₁, hitem⟩, ⟨rfl, rfl, hnext⟩ | ⟨t, ts', more, rfl, ht, rfl, h₂, hmore⟩⟩
    · refine ⟨h₁, ?_⟩
      rw [separated, hitem]
      simp only [Bind.bind, Except.bind]
      split
      next => rfl
      next t ts' _ =>
        rw [if_neg]
        · rfl
        · exact fun ht => hnext (congrArg some ht)
    · refine ⟨by simp only [List.length_cons] at h₁; omega, ?_⟩
      rw [separated, hitem]
      simp only [Bind.bind, Except.bind, if_pos ht, hmore]
      rfl

theorem Exact.separated {item : Production α} {spells : List TokenKind → α → Prop}
    {follow : Option TokenKind → Prop} (h : Exact (Reads item) spells follow)
    {separator : TokenKind} (hsep : follow (some separator)) :
    Exact (Reads (separated item separator)) (Separated spells separator)
      (fun k => follow k ∧ k ≠ some separator) where
  sound := by
    intro tokens as rest hreads
    induction hn : tokens.length using Nat.strongRecOn generalizing tokens as with
    | ind n ih =>
      obtain ⟨a, ts, hitem, ⟨rfl, rfl, -⟩ | ⟨t, ts', more, rfl, ht, rfl, hmore⟩⟩ :=
        reads_separated.1 hreads
      · obtain ⟨front, rfl, hspells⟩ := h.sound hitem
        exact ⟨front, rfl, .one hspells⟩
      · obtain ⟨front, rfl, hspells⟩ := h.sound hitem
        obtain ⟨front', rfl, hsep'⟩ := ih ts'.length
          (by simp only [List.length_append, List.length_cons] at hn; omega) hmore rfl
        refine ⟨front ++ t :: front', by rw [List.append_assoc]; rfl, ?_⟩
        rw [kinds_append, kinds_cons, ht]
        exact .more hspells hsep'
  complete := by
    rintro front as rest hspells ⟨hfollow, hnext⟩
    generalize hks : kinds front = ks at hspells
    induction hspells generalizing front with
    | one hitem =>
      rw [← hks] at hitem
      exact reads_separated.2 ⟨_, rest, h.complete hitem hfollow, .inl ⟨rfl, rfl, hnext⟩⟩
    | more hitem _ ih =>
      obtain ⟨xs, ys, rfl, rfl, hys⟩ := kinds_eq_append hks
      obtain ⟨t, ys', rfl, ht, hys'⟩ := kinds_eq_cons hys
      have hfollow' : follow (next (t :: ys' ++ rest)) := by
        rw [← ht] at hsep
        exact hsep
      rw [List.append_assoc]
      exact reads_separated.2 ⟨_, _, h.complete hitem hfollow',
        .inr ⟨t, ys' ++ rest, _, rfl, ht, rfl, ih hys'⟩⟩

end Grammar

end Delegation
