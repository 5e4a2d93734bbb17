import Delegation.Pattern.Alignment

namespace Delegation

section

variable {α β γ : Type} {a : α} {as as' : List α} {b : β} {bs bs' : List β} {cs : List γ}

/-- An element that may be dropped, or kept while the other list's head is dropped, leaves some end of that
list to the elements behind it. -/
theorem Alignment.holds_cons_iff_suffix {rules : Alignment α β}
    (hleftover : ∀ below, rules.leftover a below = below)
    (hstep : ∀ b dropFirst dropSecond dropBoth,
      rules.step a b dropFirst dropSecond dropBoth = (dropFirst || dropSecond)) :
    rules.holds (a :: as) bs = true ↔ ∃ rest, rest <:+ bs ∧ rules.holds as rest = true := by
  induction bs with
  | nil =>
    rw [Alignment.holds_cons_nil, hleftover]
    constructor
    · intro h
      exact ⟨[], List.suffix_rfl, h⟩
    · rintro ⟨rest, hrest, h⟩
      rw [List.suffix_nil.1 hrest] at h
      exact h
  | cons b bs ih =>
    rw [Alignment.holds_cons_cons, hstep, Bool.or_eq_true, ih]
    constructor
    · rintro (h | ⟨rest, hrest, h⟩)
      · exact ⟨b :: bs, List.suffix_rfl, h⟩
      · exact ⟨rest, hrest.trans (List.suffix_cons b bs), h⟩
    · rintro ⟨rest, hrest, h⟩
      rcases List.suffix_cons_iff.1 hrest with rfl | hrest
      · exact .inl h
      · exact .inr ⟨rest, hrest, h⟩

variable {wild : α → Bool} {fits : α → β → Bool}

theorem wildcardMatch_nil : (wildcardMatch wild fits).holds [] bs = true ↔ bs = [] := by
  rw [Alignment.holds_nil]
  exact List.isEmpty_iff

theorem wildcardMatch_cons_nil : (wildcardMatch wild fits).holds (a :: as) [] =
    (wild a && (wildcardMatch wild fits).holds as []) :=
  Alignment.holds_cons_nil ..

theorem wildcardMatch_empty : (wildcardMatch wild fits).holds as [] = as.all wild := by
  induction as with
  | nil => rfl
  | cons a as ih => rw [wildcardMatch_cons_nil, ih, List.all_cons]

theorem wildcardMatch_cons_of_wild (ha : wild a = true) :
    (wildcardMatch wild fits).holds (a :: as) (b :: bs) =
      ((wildcardMatch wild fits).holds as (b :: bs) || (wildcardMatch wild fits).holds (a :: as) bs) :=
  (Alignment.holds_cons_cons ..).trans (if_pos ha)

theorem wildcardMatch_cons_of_not_wild (ha : wild a = false) :
    (wildcardMatch wild fits).holds (a :: as) (b :: bs) =
      (fits a b && (wildcardMatch wild fits).holds as bs) :=
  (Alignment.holds_cons_cons ..).trans (if_neg (ne_true_of_eq_false ha))

/-- A wildcard takes any beginning. -/
theorem wildcardMatch_wild_iff (ha : wild a = true) :
    (wildcardMatch wild fits).holds (a :: as) bs = true ↔
      ∃ rest, rest <:+ bs ∧ (wildcardMatch wild fits).holds as rest = true := by
  apply Alignment.holds_cons_iff_suffix
  · intro below
    exact (congrArg (· && below) ha).trans (Bool.true_and below)
  · intro b dropFirst dropSecond dropBoth
    exact if_pos ha

theorem wildcardMatch_not_wild_iff (ha : wild a = false) :
    (wildcardMatch wild fits).holds (a :: as) bs = true ↔
      ∃ b rest, bs = b :: rest ∧ fits a b = true ∧
        (wildcardMatch wild fits).holds as rest = true := by
  cases bs with
  | nil =>
    rw [wildcardMatch_cons_nil, ha]
    exact iff_of_false Bool.false_ne_true fun ⟨b, rest, h, _⟩ => nomatch h
  | cons b bs =>
    rw [wildcardMatch_cons_of_not_wild ha, Bool.and_eq_true]
    constructor
    · rintro ⟨hab, h⟩
      exact ⟨b, bs, rfl, hab, h⟩
    · rintro ⟨_, _, h, hab, has⟩
      cases h
      exact ⟨hab, has⟩

theorem wildcardMatch_wild_of_rest (ha : wild a = true)
    (h : (wildcardMatch wild fits).holds as bs = true) :
    (wildcardMatch wild fits).holds (a :: as) bs = true :=
  (wildcardMatch_wild_iff ha).2 ⟨bs, List.suffix_rfl, h⟩

theorem wildcardMatch_wild_of_suffix (ha : wild a = true) (hsuffix : bs' <:+ bs)
    (h : (wildcardMatch wild fits).holds (a :: as) bs' = true) :
    (wildcardMatch wild fits).holds (a :: as) bs = true := by
  obtain ⟨rest, hrest, h⟩ := (wildcardMatch_wild_iff ha).1 h
  exact (wildcardMatch_wild_iff ha).2 ⟨rest, hrest.trans hsuffix, h⟩

theorem exists_suffix_of_cons (h : (wildcardMatch wild fits).holds (a :: as) bs = true) :
    ∃ rest, rest <:+ bs ∧ (wildcardMatch wild fits).holds as rest = true := by
  cases ha : wild a with
  | true => exact (wildcardMatch_wild_iff ha).1 h
  | false =>
    obtain ⟨b, rest, rfl, -, h⟩ := (wildcardMatch_not_wild_iff ha).1 h
    exact ⟨rest, List.suffix_cons b rest, h⟩

theorem exists_suffix_of_suffix_left (h : (wildcardMatch wild fits).holds as bs = true)
    (hsuffix : as' <:+ as) : ∃ bs', bs' <:+ bs ∧ (wildcardMatch wild fits).holds as' bs' = true := by
  induction as generalizing bs with
  | nil =>
    rw [List.suffix_nil.1 hsuffix]
    exact ⟨bs, List.suffix_rfl, h⟩
  | cons a as ih =>
    rcases List.suffix_cons_iff.1 hsuffix with rfl | hsuffix
    · exact ⟨bs, List.suffix_rfl, h⟩
    · obtain ⟨rest, hrest, h⟩ := exists_suffix_of_cons h
      obtain ⟨bs', hbs', h⟩ := ih h hsuffix
      exact ⟨bs', hbs'.trans hrest, h⟩

theorem exists_suffix_of_suffix_right (h : (wildcardMatch wild fits).holds as bs = true)
    (hsuffix : bs' <:+ bs) : ∃ as', as' <:+ as ∧ (wildcardMatch wild fits).holds as' bs' = true := by
  induction as generalizing bs with
  | nil =>
    rw [wildcardMatch_nil] at h
    rw [h] at hsuffix
    exact ⟨[], List.suffix_rfl, wildcardMatch_nil.2 (List.suffix_nil.1 hsuffix)⟩
  | cons a as ih =>
    have hshorter : ∀ {rest}, (wildcardMatch wild fits).holds as rest = true → bs' <:+ rest →
        ∃ as', as' <:+ a :: as ∧ (wildcardMatch wild fits).holds as' bs' = true := by
      intro rest hrest hend
      obtain ⟨as', has', hmatch⟩ := ih hrest hend
      exact ⟨as', has'.trans (List.suffix_cons a as), hmatch⟩
    cases ha : wild a with
    | true =>
      -- the end starts behind what the wildcard takes, or within it
      obtain ⟨rest, hrest, has⟩ := (wildcardMatch_wild_iff ha).1 h
      rcases List.suffix_or_suffix_of_suffix hsuffix hrest with hend | hend
      · exact hshorter has hend
      · exact ⟨a :: as, List.suffix_rfl, (wildcardMatch_wild_iff ha).2 ⟨rest, hend, has⟩⟩
    | false =>
      obtain ⟨b, rest, rfl, -, has⟩ := (wildcardMatch_not_wild_iff ha).1 h
      rcases List.suffix_cons_iff.1 hsuffix with rfl | hend
      · exact ⟨a :: as, List.suffix_rfl, h⟩
      · exact hshorter has hend

theorem wildcardMatch_refl {fits : α → α → Bool} (hfits : ∀ a, wild a = false → fits a a = true)
    (as : List α) : (wildcardMatch wild fits).holds as as = true := by
  induction as with
  | nil => rfl
  | cons a as ih =>
    cases ha : wild a with
    | true => exact (wildcardMatch_wild_iff ha).2 ⟨as, List.suffix_cons a as, ih⟩
    | false => exact (wildcardMatch_not_wild_iff ha).2 ⟨a, as, rfl, hfits a ha, ih⟩

/-- A matching after a matching. What a wildcard of the first list takes of the second may hold wildcards
itself; any other element takes none. -/
theorem wildcardMatch_trans {wild' : β → Bool} {fits' : β → γ → Bool} {fits'' : α → γ → Bool}
    (hfits : ∀ a b, wild a = false → fits a b = true →
      wild' b = false ∧ ∀ c, fits' b c = true → fits'' a c = true)
    (has : (wildcardMatch wild fits).holds as bs = true)
    (hbs : (wildcardMatch wild' fits').holds bs cs = true) :
    (wildcardMatch wild fits'').holds as cs = true := by
  induction as generalizing bs cs with
  | nil =>
    rw [wildcardMatch_nil.1 has, wildcardMatch_nil] at hbs
    exact wildcardMatch_nil.2 hbs
  | cons a as ih =>
    cases ha : wild a with
    | true =>
      obtain ⟨rest, hrest, has⟩ := (wildcardMatch_wild_iff ha).1 has
      obtain ⟨cs', hcs', hbs⟩ := exists_suffix_of_suffix_left hbs hrest
      exact (wildcardMatch_wild_iff ha).2 ⟨cs', hcs', ih has hbs⟩
    | false =>
      obtain ⟨b, rest, rfl, hab, has⟩ := (wildcardMatch_not_wild_iff ha).1 has
      obtain ⟨hb, hfits⟩ := hfits a b ha hab
      obtain ⟨c, cs', rfl, hbc, hbs⟩ := (wildcardMatch_not_wild_iff hb).1 hbs
      exact (wildcardMatch_not_wild_iff ha).2 ⟨c, cs', rfl, hfits c hbc, ih has hbs⟩

variable {δ : Type} {ds : List δ} {fits' : α → γ → Bool} {g : δ → β} {g' : δ → γ}

theorem wildcardMatch_map_imp (h : ∀ a ∈ as, ∀ d ∈ ds, wild a = false → fits a (g d) = true →
    fits' a (g' d) = true) (hm : (wildcardMatch wild fits).holds as (ds.map g) = true) :
    (wildcardMatch wild fits').holds as (ds.map g') = true := by
  induction as generalizing ds with
  | nil =>
    rw [wildcardMatch_nil, List.map_eq_nil_iff] at hm
    rw [hm]
    rfl
  | cons a as ih =>
    have hrest := fun a' ha' => h a' (List.mem_cons_of_mem a ha')
    cases ha : wild a with
    | true =>
      obtain ⟨rest, ⟨taken, hsplit⟩, hm⟩ := (wildcardMatch_wild_iff ha).1 hm
      obtain ⟨front, back, rfl, -, rfl⟩ := List.map_eq_append_iff.1 hsplit.symm
      have hback : ∀ d ∈ back, d ∈ front ++ back := fun d => List.mem_append_right front
      refine (wildcardMatch_wild_iff ha).2 ⟨back.map g', ⟨front.map g', List.map_append.symm⟩, ?_⟩
      exact ih (fun a' ha' d hd => hrest a' ha' d (hback d hd)) hm
    | false =>
      obtain ⟨b, rest, hsplit, hab, hm⟩ := (wildcardMatch_not_wild_iff ha).1 hm
      obtain ⟨d, back, rfl, rfl, rfl⟩ := List.map_eq_cons_iff.1 hsplit
      refine (wildcardMatch_not_wild_iff ha).2 ⟨g' d, back.map g', rfl, ?_, ?_⟩
      · exact h a List.mem_cons_self d List.mem_cons_self ha hab
      · exact ih (fun a' ha' d' hd' => hrest a' ha' d' (List.mem_cons_of_mem d hd')) hm

theorem wildcardMatch_map_of_forall {g : δ → α} {g' : δ → β}
    (h : ∀ d ∈ ds, wild (g d) = false ∧ fits (g d) (g' d) = true) :
    (wildcardMatch wild fits).holds (ds.map g) (ds.map g') = true := by
  induction ds with
  | nil => rfl
  | cons d ds ih =>
    obtain ⟨hd, hds⟩ := List.forall_mem_cons.1 h
    exact (wildcardMatch_not_wild_iff hd.1).2 ⟨g' d, ds.map g', rfl, hd.2, ih hds⟩

end

end Delegation
