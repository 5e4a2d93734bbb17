import Delegation.Proofs.Json.Text
import Delegation.Proofs.Number.Text

namespace Delegation.Json

attribute [local instance (2000)] instPowNat

/-- Whether a text may follow a value that stands in another. -/
def EndsValue (rest : List Char) : Prop := ∀ c, rest.head? = some c → c ∈ [',', ']', '\x7d']

section Numbers

variable {text rest : List Char} {c : Char}

theorem EndsValue.head?_ne (h : EndsValue rest) (hc : c ∉ [',', ']', '\x7d']) : rest.head? ≠ some c :=
  fun hhead => hc (h c hhead)

theorem EndsValue.takeWhile_isDigit (h : EndsValue rest) : rest.takeWhile Char.isDigit = [] := by
  cases rest with
  | nil => rfl
  | cons c cs =>
    have hc : c.isDigit = false := by
      have hmem := h c rfl
      simp only [List.mem_cons, List.not_mem_nil, or_false] at hmem
      rcases hmem with rfl | rfl | rfl <;> rfl
    rw [List.takeWhile_cons_of_neg (Bool.eq_false_iff.1 hc)]

theorem takeWhile_isDigit_append (h : EndsValue rest) (text : List Char) :
    (text ++ rest).takeWhile Char.isDigit = text.takeWhile Char.isDigit := by
  rw [List.takeWhile_append, h.takeWhile_isDigit, List.append_nil]
  split
  next hall => exact ((List.takeWhile_prefix _).eq_of_length hall).symm
  next => rfl

theorem drop_takeWhile_append (text rest : List Char) (p : Char → Bool) :
    (text ++ rest).drop (text.takeWhile p).length = text.drop (text.takeWhile p).length ++ rest :=
  List.drop_append_of_le_length (List.takeWhile_prefix p).length_le

theorem readFraction_of_head? (h : text.head? ≠ some '.') : readFraction text = some (none, text) := by
  unfold readFraction
  split
  next => exact absurd rfl h
  next => rfl

theorem readFraction_append (h : EndsValue rest) (text : List Char) :
    readFraction (text ++ rest) = (readFraction text).map (Prod.map id (· ++ rest)) := by
  by_cases hpoint : text.head? = some '.'
  · obtain ⟨cs, rfl⟩ := List.head?_eq_some_iff.1 hpoint
    simp only [List.cons_append, readFraction, takeWhile_isDigit_append h, drop_takeWhile_append]
    split <;> rfl
  · have hpoint' : (text ++ rest).head? ≠ some '.' := by
      cases text with
      | nil => exact h.head?_ne (by decide)
      | cons c cs => exact hpoint
    rw [readFraction_of_head? hpoint, readFraction_of_head? hpoint']
    rfl

theorem readExponent_of_head? (h : text.head? ≠ some 'e') (h' : text.head? ≠ some 'E') :
    readExponent text = some (none, text) := by
  cases text with
  | nil => rfl
  | cons c cs =>
    unfold readExponent
    refine if_neg ?_
    rintro (rfl | rfl)
    · exact h rfl
    · exact h' rfl

def exponentDigits (negative : Bool) (text : List Char) : Option (Option Int × List Char) :=
  let digits := text.takeWhile Char.isDigit
  let n : Int := digitsValue digits
  if digits.isEmpty then none
  else some (some (if negative then -n else n), text.drop digits.length)

theorem exponentDigits_append (h : EndsValue rest) (negative : Bool) (text : List Char) :
    exponentDigits negative (text ++ rest) = (exponentDigits negative text).map (Prod.map id (· ++ rest)) := by
  simp only [exponentDigits, takeWhile_isDigit_append h, drop_takeWhile_append]
  split <;> rfl

theorem readExponent_signed {sign : Char} (hc : c = 'e' ∨ c = 'E') (hsign : sign = '-' ∨ sign = '+')
    (text : List Char) : readExponent (c :: sign :: text) = exponentDigits (sign = '-') text := by
  rcases hsign with rfl | rfl
  · exact if_pos hc
  · exact if_pos hc

theorem readExponent_unsigned (hc : c = 'e' ∨ c = 'E') (hminus : text.head? ≠ some '-')
    (hplus : text.head? ≠ some '+') : readExponent (c :: text) = exponentDigits false text := by
  unfold readExponent
  dsimp only
  rw [if_pos hc]
  split
  next => exact absurd rfl hminus
  next => exact absurd rfl hplus
  next => rfl

theorem readExponent_append (h : EndsValue rest) (text : List Char) :
    readExponent (text ++ rest) = (readExponent text).map (Prod.map id (· ++ rest)) := by
  cases text with
  | nil =>
    rw [List.nil_append, readExponent_of_head? (h.head?_ne (by decide)) (h.head?_ne (by decide))]
    rfl
  | cons c cs =>
    rw [List.cons_append]
    by_cases hc : c = 'e' ∨ c = 'E'
    · cases cs with
      | nil =>
        have hnil : ∀ d : Char, ([] : List Char).head? ≠ some d := nofun
        rw [List.nil_append, readExponent_unsigned hc (h.head?_ne (by decide)) (h.head?_ne (by decide)),
          readExponent_unsigned hc (hnil _) (hnil _), ← exponentDigits_append h, List.nil_append]
      | cons d ds =>
        rw [List.cons_append]
        by_cases hd : d = '-' ∨ d = '+'
        · rw [readExponent_signed hc hd, readExponent_signed hc hd, exponentDigits_append h]
        · have hminus : ∀ tail : List Char, (d :: tail).head? ≠ some '-' :=
            fun _ hhead => hd (.inl (Option.some.inj hhead))
          have hplus : ∀ tail : List Char, (d :: tail).head? ≠ some '+' :=
            fun _ hhead => hd (.inr (Option.some.inj hhead))
          rw [readExponent_unsigned hc (hminus _) (hplus _), readExponent_unsigned hc (hminus _) (hplus _),
            ← exponentDigits_append h, List.cons_append]
    · have hnone : ∀ tail, readExponent (c :: tail) = some (none, c :: tail) := fun _ => if_neg hc
      rw [hnone, hnone]
      rfl

def readMagnitude (negative : Bool) (text : List Char) : Option (Json × List Char) := do
  let whole := text.takeWhile Char.isDigit
  if whole.isEmpty || (whole.head? = some '0' && whole.length > 1) then none
  else
    let (fraction, rest) ← readFraction (text.drop whole.length)
    let (exponent, rest) ← readExponent rest
    return (← readNumber negative whole fraction exponent, rest)

theorem readNumberText_eq (text : List Char) : readNumberText text =
    if text.head? = some '-' then readMagnitude true text.tail else readMagnitude false text := by
  unfold readNumberText
  by_cases hminus : text.head? = some '-'
  · simp only [hminus]
    rfl
  · simp only [hminus]
    rfl

theorem readMagnitude_append (h : EndsValue rest) (negative : Bool) (text : List Char) :
    readMagnitude negative (text ++ rest) = (readMagnitude negative text).map (Prod.map id (· ++ rest)) := by
  simp only [readMagnitude, takeWhile_isDigit_append h, drop_takeWhile_append, readFraction_append h]
  split
  next => rfl
  next =>
    cases readFraction (text.drop (text.takeWhile Char.isDigit).length) with
    | none => rfl
    | some p =>
      simp only [Option.map_some, Prod.map, Option.bind_eq_bind, Option.bind_some, readExponent_append h]
      cases readExponent p.2 with
      | none => rfl
      | some q =>
        simp only [Option.map_some, Prod.map, Option.bind_some, id_eq]
        cases readNumber negative (text.takeWhile Char.isDigit) p.1 q.1 <;> rfl

/-- What follows a number within a value is not part of it. -/
theorem readNumberText_append (h : EndsValue rest) (text : List Char) :
    readNumberText (text ++ rest) = (readNumberText text).map (Prod.map id (· ++ rest)) := by
  cases text with
  | nil =>
    rw [List.nil_append, readNumberText_eq, if_neg (h.head?_ne (by decide)), ← List.nil_append rest,
      readMagnitude_append h]
    rfl
  | cons c cs =>
    rw [readNumberText_eq, readNumberText_eq, List.cons_append, List.head?_cons, List.head?_cons, List.tail_cons,
      List.tail_cons, ← List.cons_append, readMagnitude_append h, readMagnitude_append h]
    split <;> rfl

theorem absorb_of_lt {n : Nat} {ds : List Char} (taken : Nat) (h : Nat.ofDigitChars 10 ds n < 2 ^ (64 : Nat)) :
    absorb n taken ds = (Nat.ofDigitChars 10 ds n, taken + ds.length, 0) := by
  induction ds generalizing n taken with
  | nil => rfl
  | cons c ds ih =>
    rw [Nat.ofDigitChars_cons] at h ⊢
    have hle : 10 * n + (c.toNat - '0'.toNat) ≤ Nat.ofDigitChars 10 ds (10 * n + (c.toNat - '0'.toNat)) := by
      rw [Nat.ofDigitChars_eq_ofDigitChars_zero]
      exact Nat.le_add_right_of_le (Nat.le_mul_of_pos_left _ (Nat.pow_pos (Nat.succ_pos 9)))
    rw [absorb, if_pos (Nat.lt_of_le_of_lt hle h), ih _ h, List.length_cons, Nat.add_assoc, Nat.add_comm 1]

theorem absorb_toDigits {n : Nat} (h : n < 2 ^ (64 : Nat)) :
    absorb 0 0 (Nat.toDigits 10 n) = (n, (Nat.toDigits 10 n).length, 0) := by
  have hvalue : Nat.ofDigitChars 10 (Nat.toDigits 10 n) 0 = n := Nat.ofDigitChars_ten_toDigits
  rw [absorb_of_lt 0 (by rwa [hvalue]), hvalue, Nat.zero_add]

theorem toDigits_head?_ne_zero {n : Nat} (hn : 0 < n) : (Nat.toDigits 10 n).head? ≠ some '0' := by
  induction n using Nat.strongRecOn with
  | ind n ih =>
    by_cases hten : n < 10
    · have hdigit : ∀ n < 10, 0 < n → [Nat.digitChar n].head? ≠ some '0' := by decide
      rw [Nat.toDigits_of_lt_base hten]
      exact hdigit n hten hn
    · rw [Nat.toDigits_of_base_le (by decide) (Nat.le_of_not_lt hten),
        List.head?_append_of_ne_nil _ Nat.toDigits_ne_nil]
      exact ih (n / 10) (by omega) (by omega)

theorem toDigits_length_of_head? {n : Nat} (h : (Nat.toDigits 10 n).head? = some '0') :
    (Nat.toDigits 10 n).length = 1 := by
  cases n with
  | zero => rfl
  | succ n => exact absurd h (toDigits_head?_ne_zero n.succ_pos)

/-- The digits of a word are read as the number that they write. -/
theorem readMagnitude_toDigits {n : Nat} (h : n < 2 ^ (64 : Nat)) {negative : Bool}
    (hnegative : negative = true → 0 < n ∧ n ≤ 2 ^ (63 : Nat)) :
    readMagnitude negative (Nat.toDigits 10 n) = some (.int (if negative then -(n : Int) else n), []) := by
  have hdigits : (Nat.toDigits 10 n).takeWhile Char.isDigit = Nat.toDigits 10 n :=
    List.takeWhile_eq_self_iff.2 fun _ hc => Nat.isDigit_of_mem_toDigits (by decide) (by decide) hc
  have hwhole : ((Nat.toDigits 10 n).isEmpty ||
      ((Nat.toDigits 10 n).head? = some '0' && (Nat.toDigits 10 n).length > 1)) = false := by
    rw [Bool.or_eq_false_iff, List.isEmpty_eq_false_iff]
    refine ⟨Nat.toDigits_ne_nil, Bool.eq_false_iff.2 ?_⟩
    simp only [ne_eq, Bool.and_eq_true, decide_eq_true_eq, not_and]
    intro hzero
    rw [toDigits_length_of_head? hzero]
    exact Nat.lt_irrefl 1
  have hrange : (negative && (n = 0 || n > 2 ^ (63 : Nat))) = false := by
    rw [Bool.eq_false_iff]
    simp only [ne_eq, Bool.and_eq_true, Bool.or_eq_true, decide_eq_true_eq]
    rintro ⟨hneg, hout⟩
    have hin := hnegative hneg
    omega
  have hnumber : readNumber negative (Nat.toDigits 10 n) none none =
      some (.int (if negative then -(n : Int) else n)) := by
    rw [readNumber, absorb_toDigits h]
    simp only [hrange]
    rfl
  rw [readMagnitude, hdigits, hwhole, List.drop_length]
  change (readNumber negative (Nat.toDigits 10 n) none none).bind (fun j => some (j, [])) = _
  rw [hnumber, Option.bind_some]

theorem readNumberText_int {n : Int} (h : n.natAbs < 2 ^ (64 : Nat))
    (hnegative : n < 0 → n.natAbs ≤ 2 ^ (63 : Nat)) : readNumberText (int n).write = some (int n, []) := by
  rw [write, readNumberText_eq]
  by_cases hn : n < 0
  · rw [if_pos hn, List.singleton_append, List.head?_cons, if_pos rfl, List.tail_cons,
      readMagnitude_toDigits h fun _ => ⟨Int.natAbs_pos.2 (Int.ne_of_lt hn), hnegative hn⟩, if_pos rfl,
      Int.ofNat_natAbs_of_nonpos (Int.le_of_lt hn), Int.neg_neg]
  · have hhead : (Nat.toDigits 10 n.natAbs).head? ≠ some '-' := by
      intro hminus
      have hdigit := Nat.isDigit_of_mem_toDigits (Nat.succ_pos 9) (Nat.le_refl 10) (List.mem_of_head? hminus)
      exact absurd hdigit (by decide)
    have hfalse : false = true → 0 < n.natAbs ∧ n.natAbs ≤ 2 ^ (63 : Nat) :=
      fun hfalse => absurd hfalse Bool.false_ne_true
    rw [if_neg hn, List.nil_append, if_neg hhead, readMagnitude_toDigits h hfalse, if_neg Bool.false_ne_true,
      Int.natAbs_of_nonneg (Int.not_lt.1 hn)]

instance (reading : Option (Json × List Char)) (x : Binary64) (rest : List Char) :
    Decidable (reading = some (float x, rest)) :=
  match reading with
  | some (float y, rest') => decidable_of_iff (y = x ∧ rest' = rest) (by simp)
  | none | some (null, _) | some (bool _, _) | some (int _, _) | some (string _, _) | some (array _, _)
  | some (object _, _) => isFalse (by simp)

theorem isBlank_of_start (hc : c = '-' ∨ c.isDigit = true) : isBlank c = false := by
  rw [Bool.eq_false_iff]
  intro hblank
  simp only [isBlank, Bool.or_eq_true, decide_eq_true_eq] at hblank
  rcases hblank with ((rfl | rfl) | rfl) | rfl <;> exact absurd hc (by decide)

theorem head?_of_readNumberText {p : Json × List Char} (h : readNumberText text = some p) :
    ∃ c, text.head? = some c ∧ (c = '-' ∨ c.isDigit = true) := by
  cases text with
  | nil => cases h
  | cons c cs =>
    refine ⟨c, rfl, ?_⟩
    by_cases hminus : c = '-'
    · exact .inl hminus
    · refine .inr (Bool.of_not_eq_false fun hdigit => ?_)
      rw [readNumberText_eq, List.head?_cons, if_neg (fun hhead => hminus (Option.some.inj hhead)),
        readMagnitude, List.takeWhile_cons_of_neg (Bool.eq_false_iff.1 hdigit)] at h
      cases h

end Numbers

/-- A value that its text spells: whole numbers fit in words, the texts of other numbers are read as these, and no
key stands twice in an object. -/
inductive Legible : Json → Prop
  | null : Legible null
  | bool (b : Bool) : Legible (bool b)
  | int {n : Int} (hword : n.natAbs < 2 ^ (64 : Nat)) (hnegative : n < 0 → n.natAbs ≤ 2 ^ (63 : Nat)) :
    Legible (int n)
  | float {x : Binary64} (hread : readNumberText (floatText x) = some (float x, [])) : Legible (float x)
  | string (s : String) : Legible (string s)
  | array {items : List Json} (hitems : ∀ item ∈ items, Legible item) : Legible (array items)
  | object {fields : List (String × Json)} (hfields : ∀ f ∈ fields, Legible f.2)
    (hkeys : (fields.map Prod.fst).Nodup) : Legible (object fields)

theorem Legible.object_of_forall {fields : List (String × Json)} (hfields : fields.Forall (·.2.Legible))
    (hkeys : (fields.map Prod.fst).Nodup) : Legible (.object fields) :=
  .object (List.forall_iff_forall_mem.1 hfields) hkeys

theorem Legible.head?_write {j : Json} (h : j.Legible) :
    ∃ c, j.write.head? = some c ∧ isBlank c = false ∧ c ≠ ']' := by
  have hnumber : ∀ c : Char, c = '-' ∨ c.isDigit = true → isBlank c = false ∧ c ≠ ']' := by
    intro c hc
    refine ⟨isBlank_of_start hc, ?_⟩
    rintro rfl
    exact absurd hc (by decide)
  cases h with
  | null => exact ⟨'n', rfl, by decide⟩
  | bool b =>
    cases b with
    | true => exact ⟨'t', rfl, by decide⟩
    | false => exact ⟨'f', rfl, by decide⟩
  | int hword hnegative =>
    obtain ⟨c, hc, hstart⟩ := head?_of_readNumberText (readNumberText_int hword hnegative)
    exact ⟨c, hc, hnumber c hstart⟩
  | float hread =>
    obtain ⟨c, hc, hstart⟩ := head?_of_readNumberText hread
    rw [write]
    exact ⟨c, hc, hnumber c hstart⟩
  | string s => exact ⟨'"', by rw [write]; rfl, by decide⟩
  | array hitems => exact ⟨'[', by rw [write]; rfl, by decide⟩
  | object hfields hkeys => exact ⟨'\x7b', by rw [write]; rfl, by decide⟩

section Structure

variable {j : Json} {js : List Json} {f : String × Json} {fs before : List (String × Json)} {fuel : Nat}
  {c : Char} {cs rest : List Char}

/-- The text of a value is read as this value, whatever follows it within another. Two levels of the reading for
each of its characters suffice. -/
def ReadsBack (j : Json) : Prop := ∀ fuel rest, EndsValue rest → 2 * j.write.length ≤ fuel →
  readValue fuel (j.write ++ rest) = some (j, rest)

theorem skipBlanks_cons (hc : isBlank c = false) (cs : List Char) : skipBlanks (c :: cs) = c :: cs :=
  List.dropWhile_cons_of_neg (Bool.eq_false_iff.1 hc)

theorem readValue_number (hc : c = '-' ∨ c.isDigit = true) (fuel : Nat) (cs : List Char) :
    readValue (fuel + 1) (c :: cs) = readNumberText (c :: cs) := by
  unfold readValue
  rw [skipBlanks_cons (isBlank_of_start hc)]
  split
  case h_7 => rfl
  all_goals
    next heq =>
      rw [(List.cons.inj heq).1] at hc
      exact absurd hc (by decide)

theorem readValue_items (hhead : cs.head? = some c) (hblank : isBlank c = false) (hc : c ≠ ']') (fuel : Nat) :
    readValue (fuel + 1) ('[' :: cs) = (readItems fuel cs).map (Prod.map array id) := by
  obtain ⟨ds, rfl⟩ := List.head?_eq_some_iff.1 hhead
  unfold readValue
  rw [skipBlanks_cons rfl]
  split
  case h_5 heq =>
    rw [← (List.cons.inj heq).2, skipBlanks_cons hblank]
    split
    next hclose => exact absurd (List.cons.inj hclose).1 hc
    next => cases readItems fuel (c :: ds) <;> rfl
  case h_7 hopen _ => exact absurd rfl (hopen _)
  all_goals
    next heq => exact absurd (List.cons.inj heq).1 (by decide)

theorem readValue_fields (fuel : Nat) (f : String × Json) (rest : List Char) :
    readValue (fuel + 1) ('\x7b' :: (writeField f ++ rest)) =
      (readFields fuel (writeField f ++ rest) []).map (Prod.map object id) := by
  rw [writeField, quoteText, List.cons_append, List.cons_append]
  change Option.bind (readFields fuel _ []) (fun p => some (object p.1, p.2)) = _
  cases readFields fuel _ [] <;> rfl

def writeMoreItems : List Json → List Char
  | [] => [']']
  | j :: js => ',' :: (j.write ++ writeMoreItems js)

theorem write_array_cons (j : Json) (js : List Json) :
    (array (j :: js)).write = '[' :: (j.write ++ writeMoreItems js) := by
  rw [write]
  congr 1
  induction js generalizing j with
  | nil => rfl
  | cons k js ih =>
    have hk := ih k
    rw [writeItems, writeItems, joinWith_cons_cons, List.append_assoc, List.append_assoc]
    rw [writeItems] at hk
    rw [hk]
    rfl

theorem endsValue_writeMoreItems (js : List Json) (rest : List Char) : EndsValue (writeMoreItems js ++ rest) := by
  intro c hc
  cases js <;> cases hc <;> decide

theorem endsValue_writeMore (fs : List (String × Json)) (rest : List Char) : EndsValue (writeMore fs ++ rest) := by
  intro c hc
  cases fs <;> cases hc <;> decide

theorem readItems_write (hj : j.ReadsBack) (hjs : ∀ item ∈ js, item.ReadsBack)
    (hfuel : 2 * (j.write ++ writeMoreItems js).length ≤ fuel) :
    readItems fuel (j.write ++ (writeMoreItems js ++ rest)) = some (j :: js, rest) := by
  -- the comma or the bracket after an item makes up for the level that the items take
  induction js generalizing j fuel with
  | nil =>
    rw [List.length_append, writeMoreItems, List.length_singleton] at hfuel
    obtain ⟨fuel, rfl⟩ := Nat.exists_eq_add_one_of_ne_zero (n := fuel) (by omega)
    rw [readItems, hj fuel _ (endsValue_writeMoreItems [] rest) (by omega)]
    rfl
  | cons k js ih =>
    rw [List.forall_mem_cons] at hjs
    rw [List.length_append, writeMoreItems, List.length_cons] at hfuel
    obtain ⟨fuel, rfl⟩ := Nat.exists_eq_add_one_of_ne_zero (n := fuel) (by omega)
    rw [readItems, hj fuel _ (endsValue_writeMoreItems (k :: js) rest) (by omega)]
    have hmore : 2 * (k.write ++ writeMoreItems js).length ≤ fuel := by omega
    rw [Option.bind_eq_bind, Option.bind_some, writeMoreItems, List.cons_append, List.append_assoc]
    change (readItems fuel (k.write ++ (writeMoreItems js ++ rest))).bind (fun p => some (j :: p.1, p.2)) = _
    rw [ih hjs.1 hjs.2 hmore]
    rfl

theorem withField_of_notMem {key : String} (value : Json) (hkey : key ∉ before.map Prod.fst) :
    withField key value before = before ++ [(key, value)] := by
  induction before with
  | nil => rfl
  | cons g gs ih =>
    rw [List.map_cons, List.mem_cons, not_or] at hkey
    rw [withField, if_neg hkey.1, ih hkey.2, List.cons_append]

theorem readFields_writeField (hf : f.2.ReadsBack) (hrest : EndsValue rest)
    (hfuel : 2 * f.2.write.length ≤ fuel) :
    readFields (fuel + 1) (writeField f ++ rest) before =
      match skipBlanks rest with
      | ',' :: rest => readFields fuel rest (withField f.1 f.2 before)
      | '\x7d' :: rest => some (withField f.1 f.2 before, rest)
      | _ => none := by
  have htext : writeField f ++ rest =
      '"' :: (f.1.toList.flatMap escapeChar ++ '"' :: ':' :: (f.2.write ++ rest)) := by
    simp only [writeField, quoteText, List.cons_append, List.append_assoc, List.nil_append]
  rw [htext, readFields, skipBlanks_cons rfl]
  change Option.bind (readText _) _ = _
  rw [readText_escaped, Option.bind_some]
  change Option.bind (readValue fuel (f.2.write ++ rest)) _ = _
  rw [hf fuel rest hrest hfuel, Option.bind_some, String.ofList_toList]
  rfl

theorem length_write_lt_writeField (f : String × Json) : f.2.write.length < (writeField f).length := by
  rw [writeField, List.length_append, List.length_cons]
  omega

theorem notMem_keys_of_nodup (h : ((before ++ f :: fs).map Prod.fst).Nodup) : f.1 ∉ before.map Prod.fst := by
  rw [List.map_append, List.map_cons, List.nodup_append] at h
  exact fun hmem => h.2.2 _ hmem _ List.mem_cons_self rfl

theorem readFields_write (hf : f.2.ReadsBack) (hfs : ∀ g ∈ fs, g.2.ReadsBack)
    (hkeys : ((before ++ f :: fs).map Prod.fst).Nodup)
    (hfuel : 2 * (writeField f ++ writeMore fs).length ≤ fuel) :
    readFields fuel (writeField f ++ (writeMore fs ++ rest)) before = some (before ++ f :: fs, rest) := by
  induction fs generalizing f before fuel with
  | nil =>
    have hvalue := length_write_lt_writeField f
    rw [List.length_append, writeMore, List.length_singleton] at hfuel
    obtain ⟨fuel, rfl⟩ := Nat.exists_eq_add_one_of_ne_zero (n := fuel) (by omega)
    have hfield : 2 * f.2.write.length ≤ fuel := by omega
    rw [readFields_writeField hf (endsValue_writeMore [] rest) hfield,
      withField_of_notMem f.2 (notMem_keys_of_nodup hkeys)]
    rfl
  | cons g fs ih =>
    have hvalue := length_write_lt_writeField f
    rw [List.forall_mem_cons] at hfs
    rw [List.length_append, writeMore, List.length_cons] at hfuel
    obtain ⟨fuel, rfl⟩ := Nat.exists_eq_add_one_of_ne_zero (n := fuel) (by omega)
    have hfield : 2 * f.2.write.length ≤ fuel := by omega
    rw [readFields_writeField hf (endsValue_writeMore (g :: fs) rest) hfield,
      withField_of_notMem f.2 (notMem_keys_of_nodup hkeys), writeMore, List.cons_append, List.append_assoc]
    change readFields fuel (writeField g ++ (writeMore fs ++ rest)) (before ++ [f]) = _
    rw [List.append_cons before f (g :: fs)] at hkeys ⊢
    have hmore : 2 * (writeField g ++ writeMore fs).length ≤ fuel := by omega
    exact ih hfs.1 hfs.2 hkeys hmore

theorem ReadsBack.of_succ (hj : j.Legible) (h : ∀ fuel rest, EndsValue rest → 2 * j.write.length ≤ fuel + 1 →
    readValue (fuel + 1) (j.write ++ rest) = some (j, rest)) : j.ReadsBack := by
  intro fuel rest hrest hfuel
  cases fuel with
  | zero =>
    obtain ⟨c, hc, -⟩ := hj.head?_write
    obtain ⟨cs, hcs⟩ := List.head?_eq_some_iff.1 hc
    rw [hcs] at hfuel
    cases hfuel
  | succ fuel => exact h fuel rest hrest hfuel

theorem ReadsBack.of_number (hj : j.Legible) (h : readNumberText j.write = some (j, [])) : j.ReadsBack := by
  refine .of_succ hj fun fuel rest hrest _ => ?_
  obtain ⟨c, hc, hstart⟩ := head?_of_readNumberText h
  obtain ⟨cs, hcs⟩ := List.head?_eq_some_iff.1 hc
  have happend := readNumberText_append hrest j.write
  rw [h, hcs] at happend
  rw [hcs, List.cons_append, readValue_number hstart, ← List.cons_append, happend]
  rfl

end Structure

/-- A legible value is read back from its text, whatever follows it within another. -/
theorem Legible.readsBack {j : Json} (h : j.Legible) : j.ReadsBack := by
  induction h with
  | null => exact .of_succ .null fun _ _ _ _ => rfl
  | bool b =>
    refine .of_succ (.bool b) fun _ _ _ _ => ?_
    cases b <;> rfl
  | int hword hnegative => exact .of_number (.int hword hnegative) (readNumberText_int hword hnegative)
  | float hread => exact .of_number (.float hread) (by rw [write, hread])
  | string s =>
    refine .of_succ (.string s) fun fuel rest _ _ => ?_
    have htext : (Json.string s).write ++ rest = '"' :: (s.toList.flatMap escapeChar ++ '"' :: rest) := by
      rw [write, quoteText, List.cons_append, List.append_assoc, List.singleton_append]
    rw [htext, readValue, skipBlanks_cons rfl]
    change Option.bind (readText _) _ = _
    rw [readText_escaped, Option.bind_some]
    change some (Json.string (String.ofList s.toList), rest) = _
    rw [String.ofList_toList]
  | @array items hitems ih =>
    refine .of_succ (.array hitems) fun fuel rest _ hfuel => ?_
    cases items with
    | nil => rfl
    | cons j js =>
      rw [List.forall_mem_cons] at hitems ih
      obtain ⟨c, hc, hblank, hbracket⟩ := hitems.1.head?_write
      rw [write_array_cons, List.length_cons] at hfuel
      have hmore : 2 * (j.write ++ writeMoreItems js).length ≤ fuel := by omega
      have hhead : (j.write ++ (writeMoreItems js ++ rest)).head? = some c := by
        rw [List.head?_append, hc, Option.some_or]
      rw [write_array_cons, List.cons_append, List.append_assoc, readValue_items hhead hblank hbracket,
        readItems_write ih.1 ih.2 hmore]
      rfl
  | @object fields hfields hkeys ih =>
    refine .of_succ (.object hfields hkeys) fun fuel rest _ hfuel => ?_
    cases fields with
    | nil => rfl
    | cons f fs =>
      rw [List.forall_mem_cons] at ih
      rw [write_object_cons, List.length_cons] at hfuel
      have hmore : 2 * (writeField f ++ writeMore fs).length ≤ fuel := by omega
      rw [write_object_cons, List.cons_append, List.append_assoc, readValue_fields,
        readFields_write ih.1 ih.2 hkeys hmore]
      rfl

theorem ofText?_write {j : Json} (h : j.Legible) : ofText? j.write = some j := by
  have hread := h.readsBack (2 * j.write.length + 2) [] nofun (Nat.le_add_right _ 2)
  rw [List.append_nil] at hread
  rw [ofText?, hread]
  rfl

end Delegation.Json
