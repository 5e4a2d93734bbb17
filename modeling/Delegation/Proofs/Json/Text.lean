import Delegation.Json.Reader
import Delegation.Json.Writer

namespace Delegation.Json

def andThenRead (c : Char) (cs : List Char) : Option (List Char × List Char) :=
  (readText cs).bind fun (text, rest) => some (c :: text, rest)

theorem readText_plain {c : Char} (hquote : c ≠ '"') (hslash : c ≠ '\\') (hcontrol : ¬c.toNat < 0x20)
    (cs : List Char) : readText (c :: cs) = andThenRead c cs := by
  rw [readText]
  · rw [if_neg hcontrol]
    rfl
  · exact hquote
  · rintro _ _ _ _ _ rfl
    exact absurd rfl hslash
  · rintro _ _ rfl
    exact absurd rfl hslash

theorem readText_simple {e c : Char} (he : simpleEscape? e = some c) (cs : List Char) :
    readText ('\\' :: e :: cs) = andThenRead c cs := by
  rw [readText]
  · rw [he]
    rfl
  · rintro _ _ _ _ _ rfl
    cases he

theorem hexQuad?_hexPair {n : Nat} (h : n < 0x20) :
    hexQuad? '0' '0' (Nat.digitChar (n / 16)) (Nat.digitChar (n % 16)) = some n := by
  decide +revert

theorem readText_control {c : Char} (h : c.toNat < 0x20) (cs : List Char) :
    readText ('\\' :: 'u' :: '0' :: '0' :: (hexPair c.toNat ++ cs)) = andThenRead c cs := by
  rw [hexPair, List.cons_append, List.cons_append, List.nil_append, readText, hexQuad?_hexPair h]
  have hunit : c.toNat < 0xd800 ∨ 0xdfff < c.toNat := .inl (Nat.lt_trans h (by decide))
  simp only [Option.bind_eq_bind, Option.bind_some, if_pos hunit, Char.ofNat_toNat]
  rfl

theorem escapeChar_cases (c : Char) :
    (∃ e, simpleEscape? e = some c ∧ escapeChar c = ['\\', e]) ∨
      (c.toNat < 0x20 ∧ escapeChar c = '\\' :: 'u' :: '0' :: '0' :: hexPair c.toNat) ∨
      c ≠ '"' ∧ c ≠ '\\' ∧ ¬c.toNat < 0x20 ∧ escapeChar c = [c] := by
  by_cases hnamed : c ∈ ['"', '\\', '\x08', '\x0c', '\n', '\r', '\t']
  · simp only [List.mem_cons, List.not_mem_nil, or_false] at hnamed
    rcases hnamed with rfl | rfl | rfl | rfl | rfl | rfl | rfl
    all_goals exact .inl ⟨_, rfl, rfl⟩
  · simp only [List.mem_cons, List.not_mem_nil, or_false, not_or] at hnamed
    obtain ⟨h₁, h₂, h₃, h₄, h₅, h₆, h₇⟩ := hnamed
    rw [escapeChar, if_neg h₁, if_neg h₂, if_neg h₃, if_neg h₄, if_neg h₅, if_neg h₆, if_neg h₇]
    split
    next hcontrol => exact .inr (.inl ⟨hcontrol, rfl⟩)
    next hcontrol => exact .inr (.inr ⟨h₁, h₂, hcontrol, rfl⟩)

theorem readText_escapeChar (c : Char) (cs : List Char) :
    readText (escapeChar c ++ cs) = andThenRead c cs := by
  rcases escapeChar_cases c with ⟨e, he, hc⟩ | ⟨hcontrol, hc⟩ | ⟨hquote, hslash, hcontrol, hc⟩
  · rw [hc]
    exact readText_simple he cs
  · rw [hc]
    exact readText_control hcontrol cs
  · rw [hc]
    exact readText_plain hquote hslash hcontrol cs

/-- A quoted text is read back, up to its closing quote. -/
theorem readText_escaped (text rest : List Char) :
    readText (text.flatMap escapeChar ++ '"' :: rest) = some (text, rest) := by
  induction text with
  | nil => rfl
  | cons c cs ih =>
    rw [List.flatMap_cons, List.append_assoc, readText_escapeChar, andThenRead, ih]
    rfl

theorem quoteText_append_inj {s t r r' : List Char} (h : quoteText s ++ r = quoteText t ++ r') :
    s = t ∧ r = r' := by
  simp only [quoteText, List.cons_append, List.append_assoc, List.nil_append, List.cons.injEq,
    true_and] at h
  have hread := readText_escaped s r
  rw [h, readText_escaped] at hread
  cases hread
  exact ⟨rfl, rfl⟩

def IsTextOrNull : Json → Prop
  | null | string _ => True
  | _ => False

variable {j j' : Json} {f f' : String × Json} {fs fs' : List (String × Json)} {r r' : List Char}

theorem write_append_inj (hj : j.IsTextOrNull) (hj' : j'.IsTextOrNull)
    (h : j.write ++ r = j'.write ++ r') : j = j' ∧ r = r' := by
  cases j with
  | null =>
    cases j' with
    | null => exact ⟨rfl, List.append_cancel_left h⟩
    | string s =>
      rw [write, write, quoteText] at h
      exact absurd (List.cons.inj h).1 (by decide)
    | _ => cases hj'
  | string s =>
    cases j' with
    | null =>
      rw [write, write, quoteText] at h
      exact absurd (List.cons.inj h).1 (by decide)
    | string t =>
      rw [write, write] at h
      obtain ⟨hst, hr⟩ := quoteText_append_inj h
      rw [String.toList_inj.1 hst]
      exact ⟨rfl, hr⟩
    | _ => cases hj'
  | _ => cases hj

def writeField (f : String × Json) : List Char := quoteText f.1.toList ++ ':' :: f.2.write

theorem writeField_append_inj (hf : f.2.IsTextOrNull) (hf' : f'.2.IsTextOrNull)
    (h : writeField f ++ r = writeField f' ++ r') : f = f' ∧ r = r' := by
  rw [writeField, writeField, List.append_assoc, List.append_assoc] at h
  obtain ⟨hkey, hvalue⟩ := quoteText_append_inj h
  obtain ⟨hj, hr⟩ := write_append_inj hf hf' (List.cons.inj hvalue).2
  exact ⟨Prod.ext (String.toList_inj.1 hkey) hj, hr⟩

def writeMore : List (String × Json) → List Char
  | [] => ['\x7d']
  | f :: fs => ',' :: (writeField f ++ writeMore fs)

theorem write_object_cons (f : String × Json) (fs : List (String × Json)) :
    (object (f :: fs)).write = '\x7b' :: (writeField f ++ writeMore fs) := by
  rw [write]
  congr 1
  induction fs generalizing f with
  | nil => rfl
  | cons g fs ih =>
    have hg := ih g
    rw [writeFields, writeFields, joinWith_cons_cons, List.append_assoc, List.append_assoc]
    rw [writeFields] at hg
    rw [hg]
    rfl

theorem writeMore_inj (hfs : ∀ f ∈ fs, f.2.IsTextOrNull) (hfs' : ∀ f ∈ fs', f.2.IsTextOrNull)
    (h : writeMore fs = writeMore fs') : fs = fs' := by
  induction fs generalizing fs' with
  | nil =>
    cases fs' with
    | nil => rfl
    | cons f' fs' => exact absurd (List.cons.inj h).1 (by decide)
  | cons f fs ih =>
    cases fs' with
    | nil => exact absurd (List.cons.inj h).1 (by decide)
    | cons f' fs' =>
      rw [List.forall_mem_cons] at hfs hfs'
      obtain ⟨rfl, hmore⟩ := writeField_append_inj hfs.1 hfs'.1 (List.cons.inj h).2
      rw [ih hfs.2 hfs'.2 hmore]

/-- The text of an object of texts and nulls determines its fields. -/
theorem write_object_inj (hfs : ∀ f ∈ fs, f.2.IsTextOrNull) (hfs' : ∀ f ∈ fs', f.2.IsTextOrNull)
    (h : (object fs).write = (object fs').write) : fs = fs' := by
  cases fs with
  | nil =>
    cases fs' with
    | nil => rfl
    | cons f' fs' =>
      rw [write_object_cons] at h
      exact absurd (List.cons.inj (List.cons.inj h).2).1 (by decide)
  | cons f fs =>
    cases fs' with
    | nil =>
      rw [write_object_cons] at h
      exact absurd (List.cons.inj (List.cons.inj h).2).1 (by decide)
    | cons f' fs' =>
      rw [write_object_cons, write_object_cons] at h
      rw [List.forall_mem_cons] at hfs hfs'
      obtain ⟨rfl, hmore⟩ := writeField_append_inj hfs.1 hfs'.1 (List.cons.inj h).2
      rw [writeMore_inj hfs.2 hfs'.2 hmore]

end Delegation.Json
