import Concolic.Proofs.CaseText

/-!
# The text of values

A quoted text is taken apart in one way only. Each of its characters is written raw, or as a backslash and a letter, or
by its code point, and none of these begins another one, whichever characters are written by code point. So the text of a
value belongs to that value alone: a number, a quoted text and hexadecimal octets are never alike.
-/

namespace Concolic

namespace Hex

def number (s : List Char) : Nat :=
  s.foldl (fun n c => 16 * n + (digit? c).getD 0) 0

theorem number_toDigits (n : Nat) : number (Nat.toDigits 16 n) = n := by
  induction n using Nat.strongRecOn with
  | ind n ih =>
    by_cases hn : n < 16
    · rw [Nat.toDigits_of_lt_base hn]
      simp [number, digit?_digitChar hn]
    · have hlow : digit? (Nat.digitChar (n % 16)) = some (n % 16) := digit?_digitChar (Nat.mod_lt n (by decide))
      have hhigh : number (Nat.toDigits 16 (n / 16)) = n / 16 := ih (n / 16) (by omega)
      rw [Nat.toDigits_of_base_le (by decide) (Nat.le_of_not_lt hn), number, List.foldl_append]
      rw [number] at hhigh
      rw [hhigh, List.foldl_cons, List.foldl_nil, hlow, Option.getD_some, Nat.div_add_mod]

theorem toDigits_injective : Function.Injective (Nat.toDigits 16) :=
  Function.LeftInverse.injective number_toDigits

theorem isSome_digit?_of_mem_toDigits {n : Nat} : ∀ c ∈ Nat.toDigits 16 n, (digit? c).isSome = true := by
  induction n using Nat.strongRecOn with
  | ind n ih =>
    intro c hc
    by_cases hn : n < 16
    · rw [Nat.toDigits_of_lt_base hn, List.mem_singleton] at hc
      rw [hc, digit?_digitChar hn, Option.isSome_some]
    · rw [Nat.toDigits_of_base_le (by decide) (Nat.le_of_not_lt hn), List.mem_append, List.mem_singleton] at hc
      rcases hc with hc | rfl
      · exact ih (n / 16) (by omega) c hc
      · rw [digit?_digitChar (Nat.mod_lt n (by decide)), Option.isSome_some]

end Hex

namespace Quoted

/-- The characters that are written as a backslash and a letter, with their letters. -/
def letters : List (Char × Char) :=
  [('\x00', '0'), ('\t', 't'), ('\r', 'r'), ('\n', 'n'), ('"', '"'), ('\\', '\\')]

/-- The ways to write a character inside the quotes. -/
inductive Escapes : Char → List Char → Prop
  | raw {c : Char} (hquote : c ≠ '"') (hslash : c ≠ '\\') : Escapes c [c]
  | letter {c l : Char} (h : (c, l) ∈ letters) : Escapes c ['\\', l]
  | codePoint (c : Char) : Escapes c (byCodePoint c)

theorem escapes_escape (hidden : Char → Bool) (c : Char) : Escapes c (escape hidden c) := by
  unfold escape
  split_ifs with h₁ h₂ h₃ h₄ hquote hslash
  · exact .letter (by simp [h₁, letters])
  · exact .letter (by simp [h₂, letters])
  · exact .letter (by simp [h₃, letters])
  · exact .letter (by simp [h₄, letters])
  · exact .letter (by simp [hquote, letters])
  · exact .letter (by simp [hslash, letters])
  · exact .codePoint c
  · exact .raw hquote hslash

theorem eq_of_mem_letters {c d l : Char} (hc : (c, l) ∈ letters) (hd : (d, l) ∈ letters) : c = d := by
  have hall : ∀ p ∈ letters, ∀ q ∈ letters, p.2 = q.2 → p.1 = q.1 := by decide
  exact hall _ hc _ hd rfl

theorem not_mem_letters_u (c : Char) : (c, 'u') ∉ letters := by
  have hall : ∀ p ∈ letters, p.2 ≠ 'u' := by decide
  exact fun h => hall _ h rfl

/-- What is written by code point is read up to its closing brace. -/
theorem byCodePoint_append_inj {c d : Char} {r r' : List Char} (h : byCodePoint c ++ r = byCodePoint d ++ r') :
    c = d ∧ r = r' := by
  have hbrace (n : Nat) : '\x7d' ∉ Nat.toDigits 16 n := by
    intro hmem
    have hdigit := Hex.isSome_digit?_of_mem_toDigits _ hmem
    revert hdigit
    decide
  simp only [byCodePoint, List.cons_append, List.append_assoc, List.nil_append, List.cons.injEq, true_and] at h
  obtain ⟨hdigits, hrest⟩ := of_append_cons_eq (hbrace _) (hbrace _) h
  exact ⟨Char.toNat_inj.1 (Hex.toDigits_injective hdigits), hrest⟩

namespace Escapes

variable {c d : Char} {e f r r' : List Char}

/-- No way to write a character begins another one. -/
theorem append_inj (h : Escapes c e) (h' : Escapes d f) (heq : e ++ r = f ++ r') : c = d ∧ r = r' := by
  cases h with
  | raw hquote hslash =>
    cases h' with
    | raw => exact List.cons.inj heq
    | letter => exact absurd (List.cons.inj heq).1 hslash
    | codePoint => exact absurd (List.cons.inj heq).1 hslash
  | letter hc =>
    cases h' with
    | raw hquote hslash => exact absurd (List.cons.inj heq).1.symm hslash
    | letter hd =>
      obtain ⟨hl, hrest⟩ := List.cons.inj (List.cons.inj heq).2
      rw [← hl] at hd
      exact ⟨eq_of_mem_letters hc hd, hrest⟩
    | codePoint =>
      have hu := (List.cons.inj (List.cons.inj heq).2).1
      rw [hu] at hc
      exact absurd hc (not_mem_letters_u c)
  | codePoint =>
    cases h' with
    | raw hquote hslash => exact absurd (List.cons.inj heq).1.symm hslash
    | letter hd =>
      have hu := (List.cons.inj (List.cons.inj heq).2).1
      rw [← hu] at hd
      exact absurd hd (not_mem_letters_u d)
    | codePoint => exact byCodePoint_append_inj heq

theorem append_ne_quote_cons (h : Escapes c e) : e ++ r ≠ '"' :: r' := by
  intro heq
  cases h with
  | raw hquote hslash => exact hquote (List.cons.inj heq).1
  | letter => exact absurd (List.cons.inj heq).1 (by decide)
  | codePoint => exact absurd (List.cons.inj heq).1 (by decide)

end Escapes

variable {hidden hidden' : Char → Bool} {s t r r' : List Char}

/-- The characters of a text are read up to the closing quote. The induction is on the text, of which one character
after the other is cut off. -/
theorem flatMap_escape_inj (h : s.flatMap (escape hidden) ++ '"' :: r = t.flatMap (escape hidden') ++ '"' :: r') :
    s = t ∧ r = r' := by
  induction s generalizing t with
  | nil =>
    cases t with
    | nil => exact ⟨rfl, (List.cons.inj h).2⟩
    | cons d t =>
      rw [List.flatMap_cons, List.append_assoc] at h
      exact absurd h.symm (escapes_escape hidden' d).append_ne_quote_cons
  | cons c s ih =>
    cases t with
    | nil =>
      rw [List.flatMap_cons, List.append_assoc] at h
      exact absurd h (escapes_escape hidden c).append_ne_quote_cons
    | cons d t =>
      rw [List.flatMap_cons, List.flatMap_cons, List.append_assoc, List.append_assoc] at h
      obtain ⟨rfl, hrest⟩ := (escapes_escape hidden c).append_inj (escapes_escape hidden' d) h
      obtain ⟨rfl, rfl⟩ := ih hrest
      exact ⟨rfl, rfl⟩

theorem quote_append_inj (h : quote hidden s ++ r = quote hidden' t ++ r') : s = t ∧ r = r' := by
  have hbody : s.flatMap (escape hidden) ++ '"' :: r = t.flatMap (escape hidden') ++ '"' :: r' := by
    simpa [quote] using h
  exact flatMap_escape_inj hbody

/-- A text that spells an escape, beside the text of the character that the escape stands for. -/
example : quote isHidden ['\x07'] = "\"\\u\x7b7\x7d\"".toList ∧
    quote isHidden "\\u\x7b7\x7d".toList = "\"\\\\u\x7b7\x7d\"".toList := by
  decide +kernel

end Quoted

namespace Value

/-- The characters that show a value when `hidden` tells which characters of a text are written by code point. -/
def shown (hidden : Char → Bool) : Value → List Char
  | int n => (toString n.toInt).toList
  | bytes b =>
    match Utf8.decodeChars? b with
    | some s => Quoted.quote hidden s
    | none => '0' :: 'x' :: Hex.ofBytes b

theorem shown_isHidden (v : Value) : v.shown isHidden = v.display := by
  cases v <;> rfl

theorem shown_bytes_cases (hidden : Char → Bool) (b : Bytes) :
    (∃ s, Utf8.decodeChars? b = some s ∧ (bytes b).shown hidden = Quoted.quote hidden s) ∨
      (bytes b).shown hidden = '0' :: 'x' :: Hex.ofBytes b := by
  rw [shown]
  cases h : Utf8.decodeChars? b with
  | some s => exact .inl ⟨s, rfl, rfl⟩
  | none => exact .inr rfl

variable {hidden hidden' : Char → Bool}

theorem shown_int_ne_bytes (n : Int32) (b : Bytes) : (int n).shown hidden ≠ (bytes b).shown hidden' := by
  intro h
  have hnumber : ∀ c ∈ (int n).shown hidden, c ≠ '"' ∧ c ≠ 'x' := by
    refine Decimal.forall_mem_toString (by decide) (fun c hc => ?_) n.toInt
    constructor <;> (rintro rfl; cases hc)
  rw [h] at hnumber
  obtain ⟨s, -, hb⟩ | hb := shown_bytes_cases hidden' b <;> rw [hb] at hnumber
  · exact (hnumber '"' (by simp [Quoted.quote])).1 rfl
  · exact (hnumber 'x' (by simp)).2 rfl

theorem shown_bytes_inj {a b : Bytes} (h : (bytes a).shown hidden = (bytes b).shown hidden') : a = b := by
  obtain ⟨s, hs, ha⟩ | ha := shown_bytes_cases hidden a <;>
    obtain ⟨t, ht, hb⟩ | hb := shown_bytes_cases hidden' b <;> rw [ha, hb] at h
  · have hquoted : Quoted.quote hidden s ++ [] = Quoted.quote hidden' t ++ [] := congrArg (· ++ []) h
    obtain ⟨htext, -⟩ := Quoted.quote_append_inj hquoted
    rw [← Utf8.encodeChars_of_decodeChars? hs, ← Utf8.encodeChars_of_decodeChars? ht, htext]
  · exact absurd (List.cons.inj h).1 (by decide)
  · exact absurd (List.cons.inj h).1 (by decide)
  · exact Hex.ofBytes_injective (List.cons.inj (List.cons.inj h).2).2

theorem eq_of_shown_eq {v w : Value} (h : v.shown hidden = w.shown hidden') : v = w := by
  cases v with
  | int m =>
    cases w with
    | int n => rw [Int32.toInt_inj.1 (Decimal.eq_of_toString_eq (String.toList_inj.1 h))]
    | bytes b => exact absurd h (shown_int_ne_bytes m b)
  | bytes a =>
    cases w with
    | int n => exact absurd h.symm (shown_int_ne_bytes n a)
    | bytes b => rw [shown_bytes_inj h]

/-- A value is told from every other value by its text, whichever characters are written by code point; so a text that a
value holds is told from every other text. -/
theorem text_unambiguous :
    (∀ (hidden : Char → Bool) (v w : Value), v.shown hidden = w.shown hidden ↔ v = w) ∧
      (∀ v : Value, (toString v).toList = v.shown isHidden) ∧
      (∀ v w : Value, toString v = toString w ↔ v = w) ∧
      ∀ s t : String, toString (ofText s) = toString (ofText t) ↔ s = t := by
  have htext (v : Value) : (toString v).toList = v.shown isHidden := by
    rw [shown_isHidden]
    exact String.toList_ofList
  have hvalue (v w : Value) : toString v = toString w ↔ v = w := by
    refine ⟨fun h => ?_, fun h => h ▸ rfl⟩
    have hshown : v.shown isHidden = w.shown isHidden := by rw [← htext, ← htext, h]
    exact eq_of_shown_eq hshown
  refine ⟨fun hidden v w => ⟨eq_of_shown_eq, fun h => h ▸ rfl⟩, htext, hvalue, fun s t => ?_⟩
  rw [hvalue]
  exact ⟨fun h => Utf8.encode_injective (bytes.inj h), fun h => h ▸ rfl⟩

end Value

end Concolic
