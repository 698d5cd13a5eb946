import Concolic.Json.Printer
import Concolic.Json.Reader
import Concolic.Proofs.LineEndings
import Mathlib.Data.List.TakeWhile

/-!
# JSON text read back

The text of a value is read back as the value, whatever quotes, braces, backslashes and control characters its strings
and keys hold, so that no two values have the same text. The text has no character below U+0020 in it and is one line.
-/

namespace Concolic

theorem Decimal.toDigits_ne_zero_cons {n : Nat} (h : 0 < n) (s : List Char) : Nat.toDigits 10 n ≠ '0' :: s := by
  induction n using Nat.strongRecOn generalizing s with
  | ind n ih =>
    intro heq
    by_cases hn : n < 10
    · rw [Nat.toDigits_of_lt_base hn] at heq
      have hzero := Nat.digitChar_eq_zero.1 (List.cons.inj heq).1
      omega
    · rw [Nat.toDigits_of_base_le (by decide) (Nat.le_of_not_lt hn)] at heq
      cases hhead : Nat.toDigits 10 (n / 10) with
      | nil => exact Nat.toDigits_ne_nil hhead
      | cons c t =>
        rw [hhead, List.cons_append] at heq
        obtain ⟨rfl, -⟩ := List.cons.inj heq
        exact ih (n / 10) (by omega) (by omega) t hhead

theorem Hex.digit?_digitChar {n : Nat} (h : n < 16) : Hex.digit? (Nat.digitChar n) = some n := by
  have hall : ∀ n : Fin 16, Hex.digit? (Nat.digitChar n) = some n.val := by decide
  exact hall ⟨n, h⟩

namespace Json

/-- A value that is put together from whole numbers and strings. -/
inductive IsPlain : Json → Prop
  | null : IsPlain null
  | bool (b : Bool) : IsPlain (bool b)
  | integer (n : Int) : IsPlain (integer n)
  | string (s : String) : IsPlain (string s)
  | array {items : List Json} (h : ∀ x ∈ items, IsPlain x) : IsPlain (array items)
  | object {fields : List (String × Json)} (h : ∀ f ∈ fields, IsPlain f.2) : IsPlain (object fields)

theorem IsPlain.natural (n : Nat) : IsPlain (.natural n) :=
  .integer (Int.ofNat n)

namespace Token

/-- What may come after a value: nothing, or punctuation. -/
def Follows (rest : List Char) : Prop :=
  ∀ c ∈ rest.head?, (ofPunctuation? c).isSome = true

theorem follows_nil : Follows [] := nofun

def EndsWord (c : Char) : Prop :=
  c = '"' ∨ c = ' ' ∨ c = '\t' ∨ c = '\n' ∨ c = '\r' ∨ (ofPunctuation? c).isSome = true

instance (c : Char) : Decidable (EndsWord c) :=
  inferInstanceAs (Decidable (_ ∨ _))

/-- Characters that no word ends before. -/
def Unbroken (s : List Char) : Prop :=
  ∀ c ∈ s, ¬ EndsWord c

instance (s : List Char) : Decidable (Unbroken s) :=
  List.decidableBAll (fun c => ¬ EndsWord c) s

theorem scan_cons {p q : Place} {c : Char} {ts : List Token} (h : step p c = some (ts, q)) (s : List Char) :
    scan p (c :: s) = (scan q s).map (ts ++ ·) := by
  cases hscan : scan q s <;> simp [scan, h, hscan]

theorem scan_cons_nil {p q : Place} {c : Char} (h : step p c = some ([], q)) (s : List Char) :
    scan p (c :: s) = scan q s := by
  rw [scan_cons h]
  simp

theorem atStart_punctuation {c : Char} {t : Token} (h : ofPunctuation? c = some t) (before : List Token) :
    step.atStart before c = some (before ++ [t], .between) := by
  have hblank : ¬ (c = ' ' ∨ c = '\t' ∨ c = '\n' ∨ c = '\r') := by
    rintro (rfl | rfl | rfl | rfl) <;> cases h
  have hquote : c ≠ '"' := by
    rintro rfl
    cases h
  simp only [step.atStart, hblank, hquote, if_false, h]

theorem scan_punctuation {c : Char} {t : Token} (h : ofPunctuation? c = some t) (s : List Char) :
    scan .between (c :: s) = (scan .between s).map (t :: ·) := by
  have hstep : step .between c = some ([t], .between) := atStart_punctuation h []
  exact scan_cons hstep s

/-- A word goes on up to what follows it. The induction is on what is left of the word. -/
theorem scan_word {t : Token} {read w rest : List Char} (hw : Unbroken w)
    (ht : ofWord? (read.reverse ++ w) = some t) (hrest : Follows rest) :
    scan (.word read) (w ++ rest) = (scan .between rest).map (t :: ·) := by
  induction w generalizing read with
  | nil =>
    rw [List.append_nil] at ht
    cases rest with
    | nil => simp [scan, ht]
    | cons c s =>
      have hpunctuation : (ofPunctuation? c).isSome = true := hrest c rfl
      obtain ⟨p, hp⟩ := Option.isSome_iff_exists.1 hpunctuation
      have hstep : step (.word read) c = some ([t] ++ [p], .between) := by
        simp only [step, hpunctuation, or_true, if_true, ht, Option.bind_some]
        exact atStart_punctuation hp [t]
      rw [List.nil_append, scan_cons hstep, scan_punctuation hp, Option.map_map]
      rfl
  | cons c w ih =>
    have hstep : step (.word read) c = some ([], .word (c :: read)) := if_neg (hw c List.mem_cons_self)
    rw [List.cons_append, scan_cons_nil hstep]
    refine ih (fun d hd => hw d (List.mem_cons_of_mem c hd)) ?_
    rwa [List.reverse_cons, List.append_assoc]

theorem scan_between_word {t : Token} {w rest : List Char} (hne : w ≠ []) (hw : Unbroken w)
    (ht : ofWord? w = some t) (hrest : Follows rest) :
    scan .between (w ++ rest) = (scan .between rest).map (t :: ·) := by
  cases w with
  | nil => exact absurd rfl hne
  | cons c w =>
    have hc : ¬ EndsWord c := hw c List.mem_cons_self
    simp only [EndsWord, not_or, Bool.not_eq_true, Option.isSome_eq_false_iff, Option.isNone_iff_eq_none] at hc
    obtain ⟨hquote, hspace, htab, hfeed, hreturn, hpunctuation⟩ := hc
    have hstep : step .between c = some ([], .word [c]) := by
      simp [step, step.atStart, hquote, hspace, htab, hfeed, hreturn, hpunctuation]
    rw [List.cons_append, scan_cons_nil hstep]
    exact scan_word (fun d hd => hw d (List.mem_cons_of_mem c hd)) ht hrest

/-- A character of a string stands for itself, or it is spelled by a letter or by its number after a backslash. -/
theorem escape_cases (c : Char) :
    (escape c = [c] ∧ c ≠ '"' ∧ c ≠ '\\' ∧ 0x20 ≤ c.toNat) ∨
      (∃ l, escape c = ['\\', l] ∧ escaped? l = some c ∧ 0x20 ≤ l.toNat) ∨
      (escape c = ['\\', 'u', '0', '0', Nat.digitChar (c.toNat / 16), Nat.digitChar (c.toNat % 16)] ∧
        c.toNat < 0x20) := by
  unfold escape
  split_ifs with hquote hbackslash hb hf hn hr ht hlow
  · exact .inr (.inl ⟨'"', rfl, by rw [hquote]; rfl, by decide⟩)
  · exact .inr (.inl ⟨'\\', rfl, by rw [hbackslash]; rfl, by decide⟩)
  · exact .inr (.inl ⟨'b', rfl, by rw [hb]; rfl, by decide⟩)
  · exact .inr (.inl ⟨'f', rfl, by rw [hf]; rfl, by decide⟩)
  · exact .inr (.inl ⟨'n', rfl, by rw [hn]; rfl, by decide⟩)
  · exact .inr (.inl ⟨'r', rfl, by rw [hr]; rfl, by decide⟩)
  · exact .inr (.inl ⟨'t', rfl, by rw [ht]; rfl, by decide⟩)
  · exact .inr (.inr ⟨rfl, hlow⟩)
  · exact .inl ⟨rfl, hquote, hbackslash, Nat.le_of_not_lt hlow⟩

theorem scan_unit {n : Nat} (h : n < 0x100) (read : List Element) (s : List Char) :
    scan (.string read)
        ('\\' :: 'u' :: '0' :: '0' :: Nat.digitChar (n / 16) :: Nat.digitChar (n % 16) :: s) =
      scan (.string (.unit n :: read)) s := by
  have hhigh : Hex.digit? (Nat.digitChar (n / 16)) = some (n / 16) := Hex.digit?_digitChar (by omega)
  have hlow : Hex.digit? (Nat.digitChar (n % 16)) = some (n % 16) := Hex.digit?_digitChar (by omega)
  have hthird : step (.unit read 0 2) (Nat.digitChar (n / 16)) = some ([], .unit read (n / 16) 1) := by
    simp [step, hhigh]
  have hfourth : step (.unit read (n / 16) 1) (Nat.digitChar (n % 16)) = some ([], .string (.unit n :: read)) := by
    simp [step, hlow, Nat.div_add_mod']
  rw [scan_cons_nil (q := .escape read) rfl, scan_cons_nil (q := .unit read 0 4) rfl,
    scan_cons_nil (q := .unit read 0 3) rfl, scan_cons_nil (q := .unit read 0 2) rfl,
    scan_cons_nil hthird, scan_cons_nil hfourth]

/-- However a string spells a character, it is read as one element that spells it. -/
theorem exists_element (c : Char) : ∃ e : Element,
    (∀ read s, scan (.string read) (escape c ++ s) = scan (.string (e :: read)) s) ∧
      ∀ es, spelled? (e :: es) = (spelled? es).map (c :: ·) := by
  obtain ⟨hescape, hquote, hbackslash, hvisible⟩ | ⟨l, hescape, hl, -⟩ | ⟨hescape, hlow⟩ := escape_cases c
  · refine ⟨.char c, fun read s => ?_, fun es => rfl⟩
    have hstep : step (.string read) c = some ([], .string (.char c :: read)) := by
      simp [step, hquote, hbackslash, Nat.not_lt.2 hvisible]
    rw [hescape, List.singleton_append, scan_cons_nil hstep]
  · refine ⟨.char c, fun read s => ?_, fun es => rfl⟩
    have hu : l ≠ 'u' := by
      rintro rfl
      cases hl
    have hstep : step (.escape read) l = some ([], .string (.char c :: read)) := by simp [step, hu, hl]
    rw [hescape, List.cons_append, scan_cons_nil (q := .escape read) rfl, List.singleton_append,
      scan_cons_nil hstep]
  · refine ⟨.unit c.toNat, fun read s => ?_, fun es => ?_⟩
    · rw [hescape]
      exact scan_unit (by omega) read s
    · have hbelow : c.toNat < 0xD800 ∨ 0xDFFF < c.toNat := by omega
      simp only [spelled?.eq_def (.unit c.toNat :: es), if_pos hbelow, Char.ofNat_toNat]

theorem exists_elements (s : List Char) : ∃ es : List Element,
    (∀ read rest, scan (.string read) (s.flatMap escape ++ rest) = scan (.string (es.reverse ++ read)) rest) ∧
      spelled? es = some s := by
  induction s with
  | nil => exact ⟨[], fun _ _ => rfl, rfl⟩
  | cons c s ih =>
    obtain ⟨e, hscan, hspelled⟩ := exists_element c
    obtain ⟨es, hrest, htext⟩ := ih
    refine ⟨e :: es, fun read rest => ?_, ?_⟩
    · rw [List.flatMap_cons, List.append_assoc, hscan, hrest, List.reverse_cons, List.append_assoc,
        List.singleton_append]
    · rw [hspelled, htext, Option.map_some]

theorem scan_quote (s : String) (rest : List Char) :
    scan .between (quote s ++ rest) = (scan .between rest).map (.string (some s) :: ·) := by
  obtain ⟨es, hscan, hspelled⟩ := exists_elements s.toList
  have hclose : step (.string es.reverse) '"' = some ([.string (some s)], .between) := by
    simp [step, hspelled]
  rw [quote, List.cons_append, scan_cons_nil (q := .string []) rfl, List.append_assoc, hscan, List.append_nil,
    List.singleton_append, scan_cons hclose]
  rfl

theorem afterInteger?_toDigits (n : Nat) : afterInteger? (Nat.toDigits 10 n) = some [] := by
  have hdigits : ∀ c ∈ Nat.toDigits 10 n, c.isDigit = true := Decimal.isDigit_of_mem_toDigits
  have hall : afterDigits? (Nat.toDigits 10 n) = some [] := by
    have htake : (Nat.toDigits 10 n).takeWhile Char.isDigit = Nat.toDigits 10 n :=
      List.takeWhile_eq_self_iff.2 hdigits
    have hdrop : (Nat.toDigits 10 n).dropWhile Char.isDigit = [] := List.dropWhile_eq_nil_iff.2 hdigits
    simp [afterDigits?, htake, hdrop, Nat.toDigits_ne_nil]
  by_cases hn : n = 0
  · subst hn
    decide
  · have hhead : ∀ s, Nat.toDigits 10 n ≠ '0' :: s := Decimal.toDigits_ne_zero_cons (Nat.pos_of_ne_zero hn)
    unfold afterInteger?
    split
    · rename_i s hs
      exact absurd hs (hhead s)
    · exact hall

theorem isNumber_toString (n : Int) : isNumber (toString n).toList = true := by
  cases n with
  | ofNat m =>
    rw [Decimal.toList_toString_ofNat]
    unfold isNumber
    dsimp only
    split
    · rename_i s hs
      have hsign := Decimal.isDigit_of_mem_toDigits '-' (hs ▸ List.mem_cons_self)
      cases hsign
    · rw [afterInteger?_toDigits]
      rfl
  | negSucc m =>
    rw [Decimal.toList_toString_negSucc]
    change ((((afterInteger? (Nat.toDigits 10 (m + 1))).bind afterFraction?).bind afterExponent?) == some []) = true
    rw [afterInteger?_toDigits]
    rfl

theorem unbroken_toString (n : Int) : Unbroken (toString n).toList := by
  refine Decimal.forall_mem_toString (by decide) ?_ n
  rintro c hc (rfl | rfl | rfl | rfl | rfl | hpunctuation)
  iterate 5 cases hc
  unfold ofPunctuation? at hpunctuation
  split at hpunctuation
  case h_7 => cases hpunctuation
  all_goals cases hc

theorem ofWord?_toString (n : Int) : ofWord? (toString n).toList = some (.number (toString n)) := by
  have hnumber := isNumber_toString n
  have hliteral (w : List Char) (hw : isNumber w = false) : (toString n).toList ≠ w := by
    rintro rfl
    rw [hnumber] at hw
    cases hw
  unfold ofWord?
  rw [if_neg (hliteral _ (by decide)), if_neg (hliteral _ (by decide)), if_neg (hliteral _ (by decide)),
    if_pos hnumber, String.ofList_toList]

end Token

/-- Characters that take the reader from one place to another, whatever follows them: they are whole tokens, and the
tokens lead there. -/
def Leads (s : List Char) (e e' : Expected) : Prop :=
  ∃ ts : List Token, ts.foldlM advance e = some e' ∧
    ∀ rest, Token.Follows rest → Token.scan .between (s ++ rest) = (Token.scan .between rest).map (ts ++ ·)

namespace Leads

variable {e e' e'' : Expected} {s s' : List Char} {c : Char} {t : Token}

theorem nil (e : Expected) : Leads [] e e :=
  ⟨[], rfl, fun rest _ => by simp⟩

theorem punctuation (hc : Token.ofPunctuation? c = some t) (ht : advance e t = some e') (h : Leads s e' e'') :
    Leads (c :: s) e e'' := by
  obtain ⟨ts, hts, hscan⟩ := h
  refine ⟨t :: ts, by simpa [List.foldlM_cons, ht] using hts, fun rest hrest => ?_⟩
  rw [List.cons_append, Token.scan_punctuation hc, hscan rest hrest, Option.map_map]
  rfl

theorem quoted {k : String} (hk : advance e (.string (some k)) = some e') (h : Leads s e' e'') :
    Leads (quote k ++ s) e e'' := by
  obtain ⟨ts, hts, hscan⟩ := h
  refine ⟨.string (some k) :: ts, by simpa [List.foldlM_cons, hk] using hts, fun rest hrest => ?_⟩
  rw [List.append_assoc, Token.scan_quote, hscan rest hrest, Option.map_map]
  rfl

theorem word (hne : s ≠ []) (hs : Token.Unbroken s) (ht : Token.ofWord? s = some t)
    (hadvance : advance e t = some e') : Leads s e e' :=
  ⟨[t], by simp [hadvance], fun _ hrest => Token.scan_between_word hne hs ht hrest⟩

theorem append (h : Leads s e e') (hc : (Token.ofPunctuation? c).isSome = true) (h' : Leads (c :: s') e' e'') :
    Leads (s ++ c :: s') e e'' := by
  obtain ⟨ts, hts, hscan⟩ := h
  obtain ⟨ts', hts', hscan'⟩ := h'
  refine ⟨ts ++ ts', by simpa [List.foldlM_append, hts] using hts', fun rest hrest => ?_⟩
  have hfollows : Token.Follows (c :: s' ++ rest) := by
    rintro d ⟨⟩
    exact hc
  rw [List.append_assoc, hscan _ hfollows, hscan' rest hrest, Option.map_map]
  congr 1
  funext us
  exact (List.append_assoc ts ts' us).symm

theorem of_advance {e₁ e₂ : Expected} (h : Leads s e₁ e) (hne : e₁ ≠ e)
    (hadvance : ∀ t e', advance e₁ t = some e' → advance e₂ t = some e') : Leads s e₂ e := by
  obtain ⟨ts, hts, hscan⟩ := h
  refine ⟨ts, ?_, hscan⟩
  cases ts with
  | nil => exact absurd (Option.some.inj hts) hne
  | cons t ts =>
    rw [List.foldlM_cons] at hts ⊢
    obtain ⟨e', ht, hrest⟩ := Option.bind_eq_some_iff.1 hts
    exact Option.bind_eq_some_iff.2 ⟨e', hadvance t e' ht, hrest⟩

end Leads

theorem advance_item {outer : List Container} {t : Token} {e : Expected}
    (h : advance (.value (.array [] :: outer)) t = some e) : advance (.item outer) t = some e := by
  cases t with
  | closeBracket => cases h
  | _ => exact h

theorem advance_firstKey {outer : List Container} {t : Token} {e : Expected}
    (h : advance (.key [] outer) t = some e) : advance (.firstKey outer) t = some e := by
  cases t with
  | string k => exact h
  | _ => cases h

theorem leads_items (stack : List Container) {items : List Json} (hne : items ≠ [])
    (h : ∀ x ∈ items, ∀ stack, Leads x.chars (.value stack) (.after x stack)) (before : List Json) :
    Leads (itemChars items ++ [']']) (.value (.array before.reverse :: stack))
      (.after (array (before ++ items)) stack) := by
  induction items generalizing before with
  | nil => exact absurd rfl hne
  | cons x xs ih =>
    have hx := h x List.mem_cons_self (.array before.reverse :: stack)
    cases xs with
    | nil =>
      have hclose : advance (.after x (.array before.reverse :: stack)) .closeBracket =
          some (.after (array (before ++ [x])) stack) := by
        simp [advance]
      exact hx.append rfl (.punctuation rfl hclose (.nil _))
    | cons y xs =>
      have hcomma : advance (.after x (.array before.reverse :: stack)) .comma =
          some (.value (.array (before ++ [x]).reverse :: stack)) := by
        simp [advance]
      have hrest := ih (List.cons_ne_nil y xs) (fun z hz => h z (List.mem_cons_of_mem x hz)) (before ++ [x])
      rw [List.append_assoc, List.singleton_append] at hrest
      rw [itemChars, List.append_assoc]
      exact hx.append rfl (.punctuation rfl hcomma hrest)

def readFields (fields : List (String × Json)) : List (Option String × Json) :=
  (fields.map fun f => (some f.1, f.2)).reverse

theorem readFields_append (fields : List (String × Json)) (k : String) (x : Json) :
    readFields (fields ++ [(k, x)]) = (some k, x) :: readFields fields := by
  simp [readFields]

theorem closeObject_readFields (fields : List (String × Json)) : closeObject (readFields fields) = object fields := by
  have hread : fields.mapM (fun f => some (f.1, f.2)) = some fields := by
    induction fields with
    | nil => rfl
    | cons f fs ih => simp [ih]
  simp only [closeObject, readFields, List.reverse_reverse, List.mapM_map, Function.comp_def, Option.map_some, hread]

theorem leads_fields (stack : List Container) {fields : List (String × Json)} (hne : fields ≠ [])
    (h : ∀ f ∈ fields, ∀ stack, Leads f.2.chars (.value stack) (.after f.2 stack)) (before : List (String × Json)) :
    Leads (fieldChars fields ++ ['\x7d']) (.key (readFields before) stack)
      (.after (object (before ++ fields)) stack) := by
  induction fields generalizing before with
  | nil => exact absurd rfl hne
  | cons f fs ih =>
    obtain ⟨k, x⟩ := f
    have hx := h (k, x) List.mem_cons_self (.object (readFields before) (some k) :: stack)
    cases fs with
    | nil =>
      have hclose : advance (.after x (.object (readFields before) (some k) :: stack)) .closeBrace =
          some (.after (object (before ++ [(k, x)])) stack) := by
        simp [advance, ← readFields_append, closeObject_readFields]
      rw [fieldChars, List.append_assoc, List.cons_append]
      exact .quoted rfl (.punctuation rfl rfl (hx.append rfl (.punctuation rfl hclose (.nil _))))
    | cons g fs =>
      have hcomma : advance (.after x (.object (readFields before) (some k) :: stack)) .comma =
          some (.key (readFields (before ++ [(k, x)])) stack) := by
        rw [readFields_append]
        rfl
      have hrest := ih (List.cons_ne_nil g fs) (fun z hz => h z (List.mem_cons_of_mem (k, x) hz)) (before ++ [(k, x)])
      rw [List.append_assoc, List.singleton_append] at hrest
      rw [fieldChars, List.append_assoc, List.cons_append, List.append_assoc]
      exact .quoted rfl (.punctuation rfl rfl (hx.append rfl (.punctuation rfl hcomma hrest)))

/-- The characters of a value are read as the value, inside whatever containers it stands. -/
theorem IsPlain.leads {j : Json} (h : j.IsPlain) (stack : List Container) :
    Leads j.chars (.value stack) (.after j stack) := by
  induction h generalizing stack with
  | null => exact .word (by decide) (by decide) rfl rfl
  | bool b =>
    cases b with
    | true => exact .word (by decide) (by decide) rfl rfl
    | false => exact .word (by decide) (by decide) rfl rfl
  | integer n =>
    refine .word ?_ (Token.unbroken_toString n) (Token.ofWord?_toString n) rfl
    intro hnil
    have hnumber := Token.isNumber_toString n
    rw [show (toString n).toList = [] from hnil] at hnumber
    cases hnumber
  | string s =>
    rw [chars, ← List.append_nil (quote s)]
    exact .quoted rfl (.nil _)
  | @array items _ ih =>
    rw [chars]
    refine .punctuation rfl rfl ?_
    cases items with
    | nil => exact .punctuation rfl rfl (.nil _)
    | cons x xs =>
      -- No value begins with the bracket that would end the array.
      have hitems := leads_items stack (List.cons_ne_nil x xs) ih []
      exact hitems.of_advance nofun fun _ _ => advance_item
  | @object fields _ ih =>
    rw [chars]
    refine .punctuation rfl rfl ?_
    cases fields with
    | nil => exact .punctuation rfl rfl (.nil _)
    | cons f fs =>
      have hfields := leads_fields stack (List.cons_ne_nil f fs) ih []
      exact hfields.of_advance nofun fun _ _ => advance_firstKey

theorem IsPlain.parse?_text {j : Json} (h : j.IsPlain) : parse? j.text = some j := by
  obtain ⟨ts, hts, hscan⟩ := h.leads []
  have htokens := hscan [] Token.follows_nil
  rw [List.append_nil] at htokens
  simp only [parse?, Token.tokens?, text, String.toList_ofList, htokens, Token.scan, Option.map_some, Option.bind_some,
    List.append_nil, ofTokens?, hts]

theorem IsPlain.eq_of_text_eq {i j : Json} (hi : i.IsPlain) (hj : j.IsPlain) (h : i.text = j.text) : i = j := by
  have hparse := hi.parse?_text
  rw [h, hj.parse?_text] at hparse
  exact (Option.some.inj hparse).symm

/-! ## No control characters -/

theorem visible_escape (c : Char) : Visible (escape c) := by
  obtain ⟨hescape, -, -, hvisible⟩ | ⟨l, hescape, -, hl⟩ | ⟨hescape, hlow⟩ := Token.escape_cases c <;> rw [hescape]
  · exact List.forall_mem_singleton.2 hvisible
  · exact .cons (by decide) (List.forall_mem_singleton.2 hl)
  · have hdigit (n : Nat) (h : n < 16) : 0x20 ≤ (Nat.digitChar n).toNat := by
      have hall : ∀ n : Fin 16, 0x20 ≤ (Nat.digitChar n.val).toNat := by decide
      exact hall ⟨n, h⟩
    have hdigits : Visible [Nat.digitChar (c.toNat / 16), Nat.digitChar (c.toNat % 16)] :=
      .cons (hdigit _ (by omega)) (List.forall_mem_singleton.2 (hdigit _ (by omega)))
    exact .append (by decide : Visible ['\\', 'u', '0', '0']) hdigits

theorem visible_quote (s : String) : Visible (quote s) := by
  have hchars : Visible (s.toList.flatMap escape) := by
    intro c hc
    obtain ⟨d, -, hd⟩ := List.mem_flatMap.1 hc
    exact visible_escape d c hd
  exact .cons (by decide) (hchars.append (by decide))

theorem visible_itemChars {items : List Json} (h : ∀ x ∈ items, Visible x.chars) : Visible (itemChars items) := by
  induction items with
  | nil => exact nofun
  | cons x xs ih =>
    have hx := h x List.mem_cons_self
    cases xs with
    | nil => exact hx
    | cons y xs => exact hx.append (.cons (by decide) (ih fun z hz => h z (List.mem_cons_of_mem x hz)))

theorem visible_fieldChars {fields : List (String × Json)} (h : ∀ f ∈ fields, Visible f.2.chars) :
    Visible (fieldChars fields) := by
  induction fields with
  | nil => exact nofun
  | cons f fs ih =>
    obtain ⟨k, x⟩ := f
    have hx : Visible x.chars := h (k, x) List.mem_cons_self
    cases fs with
    | nil => exact (visible_quote k).append (.cons (by decide) hx)
    | cons g fs =>
      have hrest := ih fun z hz => h z (List.mem_cons_of_mem (k, x) hz)
      exact (visible_quote k).append (.cons (by decide) (hx.append (.cons (by decide) hrest)))

/-- The strings of a value spell their control characters. -/
theorem IsPlain.visible {j : Json} (h : j.IsPlain) : Visible j.chars := by
  induction h with
  | null => decide
  | bool b => cases b <;> decide
  | integer n => exact .integer n
  | string s => exact visible_quote s
  | array _ ih => exact .cons (by decide) ((visible_itemChars ih).append (by decide))
  | object _ ih => exact .cons (by decide) ((visible_fieldChars ih).append (by decide))

end Json

end Concolic
