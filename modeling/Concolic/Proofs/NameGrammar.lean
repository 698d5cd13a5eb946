import Concolic.Proofs.Naming
import Mathlib.Data.List.TakeWhile

/-!
# The grammar of names

A text spells a name if it has no point, or if the letter of a kind is all that stands between its first point
and the number sign after that. The text of a name spells the name, unless there is a point in its base.
-/

namespace Concolic

namespace Kind

theorem ofLetter?_eq_some_iff {s : List Char} {k : Kind} : ofLetter? s = some k ↔ s = [k.letter] := by
  constructor
  · intro h
    unfold ofLetter? at h
    split at h
    · cases h
      rfl
    · cases h
      rfl
    · cases h
  · rintro rfl
    exact ofLetter?_letter k

theorem exists_eq_letter_iff {s : List Char} : (∃ k : Kind, s = [k.letter]) ↔ s = ['s'] ∨ s = ['i'] := by
  constructor
  · rintro ⟨k, rfl⟩
    cases k
    · exact .inl rfl
    · exact .inr rfl
  · rintro (rfl | rfl)
    · exact ⟨.sequence, rfl⟩
    · exact ⟨.integer, rfl⟩

end Kind

namespace VarName

theorem toList_text (name : VarName) :
    name.text.toList = name.base.toList ++ '.' :: name.kind.letter :: match name.hint with
      | some hint => '#' :: hint.toList
      | none => [] := by
  obtain ⟨base, kind, hint⟩ := name
  cases hint <;> simp [text]

theorem mem_text (name : VarName) : '.' ∈ name.text.toList := by
  simp [toList_text]

theorem parse_of_not_mem {raw : String} (h : '.' ∉ raw.toList) : parse raw = .ok ⟨raw, .sequence, none⟩ := by
  simp only [parse, cut?_eq_none h]

/-- The texts that spell a name are its own text, and its base alone if the rest goes without saying. -/
theorem parse_eq_ok_iff {raw : String} {name : VarName} :
    parse raw = .ok name ↔
      '.' ∉ name.base.toList ∧ (raw = name.text ∨ name = ⟨raw, .sequence, none⟩) := by
  constructor
  · intro h
    refine ⟨not_mem_base_of_parse h, ?_⟩
    unfold parse at h
    split at h
    · cases h
      exact .inr rfl
    · rename_i base rest hcut
      have hraw := (cut?_eq_some_iff.1 hcut).2
      split at h
      rename_i letter hint hsplit
      split at h
      · rename_i kind hkind
        cases h
        rw [Kind.ofLetter?_eq_some_iff] at hkind
        subst hkind
        refine .inl (String.toList_inj.1 ?_)
        rw [hraw, toList_text, String.toList_ofList]
        -- The hint is there exactly if a number sign ended the letter.
        split at hsplit
        · rename_i hhint
          cases hsplit
          simp [(cut?_eq_some_iff.1 hhint).2]
        · cases hsplit
          rfl
      · cases h
  · rintro ⟨hbase, rfl | rfl⟩
    · exact parse_text hbase
    · exact parse_of_not_mem hbase

/-- What stands between the first point of a text and the number sign after that, or the end. -/
def kindPart (raw : String) : List Char :=
  ((raw.toList.dropWhile (· ≠ '.')).drop 1).takeWhile (· ≠ '#')

theorem forall_ne_of_not_mem {c : Char} {s : List Char} (h : c ∉ s) : ∀ x ∈ s, decide (x ≠ c) = true := by
  intro x hx
  rw [decide_eq_true_eq]
  rintro rfl
  exact h hx

theorem kindPart_of_toList {raw : String} {base rest : List Char} (h : raw.toList = base ++ '.' :: rest)
    (hbase : '.' ∉ base) : kindPart raw = rest.takeWhile (· ≠ '#') := by
  rw [kindPart, h, List.dropWhile_append_of_pos (forall_ne_of_not_mem hbase),
    List.dropWhile_cons_of_neg (by simp), List.drop_one, List.tail_cons]

theorem kindPart_text {name : VarName} (h : '.' ∉ name.base.toList) :
    kindPart name.text = [name.kind.letter] := by
  have hletter : name.kind.letter ≠ '#' := name.kind.letter_ne_hash.symm
  rw [kindPart_of_toList (toList_text name) h, List.takeWhile_cons_of_pos (by simpa using hletter)]
  cases name.hint <;> simp

theorem exists_text_eq {raw : String} {kind : Kind} (hpoint : '.' ∈ raw.toList)
    (h : kindPart raw = [kind.letter]) : ∃ name : VarName, '.' ∉ name.base.toList ∧ name.text = raw := by
  obtain ⟨base, rest, hraw, hbase⟩ := List.eq_append_cons_of_mem hpoint
  rw [kindPart_of_toList hraw hbase] at h
  by_cases hhash : '#' ∈ rest
  · obtain ⟨letter, hint, rfl, hletter⟩ := List.eq_append_cons_of_mem hhash
    rw [List.takeWhile_append_of_pos (forall_ne_of_not_mem hletter), List.takeWhile_cons_of_neg (by simp),
      List.append_nil] at h
    refine ⟨⟨String.ofList base, kind, some (String.ofList hint)⟩, by simpa using hbase,
      String.toList_inj.1 ?_⟩
    simp [toList_text, hraw, h]
  · rw [List.takeWhile_eq_self_iff.2 (forall_ne_of_not_mem hhash)] at h
    refine ⟨⟨String.ofList base, kind, none⟩, by simpa using hbase, String.toList_inj.1 ?_⟩
    simp [toList_text, hraw, h]

theorem exists_parse_iff (raw : String) :
    (∃ name, parse raw = .ok name) ↔ '.' ∉ raw.toList ∨ kindPart raw = ['s'] ∨ kindPart raw = ['i'] := by
  rw [← Kind.exists_eq_letter_iff]
  constructor
  · rintro ⟨name, h⟩
    obtain ⟨hbase, rfl | rfl⟩ := parse_eq_ok_iff.1 h
    · exact .inr ⟨name.kind, kindPart_text hbase⟩
    · exact .inl hbase
  · intro h
    by_cases hpoint : '.' ∈ raw.toList
    · obtain ⟨kind, hkind⟩ := h.resolve_left (not_not_intro hpoint)
      obtain ⟨name, hbase, rfl⟩ := exists_text_eq hpoint hkind
      exact ⟨name, parse_text hbase⟩
    · exact ⟨_, parse_of_not_mem hpoint⟩

theorem text_of_parse {raw : String} {name : VarName} (h : parse raw = .ok name) :
    name.text = if '.' ∈ raw.toList then raw else raw ++ ".s" := by
  obtain ⟨hbase, rfl | rfl⟩ := parse_eq_ok_iff.1 h
  · rw [if_pos name.mem_text]
  · rw [if_neg hbase]
    simp [text, Kind.letter, String.append_assoc]

theorem parse_text_eq_ok_iff (name : VarName) : parse name.text = .ok name ↔ '.' ∉ name.base.toList :=
  ⟨not_mem_base_of_parse, parse_text⟩

theorem decode_of_parse {raw : String} {name : VarName} (h : parse raw = .ok name) :
    decode raw = .ok (name.base, name.kind) := by
  simp [decode, h, bind, Except.bind, pure, Except.pure]

theorem decode_encode {base : String} (h : '.' ∉ base.toList) (kind : Option Kind) (hint : Option String) :
    decode (encode base kind hint) = .ok (base, kind.getD .sequence) := by
  have hname : '.' ∉ (VarName.mk base (kind.getD .sequence) hint).base.toList := h
  unfold encode
  split
  · exact decode_of_parse (parse_of_not_mem h)
  · exact decode_of_parse (parse_text hname)

/-- The texts that spell a name, the name that each of them spells, and the names that come back from their
texts. -/
theorem parse_grammar :
    (∀ raw : String,
      ((∃ name, parse raw = .ok name) ↔
        '.' ∉ raw.toList ∨ kindPart raw = ['s'] ∨ kindPart raw = ['i']) ∧
      ∀ name, parse raw = .ok name →
        '.' ∉ name.base.toList ∧ name.text = if '.' ∈ raw.toList then raw else raw ++ ".s") ∧
    (∀ name : VarName, parse name.text = .ok name ↔ '.' ∉ name.base.toList) ∧
    ∀ (base : String) (kind : Option Kind) (hint : Option String), '.' ∉ base.toList →
      decode (encode base kind hint) = .ok (base, kind.getD .sequence) :=
  ⟨fun raw => ⟨exists_parse_iff raw, fun _ h => ⟨not_mem_base_of_parse h, text_of_parse h⟩⟩,
    parse_text_eq_ok_iff, fun _ kind hint h => decode_encode h kind hint⟩

/-- The hint has a point and a number sign in it, and one base has a number sign. -/
theorem parse_grammar_hintedInteger :
    parse "n.i#.s#" = .ok ⟨"n", .integer, some ".s#"⟩ ∧ '.' ∉ "n".toList ∧ '.' ∉ "a#b".toList ∧
      text ⟨"n", .integer, some ".s#"⟩ = (if '.' ∈ "n.i#.s#".toList then "n.i#.s#" else "n.i#.s#" ++ ".s") ∧
      decode (encode "a#b" none (some "")) = .ok ("a#b", .sequence) := by
  have hparse : parse "n.i#.s#" = .ok ⟨"n", .integer, some ".s#"⟩ := by decide +kernel
  have hbase : '.' ∉ "a#b".toList := by decide
  obtain ⟨hpoint, htext⟩ := (parse_grammar.1 "n.i#.s#").2 _ hparse
  exact ⟨hparse, hpoint, hbase, htext, parse_grammar.2.2 "a#b" none (some "") hbase⟩

end VarName

end Concolic
