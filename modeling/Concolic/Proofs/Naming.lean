import Concolic.Assignment
import Mathlib.Data.List.Induction

/-!
# Reading names and entries back

A base without a point comes back from the text of its name, whatever the hint. An assignment is decoded by
decoding every entry, up to the first that is refused, and inserting the results in order; no name that it then
has contains a point.
-/

namespace Concolic

theorem cut?_eq_none_iff {c : Char} {s : List Char} : cut? c s = none ↔ c ∉ s := by
  refine ⟨fun h => ?_, cut?_eq_none⟩
  intro hc
  obtain ⟨a, b, rfl, ha⟩ := List.eq_append_cons_of_mem hc
  rw [cut?_append ha] at h
  cases h

theorem cut?_eq_some_iff {c : Char} {s a b : List Char} :
    cut? c s = some (a, b) ↔ c ∉ a ∧ s = a ++ c :: b := by
  constructor
  · intro h
    by_cases hc : c ∈ s
    · obtain ⟨a', b', rfl, ha⟩ := List.eq_append_cons_of_mem hc
      rw [cut?_append ha] at h
      cases h
      exact ⟨ha, rfl⟩
    · rw [cut?_eq_none hc] at h
      cases h
  · rintro ⟨ha, rfl⟩
    exact cut?_append ha b

namespace Kind

theorem letter_ne_hash (k : Kind) : '#' ≠ k.letter := by
  cases k <;> decide

end Kind

namespace VarName

theorem parse_text {name : VarName} (h : '.' ∉ name.base.toList) : parse name.text = .ok name := by
  obtain ⟨base, kind, hint⟩ := name
  cases hint with
  | none =>
    have hcut : cut? '.' (text ⟨base, kind, none⟩).toList = some (base.toList, [kind.letter]) := by
      rw [cut?_eq_some_iff]
      exact ⟨h, by simp [text]⟩
    have hhint : cut? '#' [kind.letter] = none := by
      simp [cut?_eq_none_iff, kind.letter_ne_hash]
    simp [parse, hcut, hhint]
  | some hint =>
    have hcut : cut? '.' (text ⟨base, kind, some hint⟩).toList =
        some (base.toList, kind.letter :: '#' :: hint.toList) := by
      rw [cut?_eq_some_iff]
      exact ⟨h, by simp [text]⟩
    have hhint : cut? '#' (kind.letter :: '#' :: hint.toList) = some ([kind.letter], hint.toList) := by
      rw [cut?_eq_some_iff]
      simp [kind.letter_ne_hash]
    simp [parse, hcut, hhint]

theorem not_mem_base_of_parse {raw : String} {name : VarName} (h : parse raw = .ok name) :
    '.' ∉ name.base.toList := by
  unfold parse at h
  split at h
  · rename_i hcut
    cases h
    exact cut?_eq_none_iff.1 hcut
  · rename_i base rest hcut
    have hbase := (cut?_eq_some_iff.1 hcut).1
    split at h
    rename_i letter hint _
    split at h
    · cases h
      simpa using hbase
    · cases h

end VarName

namespace Value

theorem decode_encode (v : Value) : decode v.kind v.encode = .ok v := by
  cases v with
  | bytes b => rfl
  | int n =>
    have h := Word32.ofOctets_octets n.toUInt32
    simp only [kind, encode, Word32.octets, decode, h]
    rfl

theorem eq_decoding_of_decode {k : Kind} {b : Bytes} {f : Fault} (h : decode k b = .error f) :
    ∃ reason, f = .decoding reason := by
  unfold decode at h
  split at h
  · cases h
  · cases h
  · cases h
    exact ⟨_, rfl⟩

end Value

namespace VarName

theorem decodeEntry_encode {base : String} (h : '.' ∉ base.toList) (v : Value)
    (hint : Option String) :
    decodeEntry (encode base (some v.kind) hint) v.encode = .ok (base, v) := by
  have hbase : '.' ∉ (VarName.mk base v.kind hint).base.toList := h
  have hparse : parse (encode base (some v.kind) hint) = .ok ⟨base, v.kind, hint⟩ := parse_text hbase
  simp [decodeEntry, hparse, Value.decode_encode, bind, Except.bind, pure, Except.pure]

theorem not_mem_base_of_decodeEntry {raw base : String} {octets : Bytes} {v : Value}
    (h : decodeEntry raw octets = .ok (base, v)) : '.' ∉ base.toList := by
  unfold decodeEntry at h
  cases hparse : parse raw with
  | error f => simp [hparse, bind, Except.bind] at h
  | ok name =>
    cases hvalue : Value.decode name.kind octets with
    | error f => simp [hparse, hvalue, bind, Except.bind] at h
    | ok w =>
      simp only [hparse, hvalue, bind, Except.bind, pure, Except.pure, Except.ok.injEq,
        Prod.mk.injEq] at h
      exact h.1 ▸ not_mem_base_of_parse hparse

theorem eq_decoding_of_parse {raw : String} {f : Fault} (h : parse raw = .error f) :
    ∃ reason, f = .decoding reason := by
  unfold parse at h
  split at h
  · cases h
  · split at h
    split at h
    · cases h
    · cases h
      exact ⟨_, rfl⟩

theorem eq_decoding_of_decodeEntry {raw : String} {octets : Bytes} {f : Fault}
    (h : decodeEntry raw octets = .error f) : ∃ reason, f = .decoding reason := by
  unfold decodeEntry at h
  cases hparse : parse raw with
  | error f' =>
    simp only [hparse, bind, Except.bind, Except.error.injEq] at h
    exact h ▸ eq_decoding_of_parse hparse
  | ok name =>
    cases hvalue : Value.decode name.kind octets with
    | error f' =>
      simp only [hparse, hvalue, bind, Except.bind, Except.error.injEq] at h
      exact h ▸ Value.eq_decoding_of_decode hvalue
    | ok v => simp [hparse, hvalue, bind, Except.bind, pure, Except.pure] at h

end VarName

namespace Keyed

variable {α : Type}

theorem put_of_not_mem {key : String} {es : List (String × α)} (h : key ∉ es.map Prod.fst) (value : α) :
    put key value es = es ++ [(key, value)] := by
  induction es with
  | nil => rfl
  | cons e es ih =>
    obtain ⟨k, v⟩ := e
    simp only [List.map_cons, List.mem_cons, not_or] at h
    simp [put, Ne.symm h.1, ih h.2]

def ofEntries (es : List (String × α)) : List (String × α) :=
  es.foldl (fun rows e => put e.1 e.2 rows) []

theorem ofEntries_append_singleton (es : List (String × α)) (e : String × α) :
    ofEntries (es ++ [e]) = put e.1 e.2 (ofEntries es) := by
  rw [ofEntries, List.foldl_append]
  rfl

theorem nodup_ofEntries (es : List (String × α)) : ((ofEntries es).map Prod.fst).Nodup := by
  induction es using List.reverseRecOn with
  | nil => exact List.nodup_nil
  | append_singleton es e ih =>
    rw [ofEntries_append_singleton]
    exact nodup_put ih

theorem keys_ofEntries (es : List (String × α)) :
    (ofEntries es).map Prod.fst = (es.map Prod.fst).eraseDups := by
  induction es using List.reverseRecOn with
  | nil => rfl
  | append_singleton es e ih =>
    rw [ofEntries_append_singleton, map_fst_put, ih, List.map_append, List.eraseDups_append]
    by_cases h : e.1 ∈ es.map Prod.fst
    · simp [h, List.removeAll]
    · simp [h, List.removeAll, List.eraseDups_cons]

theorem lookup_ofEntries (es : List (String × α)) (key : String) :
    (ofEntries es).lookup key = es.reverse.lookup key := by
  induction es using List.reverseRecOn with
  | nil => rfl
  | append_singleton es e ih =>
    rw [ofEntries_append_singleton, lookup_put, ih, List.reverse_append, List.reverse_singleton,
      List.singleton_append, lookup_cons]

end Keyed

namespace Assignment

theorem eq_of_entries {a b : Assignment} (h : a.entries = b.entries) : a = b := by
  cases a
  cases b
  cases h
  rfl

theorem entries_foldl_insert {a : Assignment} {l : List (String × Value)}
    (h : ((a.entries ++ l).map Prod.fst).Nodup) :
    (l.foldl (fun a e => a.insert e.1 e.2) a).entries = a.entries ++ l := by
  induction l generalizing a with
  | nil => simp
  | cons e l ih =>
    have hnew : e.1 ∉ a.entries.map Prod.fst := by
      rw [List.map_append, List.nodup_append] at h
      intro hmem
      exact h.2.2 e.1 hmem e.1 (by simp) rfl
    have hentries : (a.insert e.1 e.2).entries = a.entries ++ [e] := Keyed.put_of_not_mem hnew e.2
    rw [List.foldl_cons, ih (by simpa [hentries] using h), hentries]
    simp

theorem ofList_entries (a : Assignment) : ofList a.entries = a := by
  apply eq_of_entries
  have h := entries_foldl_insert (a := empty) (l := a.entries) a.nodup
  exact h

theorem names_foldl_insert {p : String → Prop} {a : Assignment} {l : List (String × Value)}
    (ha : ∀ e ∈ a.entries, p e.1) (hl : ∀ e ∈ l, p e.1) :
    ∀ e ∈ (l.foldl (fun a e => a.insert e.1 e.2) a).entries, p e.1 := by
  induction l generalizing a with
  | nil => exact ha
  | cons x l ih =>
    refine ih ?_ fun e he => hl e (List.mem_cons_of_mem _ he)
    intro e he
    have hkey : e.1 ∈ (Keyed.put x.1 x.2 a.entries).map Prod.fst := List.mem_map_of_mem he
    rw [Keyed.map_fst_put] at hkey
    have hx : p x.1 := hl x (by simp)
    have hold : e.1 ∈ a.entries.map Prod.fst → p e.1 := by
      intro hmem
      obtain ⟨e', he', heq⟩ := List.mem_map.1 hmem
      exact heq ▸ ha e' he'
    split at hkey
    · exact hold hkey
    · rcases List.mem_append.1 hkey with hkey | hkey
      · exact hold hkey
      · rw [List.mem_singleton.1 hkey]
        exact hx

/-- Steps that each insert what they read come to reading everything, then inserting it in order. -/
theorem foldlM_insert {α : Type} {step : Assignment → α → Except Fault Assignment}
    {read : α → Except Fault (String × Value)}
    (h : ∀ a x, step a x = (read x).map fun found => a.insert found.1 found.2) (xs : List α)
    (a : Assignment) :
    xs.foldlM step a = (xs.mapM read).map fun found => found.foldl (fun a e => a.insert e.1 e.2) a := by
  induction xs generalizing a with
  | nil => rfl
  | cons x xs ih =>
    rw [List.foldlM_cons, List.mapM_cons, h]
    cases read x with
    | error e => rfl
    | ok found =>
      have hrest := ih (a.insert found.1 found.2)
      simp only [Except.map, bind, Except.bind, pure, Except.pure] at hrest ⊢
      rw [hrest]
      cases xs.mapM read <;> rfl

theorem decode_eq_map (es : List (String × Bytes)) :
    decode es = (es.mapM fun e => VarName.decodeEntry e.1 e.2).map ofList := by
  refine foldlM_insert (fun a e => ?_) es empty
  cases VarName.decodeEntry e.1 e.2 <;> rfl

end Assignment

section FirstError

variable {α β ε : Type} {f : α → Except ε β} {xs : List α}

/-- Whether `e` is the error of the first of `xs` that `f` refuses. -/
def FailsFirst (f : α → Except ε β) (xs : List α) (e : ε) : Prop :=
  ∃ before x after, xs = before ++ x :: after ∧ (∀ y ∈ before, ∃ r, f y = .ok r) ∧ f x = .error e

theorem failsFirst_cons_iff {x : α} {e : ε} :
    FailsFirst f (x :: xs) e ↔ f x = .error e ∨ (∃ r, f x = .ok r) ∧ FailsFirst f xs e := by
  constructor
  · rintro ⟨before, y, after, hxs, hbefore, hy⟩
    cases before with
    | nil =>
      cases hxs
      exact .inl hy
    | cons z before =>
      cases hxs
      exact .inr ⟨hbefore x (by simp), before, y, after, rfl, fun w hw => hbefore w (by simp [hw]), hy⟩
  · rintro (hx | ⟨hx, before, y, after, rfl, hbefore, hy⟩)
    · exact ⟨[], x, xs, rfl, by simp, hx⟩
    · refine ⟨x :: before, y, after, rfl, ?_, hy⟩
      intro w hw
      rcases List.mem_cons.1 hw with rfl | hw
      · exact hx
      · exact hbefore w hw

theorem mapM_eq_error_iff {e : ε} : xs.mapM f = .error e ↔ FailsFirst f xs e := by
  induction xs with
  | nil => simp [FailsFirst, pure, Except.pure]
  | cons x xs ih =>
    rw [failsFirst_cons_iff, ← ih, List.mapM_cons]
    cases hx : f x with
    | error e' => simp [bind, Except.bind]
    | ok r => cases xs.mapM f <;> simp [bind, Except.bind, pure, Except.pure]

theorem mapM_eq_ok_iff {ys : List β} : xs.mapM f = .ok ys ↔ xs.map f = ys.map .ok := by
  induction xs generalizing ys with
  | nil => cases ys <;> simp [pure, Except.pure]
  | cons x xs ih =>
    rw [List.mapM_cons]
    cases hx : f x with
    | error e => cases ys <;> simp [hx, bind, Except.bind]
    | ok y =>
      cases hxs : xs.mapM f with
      | error e => cases ys <;> simp [hx, hxs, ← ih, bind, Except.bind]
      | ok ys' => cases ys <;> simp [hx, hxs, ← ih, bind, Except.bind, pure, Except.pure]

end FirstError

namespace Assignment

theorem eq_decoding_of_decode {es : List (String × Bytes)} {f : Fault} (h : decode es = .error f) :
    ∃ reason, f = .decoding reason := by
  rw [decode_eq_map] at h
  cases hfound : es.mapM fun e => VarName.decodeEntry e.1 e.2 with
  | error f' =>
    simp only [hfound, Except.map, Except.error.injEq] at h
    obtain ⟨_, e, _, _, _, he⟩ := mapM_eq_error_iff.1 hfound
    exact h ▸ VarName.eq_decoding_of_decodeEntry he
  | ok found => simp [hfound, Except.map] at h

/-- No decoded assignment has a name with a point. -/
theorem not_mem_name_of_decode {es : List (String × Bytes)} {a : Assignment} (h : decode es = .ok a) :
    ∀ e ∈ a.entries, '.' ∉ e.1.toList := by
  rw [decode_eq_map] at h
  cases hfound : es.mapM fun e => VarName.decodeEntry e.1 e.2 with
  | error f => simp [hfound, Except.map] at h
  | ok found =>
    simp only [hfound, Except.map, Except.ok.injEq] at h
    subst h
    apply names_foldl_insert (p := fun name => '.' ∉ name.toList)
    · simp [empty]
    · intro e he
      obtain ⟨x, _, hx⟩ := List.mem_map.1 (mapM_eq_ok_iff.1 hfound ▸ List.mem_map_of_mem he)
      exact VarName.not_mem_base_of_decodeEntry hx

end Assignment

end Concolic
