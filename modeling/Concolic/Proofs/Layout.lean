import Concolic.Proofs.Spelling

/-!
# Layouts

A message can be laid out in many ways: its fields in any order and any number, each spelled in any way, and
fields that the message does not know anywhere among them. If the reader of one field takes exactly the fields
that are known and passes over exactly those that are not, reading takes exactly the layouts, and what it
gathers is told by the known fields alone.
-/

namespace Concolic

namespace Wire

variable {φ σ : Type}

section

variable {known : φ → Key → Bytes → Prop} {unknown : Key → Bytes → Prop}

/-- The octets are the fields `fs` in order, with unknown fields anywhere among them. Which octets can be the
contents of a field, and under which key, is told by `known` and `unknown`. -/
inductive Layout (known : φ → Key → Bytes → Prop) (unknown : Key → Bytes → Prop) : List φ → Bytes → Prop
  | nil : Layout known unknown [] []
  | known {f : φ} {fs : List φ} {key : Key} {k c bs : Bytes} (hk : SpellsKey key k)
      (hc : known f key c) (h : Layout known unknown fs bs) :
      Layout known unknown (f :: fs) (k ++ (c ++ bs))
  | unknown {fs : List φ} {key : Key} {k c bs : Bytes} (hk : SpellsKey key k)
      (hc : unknown key c) (h : Layout known unknown fs bs) :
      Layout known unknown fs (k ++ (c ++ bs))

namespace Layout

theorem append {fs gs : List φ} {bs cs : Bytes} (h : Layout known unknown fs bs)
    (h' : Layout known unknown gs cs) : Layout known unknown (fs ++ gs) (bs ++ cs) := by
  induction h with
  | nil => exact h'
  | known hk hc _ ih => simpa using ih.known hk hc
  | unknown hk hc _ ih => simpa using ih.unknown hk hc

theorem single {f : φ} {key : Key} {c : Bytes} (hpos : 0 < key.number) (hnumber : key.number < 2 ^ 29)
    (hc : known f key c) : Layout known unknown [f] (key.encode ++ c) := by
  have hend : Layout known unknown [] [] := .nil
  simpa using hend.known (.encode hpos hnumber) hc

theorem delimited {f : φ} {number : Nat} {contents : Bytes} (hpos : 0 < number) (hnumber : number < 2 ^ 29)
    (hc : known f ⟨number, .lengthDelimited⟩ (encodeVarint contents.length ++ contents)) :
    Layout known unknown [f] (delimited number contents) := by
  unfold Wire.delimited
  rw [List.append_assoc]
  exact single hpos hnumber hc

theorem octetsField {f : φ} {number : Nat} {contents : Bytes} (hpos : 0 < number) (hnumber : number < 2 ^ 29)
    (hc : known f ⟨number, .lengthDelimited⟩ (encodeVarint contents.length ++ contents)) :
    Layout known unknown (if contents = [] then [] else [f]) (octetsField number contents) := by
  unfold Wire.octetsField
  by_cases hnil : contents = []
  · rw [if_pos hnil, if_pos (by simp [hnil])]
    exact nil
  · rw [if_neg hnil, if_neg (by simpa using hnil)]
    exact delimited hpos hnumber hc

theorem numberField {f : φ} {number n : Nat} (hpos : 0 < number) (hnumber : number < 2 ^ 29)
    (hc : known f ⟨number, .varint⟩ (encodeVarint n)) :
    Layout known unknown (if n = 0 then [] else [f]) (numberField number n) := by
  unfold Wire.numberField
  by_cases hn : n = 0
  · rw [if_pos hn, if_pos hn]
    exact nil
  · rw [if_neg hn, if_neg hn]
    exact single hpos hnumber hc

end Layout

/-- A field that would change nothing can be left out. -/
theorem foldl_ite_nil {set : σ → φ → σ} {p : Prop} [Decidable p] {f : φ} {s : σ} (h : p → set s f = s) :
    (if p then [] else [f]).foldl set s = set s f := by
  split
  · next hp => exact (h hp).symm
  · rfl

theorem length_le_length_delimited (number : Nat) (contents : Bytes) :
    contents.length ≤ (delimited number contents).length := by
  simp only [delimited, List.length_append]
  omega

theorem length_le_length_octetsField (number : Nat) (contents : Bytes) :
    contents.length ≤ (octetsField number contents).length := by
  unfold octetsField
  split
  · simp_all
  · exact length_le_length_delimited number contents

end

variable {field : σ → Key → Bytes → Reading (σ × Bytes)}

/-- The octets are whole fields, and reading them takes `s` to `s'`, whatever follows them. -/
def Advances (field : σ → Key → Bytes → Reading (σ × Bytes)) (s : σ) (bs : Bytes) (s' : σ) : Prop :=
  ∀ limit r, limit ≤ r.length →
    readFields field limit s (bs ++ r) = readFields field limit s' r

namespace Advances

theorem nil (s : σ) : Advances field s [] s := by
  intro limit r _
  rfl

theorem append {s s' s'' : σ} {bs cs : Bytes} (h : Advances field s bs s')
    (h' : Advances field s' cs s'') : Advances field s (bs ++ cs) s'' := by
  intro limit r hr
  rw [List.append_assoc, h limit (cs ++ r) (by simp; omega), h' limit r hr]

theorem single {s s' : σ} {key : Key} {k c : Bytes} (hk : SpellsKey key k)
    (h : ∀ r, field s key (c ++ r) = .ok (s', r)) : Advances field s (k ++ c) s' := by
  intro limit r hr
  have hpos := hk.length_pos
  have hmore : ¬ (k ++ (c ++ r)).length ≤ limit := by
    simp only [List.length_append]
    omega
  have hless : r.length < (k ++ (c ++ r)).length := by
    simp only [List.length_append]
    omega
  rw [List.append_assoc, readFields, if_neg hmore]
  simp only [hk.read_append, h, if_pos hless]

theorem readFields_eq {s s' : σ} {bs : Bytes} (h : Advances field s bs s') (r : Bytes) :
    readFields field r.length s (bs ++ r) = .ok (s', r) := by
  rw [h r.length r (Nat.le_refl _), readFields, if_pos (Nat.le_refl _)]

end Advances

/-- The reader of one field takes the known fields, each as `set` says, passes over the unknown ones, and takes
nothing else. -/
structure ReadsFields (field : σ → Key → Bytes → Reading (σ × Bytes)) (known : φ → Key → Bytes → Prop)
    (unknown : Key → Bytes → Prop) (set : σ → φ → σ) : Prop where
  takes {f : φ} {key : Key} {c : Bytes} (h : known f key c) (s : σ) (r : Bytes) :
    field s key (c ++ r) = .ok (set s f, r)
  passes {key : Key} {c : Bytes} (h : unknown key c) (s : σ) (r : Bytes) :
    field s key (c ++ r) = .ok (s, r)
  only {s s' : σ} {key : Key} {bs r : Bytes} (h : field s key bs = .ok (s', r)) :
    ∃ c, bs = c ++ r ∧ ((∃ f, known f key c ∧ s' = set s f) ∨ (unknown key c ∧ s' = s))

namespace ReadsFields

variable {known : φ → Key → Bytes → Prop} {unknown : Key → Bytes → Prop} {set : σ → φ → σ}

theorem advances (hfield : ReadsFields field known unknown set) {fs : List φ} {bs : Bytes}
    (h : Layout known unknown fs bs) (s : σ) : Advances field s bs (fs.foldl set s) := by
  induction h generalizing s with
  | nil => exact Advances.nil s
  | known hk hc _ ih =>
    have hfirst := Advances.single hk (hfield.takes hc s)
    simpa only [List.append_assoc, List.foldl_cons] using hfirst.append (ih _)
  | unknown hk hc _ ih =>
    have hfirst := Advances.single hk (hfield.passes hc s)
    simpa only [List.append_assoc] using hfirst.append (ih s)

theorem exists_of_readFields (hfield : ReadsFields field known unknown set) {limit : Nat} {s s' : σ}
    {bs r : Bytes} (h : readFields field limit s bs = .ok (s', r)) :
    ∃ fs b, bs = b ++ r ∧ Layout known unknown fs b ∧ s' = fs.foldl set s ∧ r.length ≤ limit := by
  fun_induction readFields field limit s bs with
  | case1 s bs hle =>
    cases h
    exact ⟨[], [], rfl, .nil, rfl, hle⟩
  | case2 s bs hmore e hkey => cases h
  | case3 s bs hmore key rest hkey e hread => cases h
  | case4 s bs hmore key rest hkey s₁ r₁ hread hless ih =>
    obtain ⟨k, rfl, hk⟩ := SpellsKey.exists_of_read hkey
    obtain ⟨c, rfl, hc⟩ := hfield.only hread
    obtain ⟨fs, b, rfl, hlayout, rfl, hle⟩ := ih h
    rcases hc with ⟨f, hc, rfl⟩ | ⟨hc, rfl⟩
    · exact ⟨f :: fs, k ++ (c ++ b), by simp, hlayout.known hk hc, rfl, hle⟩
    · exact ⟨fs, k ++ (c ++ b), by simp, hlayout.unknown hk hc, rfl, hle⟩
  | case5 s bs hmore key rest hkey s₁ r₁ hread hless =>
    -- A field takes at least its key.
    obtain ⟨k, rfl, hk⟩ := SpellsKey.exists_of_read hkey
    obtain ⟨c, rfl, hc⟩ := hfield.only hread
    have := hk.length_pos
    simp only [List.length_append] at hless
    omega

/-- Fields are read up to the end of a message exactly if they are a layout. -/
theorem readFields_eq_ok_iff (hfield : ReadsFields field known unknown set) {s s' : σ} {bs r : Bytes} :
    readFields field r.length s bs = .ok (s', r) ↔
      ∃ fs b, bs = b ++ r ∧ Layout known unknown fs b ∧ s' = fs.foldl set s := by
  constructor
  · intro h
    obtain ⟨fs, b, hb, hlayout, hs, -⟩ := hfield.exists_of_readFields h
    exact ⟨fs, b, hb, hlayout, hs⟩
  · rintro ⟨fs, b, rfl, hlayout, rfl⟩
    exact (hfield.advances hlayout s).readFields_eq r

theorem readMessage_append (hfield : ReadsFields field known unknown set) {fs : List φ} {b c : Bytes}
    (hlayout : Layout known unknown fs b) (h : Delimited b c) (s : σ) (r : Bytes) :
    readMessage field s (c ++ r) = .ok (fs.foldl set s, r) := by
  obtain ⟨v, hv, rfl⟩ := h
  have hlimit : (b ++ r).length - b.length = r.length := by simp
  have hfits : ¬ (b ++ r).length < b.length := by simp
  simp only [readMessage, List.append_assoc, hv.readNumber_append, bind, Except.bind, if_neg hfits,
    hlimit, (hfield.advances hlayout s).readFields_eq, ↓reduceIte]

theorem exists_of_readMessage (hfield : ReadsFields field known unknown set) {s s' : σ} {bs r : Bytes}
    (h : readMessage field s bs = .ok (s', r)) :
    ∃ fs b c, bs = c ++ r ∧ Delimited b c ∧ Layout known unknown fs b ∧ s' = fs.foldl set s := by
  unfold readMessage at h
  cases hnumber : readNumber bs with
  | error e =>
    rw [hnumber] at h
    cases h
  | ok found =>
    obtain ⟨n, rest⟩ := found
    obtain ⟨v, rfl, hv⟩ := SpellsNumber.exists_of_readNumber hnumber
    simp only [hnumber, bind, Except.bind] at h
    split at h
    · cases h
    · next hfits =>
      split at h
      · cases h
      · next found hfound =>
        obtain ⟨s₁, r₁⟩ := found
        split at h
        · next hend =>
          cases h
          rw [← hend] at hfound
          obtain ⟨fs, b, rfl, hlayout, rfl⟩ := hfield.readFields_eq_ok_iff.1 hfound
          have hn : b.length = n := by
            simp only [List.length_append] at hfits hend
            omega
          exact ⟨fs, b, v ++ b, by simp, ⟨v, hn ▸ hv, rfl⟩, hlayout, rfl⟩
        · cases h

end ReadsFields

end Wire

end Concolic
