import Concolic.Proofs.Utf8
import Concolic.Value

/-!
# Decimal text read back

The decimal text of a 32-bit number denotes that number, over the whole range. It has no white space in it, so
that trimming leaves it as it is.
-/

namespace Concolic

theorem trim_eq_self {s : List Char} (h : ∀ c ∈ s, isBlank c = false) : trim s = s := by
  have hdrop (t : List Char) (ht : ∀ c ∈ t, isBlank c = false) : t.dropWhile isBlank = t := by
    cases t with
    | nil => rfl
    | cons c t => rw [List.dropWhile_cons_of_neg (by simp [ht c])]
  have hreverse : ∀ c ∈ s.reverse, isBlank c = false := fun c hc => h c (List.mem_reverse.1 hc)
  rw [trim, trimEnd, hdrop s h, hdrop _ hreverse, List.reverse_reverse]

theorem isBlank_of_isDigit {c : Char} (h : c.isDigit = true) : isBlank c = false := by
  simp only [Char.isDigit, Bool.and_eq_true, decide_eq_true_eq] at h
  have hlow : 0x30 ≤ c.toNat := h.1
  have hhigh : c.toNat ≤ 0x39 := h.2
  simp [isBlank, Interval.covers, Blank.codePoints]
  omega

namespace Decimal

theorem isDigit_of_mem_toDigits {n : Nat} : ∀ c ∈ Nat.toDigits 10 n, c.isDigit = true :=
  fun _ hc => Nat.isDigit_of_mem_toDigits (by decide) (by decide) hc

theorem nat?_toDigits (n : Nat) : nat? (Nat.toDigits 10 n) = some n := by
  have hall : (Nat.toDigits 10 n).all Char.isDigit = true := List.all_eq_true.2 isDigit_of_mem_toDigits
  have hne : (Nat.toDigits 10 n).isEmpty = false := by
    rw [List.isEmpty_eq_false_iff]
    exact Nat.toDigits_ne_nil
  simp [nat?, hall, hne]

theorem int?_of_isDigit {s : List Char} (h : ∀ c ∈ s, c.isDigit = true) :
    int? s = (nat? s).map Int.ofNat := by
  unfold int?
  split
  · exact absurd (h '+' (by simp)) (by decide)
  · exact absurd (h '-' (by simp)) (by decide)
  · rfl

theorem toList_toString_ofNat (n : Nat) : (toString (Int.ofNat n)).toList = Nat.toDigits 10 n :=
  Nat.toList_repr

theorem toList_toString_negSucc (n : Nat) :
    (toString (Int.negSucc n)).toList = '-' :: Nat.toDigits 10 (n + 1) := by
  have hsign : toString (Int.negSucc n) = "-" ++ Nat.repr (n + 1) := rfl
  rw [hsign, String.toList_append, Nat.toList_repr]
  rfl

theorem int?_toString (n : Int) : int? (toString n).toList = some n := by
  cases n with
  | ofNat m =>
    rw [toList_toString_ofNat, int?_of_isDigit isDigit_of_mem_toDigits, nat?_toDigits]
    rfl
  | negSucc m =>
    rw [toList_toString_negSucc, int?, nat?_toDigits]
    rfl

theorem eq_of_toString_eq {m n : Int} (h : toString m = toString n) : m = n := by
  have hread := int?_toString m
  rw [h, int?_toString] at hread
  exact (Option.some.inj hread).symm

/-- What holds of the minus sign and of digits holds of all characters that a number is written with. -/
theorem forall_mem_toString {p : Char → Prop} (hminus : p '-') (hdigit : ∀ c, c.isDigit = true → p c) (n : Int) :
    ∀ c ∈ (toString n).toList, p c := by
  intro c hc
  cases n with
  | ofNat m =>
    rw [toList_toString_ofNat] at hc
    exact hdigit c (isDigit_of_mem_toDigits c hc)
  | negSucc m =>
    rw [toList_toString_negSucc] at hc
    rcases List.mem_cons.1 hc with rfl | hc
    · exact hminus
    · exact hdigit c (isDigit_of_mem_toDigits c hc)

theorem isBlank_of_mem_toString {n : Int} : ∀ c ∈ (toString n).toList, isBlank c = false :=
  forall_mem_toString (by decide) (fun _ hc => isBlank_of_isDigit hc) n

theorem int32?_toString (n : Int32) : int32? (toString n.toInt).toList = some n := by
  have hrange : Int32.minValue.toInt ≤ n.toInt ∧ n.toInt ≤ Int32.maxValue.toInt :=
    ⟨n.minValue_le_toInt, n.toInt_le⟩
  simp only [int32?, int?_toString, Option.bind_eq_bind, Option.bind_some, if_pos hrange,
    Int32.ofInt_toInt]

end Decimal

namespace Value

theorem toInt_ofText_toString (n : Int32) : (ofText (toString n.toInt)).toInt = .ok n := by
  have hchars : Utf8.decodeChars? (Utf8.encode (toString n.toInt)) = some (toString n.toInt).toList :=
    Utf8.decodeChars?_encodeChars _
  have htrim := trim_eq_self (Decimal.isBlank_of_mem_toString (n := n.toInt))
  simp only [ofText, toInt, hchars, Option.bind_some, htrim, Decimal.int32?_toString]

example : (ofText "-2147483648").toInt = .ok Int32.minValue := by cbv

end Value

end Concolic
