import Concolic.Proofs.ArgumentGrammar

/-!
# Accepted arguments

Arguments are accepted exactly if they are written for occurrences that can be given together: each has its operands, all
of them valid, what is not repeatable occurs once, and of the options that exclude each other one at most. An option that
lacks operands is stuck, so that nothing else can come after it.
-/

namespace Concolic

namespace Usage

section

variable {u : Usage} {p : Parameter} {ps : List Parameter} {pending : Option Occurrence} {settled : List Given}
  {arguments operands : List String} {os : List Occurrence} {α : Type} {next : Progress → Except UsageError α}

/-! ## Occurrences that can be given together -/

theorem addGiven_eq_ok_iff {settled' : List Given} :
    addGiven p operands settled = .ok settled' ↔
      operands.length = p.operands ∧ (p.repeatable = false → ∀ g ∈ settled, g.name ≠ p.name) ∧
        (∀ x ∈ operands, p.accepts x = true) ∧ settled' = settled ++ [⟨p.name, operands⟩] := by
  constructor
  · intro h
    unfold addGiven at h
    split_ifs at h with hnone hlength hrepeated haccepted
    cases h
    exact ⟨not_not.1 hlength, by simpa using hrepeated, by simpa using haccepted, rfl⟩
  · rintro ⟨hlength, hrepeated, haccepted, rfl⟩
    have hnone : ¬ (operands.isEmpty && p.operands != 0) = true := by
      rw [← hlength]
      cases operands <;> simp
    have hrepeated' : ¬ (!p.repeatable && settled.any fun g => g.name == p.name) = true := by simpa using hrepeated
    rw [addGiven, if_neg hnone, if_neg (not_not.2 hlength), if_neg hrepeated', if_pos (by simpa using haccepted)]

def given (o : Occurrence) : Given :=
  ⟨o.1.name, o.2⟩

/-- Whether occurrences can be added after others: they have their operands, all valid, and what is not repeatable
occurs once. -/
structure Addable (os : List Occurrence) (settled : List Given) : Prop where
  complete : ∀ o ∈ os, o.2.length = o.1.operands
  accepted : ∀ o ∈ os, ∀ x ∈ o.2, o.1.accepts x = true
  single : os.Pairwise fun o o' => o'.1.repeatable = false → o.1.name ≠ o'.1.name
  fresh : ∀ o ∈ os, o.1.repeatable = false → ∀ g ∈ settled, g.name ≠ o.1.name

theorem addable_cons_iff {o : Occurrence} :
    Addable (o :: os) settled ↔
      o.2.length = o.1.operands ∧ (o.1.repeatable = false → ∀ g ∈ settled, g.name ≠ o.1.name) ∧
        (∀ x ∈ o.2, o.1.accepts x = true) ∧ Addable os (settled ++ [given o]) := by
  constructor
  · rintro ⟨hcomplete, haccepted, hsingle, hfresh⟩
    rw [List.forall_mem_cons] at hcomplete haccepted hfresh
    rw [List.pairwise_cons] at hsingle
    refine ⟨hcomplete.1, hfresh.1, haccepted.1, hcomplete.2, haccepted.2, hsingle.2, fun o' ho' hrepeatable => ?_⟩
    exact List.forall_mem_append.2
      ⟨hfresh.2 o' ho' hrepeatable, List.forall_mem_singleton.2 (hsingle.1 o' ho' hrepeatable)⟩
  · rintro ⟨hlength, hfresh, haccepted, hrest⟩
    have hafter := fun o' ho' hrepeatable => List.forall_mem_append.1 (hrest.fresh o' ho' hrepeatable)
    refine ⟨List.forall_mem_cons.2 ⟨hlength, hrest.complete⟩, List.forall_mem_cons.2 ⟨haccepted, hrest.accepted⟩,
      List.pairwise_cons.2 ⟨fun o' ho' hrepeatable => ?_, hrest.single⟩, List.forall_mem_cons.2 ⟨hfresh, ?_⟩⟩
    · exact (hafter o' ho' hrepeatable).2 (given o) (List.mem_singleton_self _)
    · exact fun o' ho' hrepeatable => (hafter o' ho' hrepeatable).1

theorem addAll_eq_ok_iff {settled' : List Given} :
    addAll os settled = .ok settled' ↔ Addable os settled ∧ settled' = settled ++ os.map given := by
  induction os generalizing settled with
  | nil =>
    have hnone : Addable [] settled := ⟨nofun, nofun, .nil, nofun⟩
    simp [addAll, pure, Except.pure, hnone, eq_comm]
  | cons o os ih =>
    have hcons : addAll (o :: os) settled = addGiven o.1 o.2 settled >>= addAll os := List.foldlM_cons
    rw [hcons, addable_cons_iff, List.map_cons]
    constructor
    · intro h
      obtain ⟨settled'', hfirst, hrest⟩ := exists_of_bind_eq_ok h
      obtain ⟨hlength, hfresh, haccepted, rfl⟩ := addGiven_eq_ok_iff.1 hfirst
      obtain ⟨haddable, rfl⟩ := ih.1 hrest
      exact ⟨⟨hlength, hfresh, haccepted, haddable⟩, by simp [given]⟩
    · rintro ⟨⟨hlength, hfresh, haccepted, haddable⟩, hsettled⟩
      have hfirst : addGiven o.1 o.2 settled = .ok (settled ++ [given o]) :=
        addGiven_eq_ok_iff.2 ⟨hlength, hfresh, haccepted, rfl⟩
      rw [List.append_cons] at hsettled
      rw [hfirst]
      exact ih.2 ⟨haddable, hsettled⟩

/-- Whether occurrences can be given together: besides, at most one of the options that exclude each other occurs. -/
structure Admissible (u : Usage) (os : List Occurrence) : Prop extends Addable os [] where
  exclusive : (u.exclusive.filter fun name => os.any fun o => o.1.name == name).length ≤ 1

theorem combine_eq_ok_iff {found : List Given} :
    u.combine os [] = .ok found ↔ Admissible u os ∧ found = os.map given := by
  have hchosen : (u.exclusive.filter fun name => (os.map given).any fun g => g.name == name) =
      u.exclusive.filter fun name => os.any fun o => o.1.name == name := by
    simp only [List.any_map]
    rfl
  constructor
  · intro h
    obtain ⟨settled, hadded, hexclusive⟩ := exists_of_bind_eq_ok h
    obtain ⟨haddable, rfl⟩ := addAll_eq_ok_iff.1 hadded
    rw [List.nil_append, hchosen] at hexclusive
    dsimp only at hexclusive
    split_ifs at hexclusive with hmany
    cases hexclusive
    exact ⟨⟨haddable, Nat.le_of_not_lt hmany⟩, rfl⟩
  · rintro ⟨⟨haddable, hexclusive⟩, rfl⟩
    have hadded : addAll os [] = .ok (os.map given) := addAll_eq_ok_iff.2 ⟨haddable, rfl⟩
    rw [← hchosen, ← Nat.not_lt] at hexclusive
    rw [combine, hadded]
    exact if_neg hexclusive

/-! ## Options that lack operands -/

/-- Whether what is pending cannot be settled. -/
def Stuck (s : Progress) : Prop :=
  ∀ t, settle s ≠ .ok t

theorem stuck_of_lt {taken : List String} {expecting ended : Bool} (h : taken.length < p.operands) :
    Stuck ⟨settled, some (p, taken), expecting, ended, ps⟩ := by
  intro t ht
  obtain ⟨settled', hadded, -⟩ := exists_of_bind_eq_ok ht
  exact absurd (addGiven_eq_ok_iff.1 hadded).1 (Nat.ne_of_lt h)

namespace Stuck

variable {s t : Progress} {found : List Given}

theorem beginOption (h : Stuck s) (joined : Option String) : Usage.beginOption p joined s ≠ .ok t := by
  intro ht
  obtain ⟨s', hs', -⟩ := exists_of_bind_eq_ok ht
  exact h s' hs'

theorem takeSwitch (h : Stuck s) : Usage.takeSwitch p s ≠ .ok t := by
  intro ht
  obtain ⟨s', hs', -⟩ := exists_of_bind_eq_ok ht
  exact h s' hs'

theorem takePositional (h : Stuck s) (x : String) : Usage.takePositional x s ≠ .ok t := by
  intro ht
  unfold Usage.takePositional at ht
  split at ht
  · cases ht
  · obtain ⟨s', hs', -⟩ := exists_of_bind_eq_ok ht
    exact h s' hs'

theorem takeLong (h : Stuck s) (name : List Char) (joined : Option (List Char)) : u.takeLong name joined s ≠ .ok t := by
  unfold Usage.takeLong
  split
  · nofun
  · split_ifs
    · exact h.beginOption _
    · nofun
    · exact h.takeSwitch

theorem takeLetters (h : Stuck s) (c : Char) (letters : List Char) : u.takeLetters (c :: letters) s ≠ .ok t := by
  unfold Usage.takeLetters
  split
  · nofun
  · split_ifs
    · intro ht
      obtain ⟨s', hs', -⟩ := exists_of_bind_eq_ok ht
      exact h.takeSwitch hs'
    · split <;> exact h.beginOption _

theorem finish (h : Stuck s) : u.finish s ≠ .ok found := by
  intro hfound
  obtain ⟨s', hs', -⟩ := exists_of_bind_eq_ok hfound
  exact h s' hs'

theorem ended (h : Stuck s) : Stuck { s with ended := true } := by
  obtain ⟨settled, pending, expecting, ended, ps⟩ := s
  cases pending with
  | none => exact absurd rfl (h _)
  | some o =>
    intro t ht
    obtain ⟨settled', hadded, -⟩ := exists_of_bind_eq_ok ht
    refine h ⟨settled', none, false, ended, ps⟩ ?_
    simp only [settle, hadded]
    rfl

theorem readFrom_ended (h : Stuck s) (hended : s.ended = true) : u.readFrom s arguments ≠ .ok found := by
  cases arguments with
  | nil => exact h.finish
  | cons x arguments =>
    intro hfound
    obtain ⟨t, ht, -⟩ := exists_of_bind_eq_ok ((readFrom_cons u s x arguments).symm.trans hfound)
    rw [step_ended hended] at ht
    exact h.takePositional x ht

theorem readFrom_option (h : Stuck s) (hlooks : LooksAt s) {x : String} (hx : LooksLikeOption x) :
    u.readFrom s (x :: arguments) ≠ .ok found := by
  intro hfound
  obtain ⟨t, ht, hrest⟩ := exists_of_bind_eq_ok ((readFrom_cons u s x arguments).symm.trans hfound)
  cases shape x with
  | ending =>
    rw [step_ending hlooks] at ht
    cases ht
    exact h.ended.readFrom_ended rfl hrest
  | long name hne hname =>
    rw [step_long hlooks hne hname] at ht
    exact h.takeLong _ _ ht
  | equals name operand hname =>
    rw [step_equals hlooks hname] at ht
    exact h.takeLong _ _ ht
  | letters c letters hc =>
    rw [step_letters hlooks hc] at ht
    exact h.takeLetters c letters ht
  | plain x hplain => exact hplain hx

end Stuck

/-! ## The occurrences of accepted arguments -/

/-- What is left of arguments after some of them that make a part of the grammar: operands, and occurrences that they
write. -/
def Proceeds (u : Usage) (ps : List Parameter) (arguments : List String) (found : List Given)
    (part : List String → List Occurrence → Prop) : Prop :=
  ∃ operands rest os pending settled, arguments = operands ++ rest ∧ part operands os ∧
    u.readFrom (between ps pending settled) rest = .ok found

section

variable {found : List Given}

/-- An option that arguments are accepted after is followed by the operands that it lacks. The induction is on the
arguments. -/
theorem exists_operands {taken : List String} (hle : taken.length ≤ p.operands)
    (h : u.readFrom ⟨settled, some (p, taken), decide (taken.length < p.operands), false, ps⟩ arguments = .ok found) :
    ∃ operands rest, arguments = operands ++ rest ∧ taken.length + operands.length = p.operands ∧
      (p.anyOperand = true ∨ ∀ x ∈ operands, ¬ LooksLikeOption x) ∧
      u.readFrom (between ps (some (p, taken ++ operands)) settled) rest = .ok found := by
  induction arguments generalizing taken with
  | nil =>
    by_cases hlt : taken.length < p.operands
    case pos => exact absurd h (stuck_of_lt hlt).finish
    case neg =>
      rw [decide_eq_false hlt] at h
      exact ⟨[], [], rfl, by simp; omega, .inr nofun, by rwa [List.append_nil]⟩
  | cons x arguments ih =>
    by_cases hlt : taken.length < p.operands
    case neg =>
      rw [decide_eq_false hlt] at h
      exact ⟨[], x :: arguments, rfl, by simp; omega, .inr nofun, by rwa [List.append_nil]⟩
    rw [decide_eq_true hlt] at h
    by_cases hx : p.anyOperand = true ∨ ¬ LooksLikeOption x
    case pos =>
      rw [readFrom_cons, step_operand hx] at h
      have hle' : (taken ++ [x]).length ≤ p.operands := by
        rw [List.length_append, List.length_singleton]
        omega
      obtain ⟨operands, rest, rfl, hlength, hplain, hrest⟩ := ih hle' h
      rw [List.length_append, List.length_singleton] at hlength
      rw [List.append_assoc, List.singleton_append] at hrest
      refine ⟨x :: operands, rest, rfl, by rw [List.length_cons]; omega, ?_, hrest⟩
      exact hx.elim .inl fun hx => hplain.imp_right fun hplain => List.forall_mem_cons.2 ⟨hx, hplain⟩
    case neg =>
      rw [not_or, not_not, Bool.not_eq_true] at hx
      have hlooks : LooksAt ⟨settled, some (p, taken), true, false, ps⟩ := by
        refine ⟨rfl, fun _ o ho => ?_⟩
        cases ho
        exact hx.1
      exact absurd h ((stuck_of_lt hlt).readFrom_option hlooks hx.2)

theorem exists_follow (hoption : p.operands ≠ 0)
    (h : (beginOption p none (between ps pending settled) >>= fun s => u.readFrom s arguments) = .ok found) :
    Proceeds u ps arguments found fun operands os => Follow p operands ∧ os = [(p, operands)] := by
  rw [beginOption_none_bind] at h
  obtain ⟨settled', -, hread⟩ := exists_of_bind_eq_ok h
  have hlacks : decide (([] : List String).length < p.operands) = true := decide_eq_true (Nat.pos_of_ne_zero hoption)
  rw [← hlacks] at hread
  obtain ⟨operands, rest, rfl, hlength, hplain, hrest⟩ := exists_operands (Nat.zero_le _) hread
  rw [List.length_nil, Nat.zero_add] at hlength
  exact ⟨operands, rest, _, _, _, rfl, ⟨⟨hlength, hplain⟩, rfl⟩, hrest⟩

theorem exists_joined {x : String}
    (h : (beginOption p (some x) (between ps pending settled) >>= fun s => u.readFrom s arguments) = .ok found) :
    ∃ settled, u.readFrom (between ps none settled) arguments = .ok found := by
  rw [beginOption_some_bind] at h
  obtain ⟨settled', -, hrest⟩ := exists_of_bind_eq_ok h
  exact ⟨settled', hrest⟩

theorem exists_switch {b : α} (h : (takeSwitch p (between ps pending settled) >>= next) = .ok b) :
    p.name ≠ Parameter.help.name ∧ ∃ settled, next (between ps none settled) = .ok b := by
  by_cases hhelp : p.name = Parameter.help.name
  case pos =>
    obtain ⟨t, ht, -⟩ := exists_of_bind_eq_ok h
    obtain ⟨s, -, hs⟩ := exists_of_bind_eq_ok ht
    rw [if_pos hhelp] at hs
    cases hs
  case neg =>
    rw [takeSwitch_bind hhelp] at h
    obtain ⟨settled', -, hrest⟩ := exists_of_bind_eq_ok h
    exact ⟨hhelp, settled', hrest⟩

theorem exists_cluster {letters : List Char}
    (h : (u.takeLetters letters (between ps pending settled) >>= fun s => u.readFrom s arguments) = .ok found) :
    Proceeds u ps arguments found (Cluster u letters) := by
  induction letters generalizing pending settled with
  | nil => exact ⟨[], arguments, [], pending, settled, rfl, .nil, h⟩
  | cons c letters ih =>
    cases hp : u.lettered? c with
    | none => rw [takeLetters_unknown hp] at h; cases h
    | some p =>
      by_cases hoption : p.operands = 0
      case pos =>
        rw [takeLetters_switch hp hoption, bind_assoc] at h
        obtain ⟨hhelp, settled', hrest⟩ := exists_switch h
        obtain ⟨operands, rest, os, pending', settled'', rfl, hcluster, hread⟩ := ih hrest
        have hswitch : ¬ AsksForHelp p := fun hasks => hhelp hasks.2
        exact ⟨operands, rest, _, pending', settled'', rfl, .switch hp hoption hswitch hcluster, hread⟩
      case neg =>
        by_cases hne : letters = []
        case pos =>
          rw [hne, takeLetters_last hp hoption] at h
          obtain ⟨operands, rest, os, pending', settled', rfl, ⟨hfollow, rfl⟩, hread⟩ := exists_follow hoption h
          rw [hne]
          exact ⟨operands, rest, _, pending', settled', rfl, .last hp hoption hfollow, hread⟩
        case neg =>
          by_cases hequals : letters.head? = some '='
          case pos =>
            obtain ⟨operand, rfl⟩ : ∃ operand, letters = '=' :: operand := List.head?_eq_some_iff.1 hequals
            rw [takeLetters_equals hp hoption] at h
            obtain ⟨settled', hread⟩ := exists_joined h
            exact ⟨[], arguments, _, none, settled', rfl, .equals hp hoption, hread⟩
          case neg =>
            rw [takeLetters_joined hp hoption hne hequals] at h
            obtain ⟨settled', hread⟩ := exists_joined h
            exact ⟨[], arguments, _, none, settled', rfl, .joined hp hoption hne hequals, hread⟩

theorem exists_word {x : String} (hlooks : LooksLikeOption x) (hending : x ≠ "--")
    (h : u.readFrom (between ps pending settled) (x :: arguments) = .ok found) :
    Proceeds u ps arguments found (Word u x) := by
  have hbetween := looksAt_between ps pending settled
  rw [readFrom_cons] at h
  cases shape x with
  | ending => exact absurd rfl hending
  | plain x hplain => exact absurd hlooks hplain
  | letters c letters hc =>
    rw [step_letters hbetween hc] at h
    obtain ⟨operands, rest, os, pending', settled', rfl, hcluster, hread⟩ := exists_cluster h
    exact ⟨operands, rest, os, pending', settled', rfl, .letters hc hcluster, hread⟩
  | long name hne hname =>
    rw [step_long hbetween hne hname] at h
    cases hp : u.named? name with
    | none => rw [takeLong_unknown hp] at h; cases h
    | some p =>
      by_cases hoption : p.operands = 0
      case pos =>
        rw [takeLong_switch hp hoption] at h
        obtain ⟨hhelp, settled', hread⟩ := exists_switch h
        have hfollow : Follow p [] := ⟨hoption.symm, .inr nofun⟩
        exact ⟨[], arguments, _, none, settled', rfl, .long hne hname hp (fun hasks => hhelp hasks.2) hfollow, hread⟩
      case neg =>
        rw [takeLong_option hp hoption] at h
        obtain ⟨operands, rest, os, pending', settled', rfl, ⟨hfollow, rfl⟩, hread⟩ := exists_follow hoption h
        exact ⟨operands, rest, _, pending', settled', rfl,
          .long hne hname hp (fun hasks => hoption hasks.1) hfollow, hread⟩
  | equals name operand hname =>
    rw [step_equals hbetween hname] at h
    cases hp : u.named? name with
    | none => rw [takeLong_unknown hp] at h; cases h
    | some p =>
      by_cases hoption : p.operands = 0
      case pos => rw [takeLong_tooMany hp hoption] at h; cases h
      case neg =>
        rw [takeLong_option hp hoption, Option.map_some, String.ofList_toList] at h
        obtain ⟨settled', hread⟩ := exists_joined h
        exact ⟨[], arguments, _, none, settled', rfl, .equals hname hp hoption, hread⟩

theorem length_eq_of_ended (h : u.readFrom ⟨settled, pending, false, true, ps⟩ arguments = .ok found) :
    arguments.length = ps.length := by
  induction arguments generalizing ps pending settled with
  | nil =>
    rw [readFrom_nil] at h
    rw [eq_nil_of_finish h]
    rfl
  | cons x arguments ih =>
    rw [readFrom_cons, step_ended rfl] at h
    cases ps with
    | nil => cases h
    | cons p ps =>
      rw [takePositional_bind] at h
      obtain ⟨settled', -, hrest⟩ := exists_of_bind_eq_ok h
      rw [List.length_cons, List.length_cons, ih hrest]

/-- Accepted arguments are written for occurrences. The induction is on how many arguments are left, since an option
takes its operands with it. -/
theorem exists_written (h : u.readFrom (between ps pending settled) arguments = .ok found) :
    ∃ os, Written u ps arguments os := by
  induction hlength : arguments.length using Nat.strongRecOn generalizing arguments ps pending settled with
  | ind n ih =>
    cases arguments with
    | nil =>
      rw [readFrom_nil] at h
      rw [eq_nil_of_finish h]
      exact ⟨[], .nil⟩
    | cons x arguments =>
      rw [List.length_cons] at hlength
      by_cases hlooks : LooksLikeOption x
      case pos =>
        by_cases hending : x = "--"
        case pos =>
          rw [hending, readFrom_cons, step_ending (looksAt_between ps pending settled)] at h
          rw [hending]
          exact ⟨_, .ended (length_eq_of_ended h)⟩
        case neg =>
          obtain ⟨operands, rest, os, pending', settled', rfl, hword, hread⟩ := exists_word hlooks hending h
          rw [List.length_append] at hlength
          obtain ⟨os', hrest⟩ := ih rest.length (by omega) hread rfl
          exact ⟨os ++ os', .word hword hrest⟩
      case neg =>
        rw [readFrom_cons, step_plain (looksAt_between ps pending settled) hlooks] at h
        cases ps with
        | nil => cases h
        | cons p ps =>
          obtain ⟨settled', -, hread⟩ := exists_of_bind_eq_ok ((takePositional_bind x false).symm.trans h)
          obtain ⟨os, hrest⟩ := ih arguments.length (by omega) hread rfl
          exact ⟨(p, [x]) :: os, .positional hlooks hrest⟩

/-- Exactly the arguments that are written for occurrences which can be given together are accepted, and they give
those. -/
theorem read_eq_ok_iff :
    u.read arguments = .ok found ↔
      ∃ os, Written u u.positionals arguments os ∧ Admissible u os ∧ found = os.map given := by
  constructor
  · intro h
    obtain ⟨os, hos⟩ := exists_written ((read_eq_readFrom u arguments).symm.trans h)
    rw [hos.read_eq, combine_eq_ok_iff] at h
    exact ⟨os, hos, h⟩
  · rintro ⟨os, hos, h⟩
    rw [hos.read_eq, combine_eq_ok_iff]
    exact h

end

end

end Usage

end Concolic
