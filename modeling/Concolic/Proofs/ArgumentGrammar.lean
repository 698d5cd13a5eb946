import Concolic.CommandLine.Usage
import Concolic.Proofs.Naming

/-!
# The grammar of arguments

The occurrences of parameters that arguments are written for, each with its operands. Reading the arguments comes to
adding the occurrences one after the other, and only arguments that are written for some occurrences are accepted. So
every accepted argument is an option, an operand of the option before it, or a positional.
-/

namespace Concolic

namespace Usage

/-- A parameter among arguments, with its operands. -/
abbrev Occurrence := Parameter × List String

/-- An option begins with a hyphen that something follows. -/
def LooksLikeOption (argument : String) : Prop :=
  ∃ c letters, argument.toList = '-' :: c :: letters

/-- Whether operands can follow an option: they are as many as it has, and do not look like options unless that is
allowed. -/
structure Follow (p : Parameter) (operands : List String) : Prop where
  length_eq : operands.length = p.operands
  plain : p.anyOperand = true ∨ ∀ x ∈ operands, ¬ LooksLikeOption x

def AsksForHelp (p : Parameter) : Prop :=
  p.operands = 0 ∧ p.name = Parameter.help.name

def named? (u : Usage) (name : String) : Option Parameter :=
  u.allOptions.find? fun p => p.name.toList = name.toList

def lettered? (u : Usage) (c : Char) : Option Parameter :=
  u.allOptions.find? fun p => p.letter = some c

/-- Letters after a hyphen, with the arguments after them that are operands: any number of switches, and perhaps an
option that has operands. -/
inductive Cluster (u : Usage) : List Char → List String → List Occurrence → Prop
  | nil : Cluster u [] [] []
  | switch {c : Char} {p : Parameter} {letters : List Char} {operands : List String} {os : List Occurrence}
      (hp : u.lettered? c = some p) (hswitch : p.operands = 0) (hhelp : ¬ AsksForHelp p)
      (h : Cluster u letters operands os) : Cluster u (c :: letters) operands ((p, []) :: os)
  | last {c : Char} {p : Parameter} {operands : List String} (hp : u.lettered? c = some p) (hoption : p.operands ≠ 0)
      (h : Follow p operands) : Cluster u [c] operands [(p, operands)]
  | joined {c : Char} {p : Parameter} {operand : List Char} (hp : u.lettered? c = some p) (hoption : p.operands ≠ 0)
      (hne : operand ≠ []) (hequals : operand.head? ≠ some '=') :
      Cluster u (c :: operand) [] [(p, [String.ofList operand])]
  | equals {c : Char} {p : Parameter} {operand : List Char} (hp : u.lettered? c = some p) (hoption : p.operands ≠ 0) :
      Cluster u (c :: '=' :: operand) [] [(p, [String.ofList operand])]

/-- An argument that looks like an option, with the arguments after it that are operands. -/
inductive Word (u : Usage) : String → List String → List Occurrence → Prop
  | long {name : String} {p : Parameter} {operands : List String} (hne : name ≠ "") (hname : '=' ∉ name.toList)
      (hp : u.named? name = some p) (hhelp : ¬ AsksForHelp p) (h : Follow p operands) :
      Word u ("--" ++ name) operands [(p, operands)]
  | equals {name operand : String} {p : Parameter} (hname : '=' ∉ name.toList) (hp : u.named? name = some p)
      (hoption : p.operands ≠ 0) : Word u ("--" ++ name ++ "=" ++ operand) [] [(p, [operand])]
  | letters {c : Char} {letters : List Char} {operands : List String} {os : List Occurrence} (hc : c ≠ '-')
      (h : Cluster u (c :: letters) operands os) : Word u (String.ofList ('-' :: c :: letters)) operands os

/-- The arguments that write occurrences, when the given positionals are to come. After two hyphens only they come. -/
inductive Written (u : Usage) : List Parameter → List String → List Occurrence → Prop
  | nil : Written u [] [] []
  | ended {ps : List Parameter} {arguments : List String} (h : arguments.length = ps.length) :
      Written u ps ("--" :: arguments) (ps.zip (arguments.map fun x => [x]))
  | word {ps : List Parameter} {x : String} {operands arguments : List String} {os os' : List Occurrence}
      (hx : Word u x operands os) (h : Written u ps arguments os') :
      Written u ps (x :: (operands ++ arguments)) (os ++ os')
  | positional {p : Parameter} {ps : List Parameter} {x : String} {arguments : List String} {os : List Occurrence}
      (hx : ¬ LooksLikeOption x) (h : Written u ps arguments os) :
      Written u (p :: ps) (x :: arguments) ((p, [x]) :: os)

/-! ## One argument -/

inductive Shape : String → Prop
  | ending : Shape "--"
  | long (name : String) (hne : name ≠ "") (hname : '=' ∉ name.toList) : Shape ("--" ++ name)
  | equals (name operand : String) (hname : '=' ∉ name.toList) : Shape ("--" ++ name ++ "=" ++ operand)
  | letters (c : Char) (letters : List Char) (hc : c ≠ '-') : Shape (String.ofList ('-' :: c :: letters))
  | plain (x : String) (h : ¬ LooksLikeOption x) : Shape x

theorem shape (x : String) : Shape x := by
  by_cases h : LooksLikeOption x
  case neg => exact .plain x h
  obtain ⟨c, s, hx⟩ := h
  have hofList : x = String.ofList ('-' :: c :: s) := by rw [← hx, String.ofList_toList]
  by_cases hc : c = '-'
  case neg => exact hofList ▸ .letters c s hc
  subst hc
  cases hcut : cut? '=' s with
  | some parts =>
    obtain ⟨hname, hs⟩ := cut?_eq_some_iff.1 hcut
    have heq : x = "--" ++ String.ofList parts.1 ++ "=" ++ String.ofList parts.2 := by
      rw [hofList, hs, ← String.toList_inj]
      simp
    rw [heq]
    exact .equals _ _ (by rwa [String.toList_ofList])
  | none =>
    have hname := cut?_eq_none_iff.1 hcut
    have heq : x = "--" ++ String.ofList s := by
      rw [hofList, ← String.toList_inj]
      simp
    by_cases hs : s = []
    · rw [heq, hs]
      exact .ending
    · rw [heq]
      refine .long _ (fun hempty => hs ?_) (by rwa [String.toList_ofList])
      rw [← String.toList_ofList (l := s), hempty]
      rfl

/-- Whether an argument is looked at as an option: no option is pending that takes any operand. -/
def LooksAt (s : Progress) : Prop :=
  s.ended = false ∧ (s.expecting = true → ∀ o ∈ s.pending, o.1.anyOperand = false)

section

variable {u : Usage} {s : Progress}

theorem operandAnyway_of_looksAt (h : LooksAt s) :
    (s.expecting && (s.pending.map fun (p, _) => p.anyOperand) == some true) = false := by
  cases hexpecting : s.expecting with
  | false => rfl
  | true =>
    cases hpending : s.pending with
    | none => rfl
    | some o => simp [h.2 hexpecting o hpending]

theorem step_ending (h : LooksAt s) : u.step s "--" = .ok { s with ended := true } := by
  unfold step
  simp [operandAnyway_of_looksAt h, h.1]

theorem step_hyphens (h : LooksAt s) {long : List Char} (hne : long ≠ []) :
    u.step s (String.ofList ('-' :: '-' :: long)) =
      match cut? '=' long with
      | some (name, joined) => u.takeLong name (some joined) s
      | none => u.takeLong long none s := by
  obtain ⟨c, rest, rfl⟩ := List.exists_cons_of_ne_nil hne
  unfold step
  rw [String.toList_ofList]
  cases hcut : cut? '=' (c :: rest) <;>
    simp only [operandAnyway_of_looksAt h, h.1, Bool.false_eq_true, if_false, hcut]

theorem step_long (h : LooksAt s) {name : String} (hne : name ≠ "") (hname : '=' ∉ name.toList) :
    u.step s ("--" ++ name) = u.takeLong name.toList none s := by
  have hlist : "--" ++ name = String.ofList ('-' :: '-' :: name.toList) := by
    rw [← String.toList_inj]
    simp
  rw [hlist, step_hyphens h (by simpa using hne), cut?_eq_none hname]

theorem step_equals (h : LooksAt s) {name operand : String} (hname : '=' ∉ name.toList) :
    u.step s ("--" ++ name ++ "=" ++ operand) = u.takeLong name.toList (some operand.toList) s := by
  have hlist : "--" ++ name ++ "=" ++ operand =
      String.ofList ('-' :: '-' :: (name.toList ++ '=' :: operand.toList)) := by
    rw [← String.toList_inj]
    simp
  rw [hlist, step_hyphens h (by simp), cut?_append hname]

theorem step_letters (h : LooksAt s) {c : Char} (hc : c ≠ '-') (letters : List Char) :
    u.step s (String.ofList ('-' :: c :: letters)) = u.takeLetters (c :: letters) s := by
  unfold step
  rw [String.toList_ofList]
  simp only [operandAnyway_of_looksAt h, h.1, Bool.false_eq_true, if_false]
  split
  case h_1 heq => simp_all
  case h_2 heq => simp_all
  case h_3 heq => simp_all
  case h_4 heq => simp_all

theorem step_plain (h : LooksAt s) {x : String} (hx : ¬ LooksLikeOption x) :
    u.step s x = if s.expecting then .ok (takeOperand x s) else takePositional x s := by
  unfold step
  simp only [operandAnyway_of_looksAt h, h.1, Bool.false_eq_true, if_false]
  split
  case h_1 heq => exact absurd ⟨_, _, heq⟩ hx
  case h_2 heq => exact absurd ⟨_, _, heq⟩ hx
  case h_3 heq => exact absurd ⟨_, _, heq⟩ hx
  case h_4 heq => rfl

theorem takeLong_option {name : String} {p : Parameter} (hp : u.named? name = some p) (hoption : p.operands ≠ 0)
    (joined : Option (List Char)) :
    u.takeLong name.toList joined s = beginOption p (joined.map String.ofList) s := by
  rw [named?] at hp
  simp only [takeLong, hp, ne_eq, hoption, not_false_eq_true, if_true]

theorem takeLong_switch {name : String} {p : Parameter} (hp : u.named? name = some p) (hswitch : p.operands = 0) :
    u.takeLong name.toList none s = takeSwitch p s := by
  rw [named?] at hp
  simp [takeLong, hp, hswitch]

theorem takeLetters_switch {c : Char} {p : Parameter} (hp : u.lettered? c = some p) (hswitch : p.operands = 0)
    (letters : List Char) :
    u.takeLetters (c :: letters) s = takeSwitch p s >>= u.takeLetters letters := by
  rw [lettered?] at hp
  simp only [takeLetters, hp, hswitch, if_true]

theorem takeLetters_last {c : Char} {p : Parameter} (hp : u.lettered? c = some p) (hoption : p.operands ≠ 0) :
    u.takeLetters [c] s = beginOption p none s := by
  rw [lettered?] at hp
  simp only [takeLetters, hp, hoption, if_false]

theorem takeLetters_equals {c : Char} {p : Parameter} (hp : u.lettered? c = some p) (hoption : p.operands ≠ 0)
    (operand : List Char) :
    u.takeLetters (c :: '=' :: operand) s = beginOption p (some (String.ofList operand)) s := by
  rw [lettered?] at hp
  simp only [takeLetters, hp, hoption, if_false]

theorem takeLetters_joined {c : Char} {p : Parameter} (hp : u.lettered? c = some p) (hoption : p.operands ≠ 0)
    {operand : List Char} (hne : operand ≠ []) (hequals : operand.head? ≠ some '=') :
    u.takeLetters (c :: operand) s = beginOption p (some (String.ofList operand)) s := by
  rw [lettered?] at hp
  simp only [takeLetters, hp, hoption, if_false]
  split
  · exact absurd rfl hne
  · exact absurd rfl hequals
  · rfl

theorem takeLong_tooMany {name : String} {p : Parameter} (hp : u.named? name = some p) (hswitch : p.operands = 0)
    (operand : List Char) : u.takeLong name.toList (some operand) s = .error .tooManyValues := by
  rw [named?] at hp
  simp [takeLong, hp, hswitch]

theorem takeLong_unknown {name : String} (hp : u.named? name = none) (joined : Option (List Char)) :
    u.takeLong name.toList joined s = .error .unknownArgument := by
  rw [named?] at hp
  simp only [takeLong, hp]

theorem takeLetters_unknown {c : Char} (hp : u.lettered? c = none) (letters : List Char) :
    u.takeLetters (c :: letters) s = .error .unknownArgument := by
  rw [lettered?] at hp
  simp only [takeLetters, hp]

theorem step_ended (h : s.ended = true) (x : String) : u.step s x = takePositional x s := by
  simp [step, h]

/-- An operand that may follow is taken, whatever it looks like if the option takes any. -/
theorem step_operand {p : Parameter} {taken : List String} {settled : List Given} {ps : List Parameter} {x : String}
    (hx : p.anyOperand = true ∨ ¬ LooksLikeOption x) :
    u.step ⟨settled, some (p, taken), true, false, ps⟩ x =
      .ok ⟨settled, some (p, taken ++ [x]), decide ((taken ++ [x]).length < p.operands), false, ps⟩ := by
  rw [List.length_append, List.length_singleton]
  cases hany : p.anyOperand with
  | true =>
    unfold step
    simp [hany, takeOperand]
  | false =>
    have hplain : ¬ LooksLikeOption x := hx.resolve_left (by simp [hany])
    have hlooks : LooksAt ⟨settled, some (p, taken), true, false, ps⟩ := by
      refine ⟨rfl, fun _ o ho => ?_⟩
      cases ho
      exact hany
    rw [step_plain hlooks hplain]
    rfl

end

/-! ## Adding occurrences -/

theorem exists_of_bind_eq_ok {α β ε : Type} {x : Except ε α} {f : α → Except ε β} {b : β} (h : x >>= f = .ok b) :
    ∃ a, x = .ok a ∧ f a = .ok b := by
  cases x with
  | error e => cases h
  | ok a => exact ⟨a, rfl, h⟩

def addAll (os : List Occurrence) (settled : List Given) : Except UsageError (List Given) :=
  os.foldlM (fun settled o => addGiven o.1 o.2 settled) settled

/-- Adds occurrences, the last ones, and looks for options that exclude each other. -/
def combine (u : Usage) (os : List Occurrence) (settled : List Given) : Except UsageError (List Given) := do
  let settled ← addAll os settled
  let chosen := u.exclusive.filter fun name => settled.any fun g => g.name == name
  if 1 < chosen.length then .error .argumentConflict
  else return settled

theorem addAll_append (os os' : List Occurrence) (settled : List Given) :
    addAll (os ++ os') settled = addAll os settled >>= addAll os' :=
  List.foldlM_append

theorem combine_append (u : Usage) (os os' : List Occurrence) (settled : List Given) :
    u.combine (os ++ os') settled = addAll os settled >>= u.combine os' := by
  simp only [combine, addAll_append, bind_assoc]
  rfl

theorem combine_append_cons (u : Usage) (os os' : List Occurrence) (o : Occurrence) (settled : List Given) :
    u.combine (os ++ o :: os') settled = addAll (os ++ [o]) settled >>= u.combine os' := by
  rw [← combine_append, List.append_assoc, List.singleton_append]

theorem addAll_singleton (p : Parameter) (operands : List String) (settled : List Given) :
    addAll [(p, operands)] settled = addGiven p operands settled := by
  simp [addAll]

def finish (u : Usage) (s : Progress) : Except UsageError (List Given) := do
  let s ← settle s
  let chosen := u.exclusive.filter fun name => s.settled.any fun g => g.name == name
  if 1 < chosen.length then .error .argumentConflict
  else if !s.positionals.isEmpty then .error .missingArgument
  else return s.settled

def readFrom (u : Usage) (s : Progress) (arguments : List String) : Except UsageError (List Given) :=
  arguments.foldlM u.step s >>= u.finish

theorem readFrom_nil (u : Usage) (s : Progress) : u.readFrom s [] = u.finish s :=
  rfl

theorem readFrom_cons (u : Usage) (s : Progress) (x : String) (arguments : List String) :
    u.readFrom s (x :: arguments) = u.step s x >>= fun s => u.readFrom s arguments := by
  simp only [readFrom, List.foldlM_cons, bind_assoc]

/-- The progress after an occurrence and before the next one. The occurrence may be pending. -/
def between (ps : List Parameter) (pending : Option Occurrence) (settled : List Given) : Progress :=
  ⟨settled, pending, false, false, ps⟩

theorem read_eq_readFrom (u : Usage) (arguments : List String) :
    u.read arguments = u.readFrom (between u.positionals none []) arguments :=
  rfl

theorem looksAt_between (ps : List Parameter) (pending : Option Occurrence) (settled : List Given) :
    LooksAt (between ps pending settled) :=
  ⟨rfl, nofun⟩

section

variable {u : Usage} {p : Parameter} {ps : List Parameter} {pending : Option Occurrence} {settled : List Given}
  {arguments operands : List String} {os os' : List Occurrence} {α : Type} {next : Progress → Except UsageError α}

theorem settle_eq (ended : Bool) :
    settle ⟨settled, pending, false, ended, ps⟩ =
      addAll pending.toList settled >>= fun settled => pure ⟨settled, none, false, ended, ps⟩ := by
  cases pending with
  | none => rfl
  | some o =>
    rw [Option.toList_some, addAll_singleton]
    rfl

theorem beginOption_some_bind (x : String) :
    beginOption p (some x) (between ps pending settled) >>= next =
      addAll (pending.toList ++ [(p, [x])]) settled >>= fun settled => next (between ps none settled) := by
  simp only [beginOption, between, settle_eq, addAll_append, addAll_singleton, bind_assoc, pure_bind]

theorem beginOption_none_bind :
    beginOption p none (between ps pending settled) >>= next =
      addAll pending.toList settled >>= fun settled => next ⟨settled, some (p, []), true, false, ps⟩ := by
  simp only [beginOption, between, settle_eq, bind_assoc, pure_bind]

theorem takeSwitch_bind (hhelp : p.name ≠ Parameter.help.name) :
    takeSwitch p (between ps pending settled) >>= next =
      addAll (pending.toList ++ [(p, [])]) settled >>= fun settled => next (between ps none settled) := by
  simp only [takeSwitch, between, settle_eq, addAll_append, addAll_singleton, bind_assoc, pure_bind, if_neg hhelp]

theorem takePositional_bind (x : String) (ended : Bool) :
    takePositional x ⟨settled, pending, false, ended, p :: ps⟩ >>= next =
      addAll pending.toList settled >>= fun settled => next ⟨settled, some (p, [x]), false, ended, ps⟩ := by
  simp only [takePositional, settle_eq, bind_assoc, pure_bind]

theorem finish_eq (ended : Bool) :
    u.finish ⟨settled, pending, false, ended, []⟩ = u.combine pending.toList settled := by
  simp only [finish, combine, settle_eq, bind_assoc, pure_bind]
  rfl

theorem eq_nil_of_finish {found : List Given} {ended : Bool}
    (h : u.finish ⟨settled, pending, false, ended, ps⟩ = .ok found) : ps = [] := by
  simp only [finish, settle_eq, bind_assoc, pure_bind] at h
  obtain ⟨settled', -, hrest⟩ := exists_of_bind_eq_ok h
  split_ifs at hrest with hmany hmissing
  simpa using hmissing

/-- Operands that an option lacks are taken before anything else. The induction is on them, and the number of those
that are taken grows by one with each. -/
theorem readFrom_operands (taken : List String) (hlength : taken.length + operands.length = p.operands)
    (hplain : p.anyOperand = true ∨ ∀ x ∈ operands, ¬ LooksLikeOption x) :
    u.readFrom ⟨settled, some (p, taken), decide (taken.length < p.operands), false, ps⟩ (operands ++ arguments) =
      u.readFrom (between ps (some (p, taken ++ operands)) settled) arguments := by
  induction operands generalizing taken with
  | nil =>
    have hfull : decide (taken.length < p.operands) = false := by
      rw [List.length_nil] at hlength
      exact decide_eq_false (by omega)
    rw [hfull, List.nil_append, List.append_nil, between]
  | cons x operands ih =>
    rw [List.length_cons] at hlength
    have hlacks : decide (taken.length < p.operands) = true := decide_eq_true (by omega)
    have hx : p.anyOperand = true ∨ ¬ LooksLikeOption x := hplain.imp_right fun h => h x List.mem_cons_self
    have hrest : p.anyOperand = true ∨ ∀ y ∈ operands, ¬ LooksLikeOption y :=
      hplain.imp_right fun h y hy => h y (List.mem_cons_of_mem x hy)
    have hnext := ih (taken ++ [x]) (by rw [List.length_append, List.length_singleton]; omega) hrest
    rw [List.append_assoc, List.singleton_append] at hnext
    rw [hlacks, List.cons_append, readFrom_cons, step_operand hx, ← hnext]
    rfl

/-- Arguments are read as these occurrences, whatever comes before them. -/
def ReadAs (u : Usage) (ps : List Parameter) (arguments : List String) (os : List Occurrence) : Prop :=
  ∀ pending settled, u.readFrom (between ps pending settled) arguments = u.combine (pending.toList ++ os) settled

theorem Follow.readFrom (h : Follow p operands) (hoption : p.operands ≠ 0) (hrest : ReadAs u ps arguments os) :
    (beginOption p none (between ps pending settled) >>= fun s => u.readFrom s (operands ++ arguments)) =
      u.combine (pending.toList ++ ((p, operands) :: os)) settled := by
  rw [beginOption_none_bind, combine_append]
  refine bind_congr fun settled => ?_
  have hlacks : decide (([] : List String).length < p.operands) = true := decide_eq_true (Nat.pos_of_ne_zero hoption)
  have hlength : ([] : List String).length + operands.length = p.operands := by
    rw [List.length_nil, Nat.zero_add, h.length_eq]
  rw [← hlacks, readFrom_operands [] hlength h.plain, hrest]
  rfl

theorem readFrom_joined (x : String) (hrest : ReadAs u ps arguments os) :
    (beginOption p (some x) (between ps pending settled) >>= fun s => u.readFrom s arguments) =
      u.combine (pending.toList ++ ((p, [x]) :: os)) settled := by
  rw [beginOption_some_bind, combine_append_cons]
  exact bind_congr fun settled => hrest none settled

theorem Cluster.readFrom {letters : List Char} (h : Cluster u letters operands os) (hrest : ReadAs u ps arguments os') :
    (u.takeLetters letters (between ps pending settled) >>= fun s => u.readFrom s (operands ++ arguments)) =
      u.combine (pending.toList ++ (os ++ os')) settled := by
  induction h generalizing pending settled with
  | nil => exact hrest pending settled
  | switch hp hswitch hhelp h ih =>
    have hname := fun hname => hhelp ⟨hswitch, hname⟩
    rw [takeLetters_switch hp hswitch, bind_assoc, takeSwitch_bind hname, List.cons_append, combine_append_cons]
    exact bind_congr fun settled => ih
  | last hp hoption h =>
    rw [takeLetters_last hp hoption]
    exact h.readFrom hoption hrest
  | joined hp hoption hne hequals =>
    rw [takeLetters_joined hp hoption hne hequals]
    exact readFrom_joined _ hrest
  | equals hp hoption =>
    rw [takeLetters_equals hp hoption]
    exact readFrom_joined _ hrest

theorem Word.readAs {x : String} (h : Word u x operands os) (hrest : ReadAs u ps arguments os') :
    ReadAs u ps (x :: (operands ++ arguments)) (os ++ os') := by
  intro pending settled
  have hlooks := looksAt_between ps pending settled
  rw [readFrom_cons]
  cases h with
  | @long name p operands hne hname hp hhelp h =>
    rw [step_long hlooks hne hname]
    by_cases hoption : p.operands = 0
    case pos =>
      have hnil : operands = [] := List.eq_nil_of_length_eq_zero (h.length_eq.trans hoption)
      have hswitch := fun hname => hhelp ⟨hoption, hname⟩
      rw [hnil, takeLong_switch hp hoption, takeSwitch_bind hswitch, List.singleton_append, combine_append_cons]
      exact bind_congr fun settled => hrest none settled
    case neg =>
      rw [takeLong_option hp hoption]
      exact h.readFrom hoption hrest
  | equals hname hp hoption =>
    rw [step_equals hlooks hname, takeLong_option hp hoption, Option.map_some, String.ofList_toList]
    exact readFrom_joined _ hrest
  | letters hc h =>
    rw [step_letters hlooks hc]
    exact h.readFrom hrest

theorem readFrom_ended (h : arguments.length = ps.length) :
    u.readFrom ⟨settled, pending, false, true, ps⟩ arguments =
      u.combine (pending.toList ++ ps.zip (arguments.map fun x => [x])) settled := by
  induction arguments generalizing ps pending settled with
  | nil =>
    rw [List.eq_nil_of_length_eq_zero h.symm, readFrom_nil, finish_eq]
    simp
  | cons x arguments ih =>
    cases ps with
    | nil => cases h
    | cons p ps =>
      rw [readFrom_cons, step_ended rfl, takePositional_bind, List.map_cons, List.zip_cons_cons, combine_append]
      exact bind_congr fun settled => ih (Nat.succ.inj h)

/-- Arguments that are written for occurrences are read as those. The induction is on how they are written; what is
pending when an occurrence begins is added before it. -/
theorem Written.readAs (h : Written u ps arguments os) : ReadAs u ps arguments os := by
  induction h with
  | nil =>
    intro pending settled
    rw [readFrom_nil, between, finish_eq, List.append_nil]
  | ended h =>
    intro pending settled
    rw [readFrom_cons, step_ending (looksAt_between _ pending settled)]
    exact readFrom_ended h
  | word hx h ih => exact hx.readAs ih
  | positional hx h ih =>
    intro pending settled
    rw [readFrom_cons, step_plain (looksAt_between _ pending settled) hx, combine_append]
    exact (takePositional_bind _ false).trans (bind_congr fun settled => ih _ settled)

/-- Arguments that are written for occurrences give those, unless they cannot be given together. -/
theorem Written.read_eq (h : Written u u.positionals arguments os) : u.read arguments = u.combine os [] := by
  rw [read_eq_readFrom]
  exact h.readAs none []

end

end Usage

end Concolic
