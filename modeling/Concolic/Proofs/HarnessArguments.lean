import Concolic.CommandLine.Task
import Concolic.Proofs.AcceptedArguments
import Mathlib.Data.List.Basic

/-!
# Assignments among arguments

The pairs of names and values that a harness is given reach its task unchanged, whatever they look like, and each task
is asked for by one flag, of which no operand is lost.
-/

namespace Concolic

namespace Task

/-- The flag that asks for a task. To explore, none is needed. -/
def flag? : Task → Option String
  | explore => none
  | replayAssignment _ => some "assign"
  | replayDefaults => some "replay"
  | replayFile _ => some "file"

def operands : Task → List String
  | explore => []
  | replayAssignment overrides => overrides.flatMap fun o => [o.1, o.2]
  | replayDefaults => []
  | replayFile path => [path]

end Task

namespace Usage

variable {u : Usage} {os : List Occurrence}

theorem has_map_given_iff {name : String} : has name (os.map given) = true ↔ ∃ o ∈ os, o.1.name = name := by
  simp [has, given]

theorem operandsOf_map_given (name : String) :
    operandsOf name (os.map given) = os.flatMap fun o => if o.1.name = name then o.2 else [] := by
  rw [operandsOf, List.flatMap_map]
  rfl

theorem Admissible.eq_of_exclusive (h : Admissible u os) {o o' : Occurrence} (ho : o ∈ os) (ho' : o' ∈ os)
    (hname : o.1.name ∈ u.exclusive) (hname' : o'.1.name ∈ u.exclusive) : o.1.name = o'.1.name := by
  have hchosen {o : Occurrence} (ho : o ∈ os) (hname : o.1.name ∈ u.exclusive) :
      o.1.name ∈ u.exclusive.filter fun name => os.any fun o => o.1.name == name :=
    List.mem_filter.2 ⟨hname, List.any_eq_true.2 ⟨o, ho, beq_self_eq_true _⟩⟩
  have hmem := hchosen ho hname
  have hmem' := hchosen ho' hname'
  have hlength := h.exclusive
  revert hmem hmem' hlength
  cases u.exclusive.filter fun name => os.any fun o => o.1.name == name with
  | nil => exact nofun
  | cons x chosen =>
    intro hmem hmem' hlength
    have hnil : chosen = [] := List.eq_nil_of_length_eq_zero (by simpa using hlength)
    rw [hnil] at hmem hmem'
    exact (List.mem_singleton.1 hmem).trans (List.mem_singleton.1 hmem').symm

theorem Cluster.mem_options {letters : List Char} {operands : List String} (h : Cluster u letters operands os) :
    ∀ o ∈ os, o.1 ∈ u.allOptions := by
  induction h with
  | nil => exact nofun
  | switch hp hswitch hhelp h ih => exact List.forall_mem_cons.2 ⟨List.mem_of_find?_eq_some hp, ih⟩
  | last hp | joined hp | equals hp => exact List.forall_mem_singleton.2 (List.mem_of_find?_eq_some hp)

theorem Word.mem_options {x : String} {operands : List String} (h : Word u x operands os) :
    ∀ o ∈ os, o.1 ∈ u.allOptions := by
  cases h with
  | long hne hname hp | equals hname hp => exact List.forall_mem_singleton.2 (List.mem_of_find?_eq_some hp)
  | letters hc h => exact h.mem_options

theorem Written.mem_parameters {ps : List Parameter} {arguments : List String} (h : Written u ps arguments os) :
    ∀ o ∈ os, o.1 ∈ u.allOptions ++ ps := by
  induction h with
  | nil => exact nofun
  | ended h => exact fun o ho => List.mem_append_right _ (List.of_mem_zip ho).1
  | word hx h ih => exact List.forall_mem_append.2 ⟨fun o ho => List.mem_append_left _ (hx.mem_options o ho), ih⟩
  | positional hx h ih =>
    refine List.forall_mem_cons.2 ⟨by simp, fun o ho => ?_⟩
    exact List.mem_append.2 ((List.mem_append.1 (ih o ho)).imp_right (List.mem_cons_of_mem _))

end Usage

namespace HarnessArgs

open Usage

def assignOption : Parameter :=
  ⟨"assign", some 'a', 2, true, true, fun _ => true⟩

def configOption : Parameter :=
  .single "config" none fun path => !path.isEmpty

def assignArguments (overrides : List (String × String)) : List String :=
  overrides.flatMap fun o => ["-a", o.1, o.2]

def configArguments (path : Option String) : List String :=
  path.toList.flatMap fun path => ["--config", path]

def assignOccurrences (overrides : List (String × String)) : List Occurrence :=
  overrides.map fun o => (assignOption, [o.1, o.2])

def configOccurrences (path : Option String) : List Occurrence :=
  path.toList.map fun path => (configOption, [path])

variable {os : List Occurrence} {arguments : List String}

theorem written_assignArguments (overrides : List (String × String)) (h : Written usage [] arguments os) :
    Written usage [] (assignArguments overrides ++ arguments) (assignOccurrences overrides ++ os) := by
  induction overrides with
  | nil => exact h
  | cons o overrides ih =>
    have hfollow : Follow assignOption [o.1, o.2] := ⟨rfl, .inl rfl⟩
    have hletter : usage.lettered? 'a' = some assignOption := rfl
    have hword : Word usage (String.ofList ['-', 'a']) [o.1, o.2] [(assignOption, [o.1, o.2])] :=
      .letters (by decide) (.last hletter (by decide) hfollow)
    have hspelling : String.ofList ['-', 'a'] = "-a" := rfl
    rw [hspelling] at hword
    change Written usage [] ("-a" :: ([o.1, o.2] ++ (assignArguments overrides ++ arguments)))
      ([(assignOption, [o.1, o.2])] ++ (assignOccurrences overrides ++ os))
    exact .word hword ih

/-- A path that does not begin with a hyphen is an operand, and no option. -/
theorem written_configArguments {path : Option String} (hpath : ∀ p ∈ path, p.toList.head? ≠ some '-')
    (h : Written usage [] arguments os) :
    Written usage [] (configArguments path ++ arguments) (configOccurrences path ++ os) := by
  cases path with
  | none => exact h
  | some path =>
    have hplain : ¬ LooksLikeOption path := by
      rintro ⟨c, letters, hlist⟩
      refine hpath path rfl ?_
      rw [hlist]
      rfl
    have hfollow : Follow configOption [path] := ⟨rfl, .inr (List.forall_mem_singleton.2 hplain)⟩
    have hname : usage.named? "config" = some configOption := rfl
    have hhelp : ¬ AsksForHelp configOption := fun h => absurd h.1 (by decide)
    have hword : Word usage ("--" ++ "config") [path] [(configOption, [path])] :=
      .long (by decide) (by decide) hname hhelp hfollow
    exact .word hword h

theorem admissible_occurrences {path : Option String} (hpath : ∀ p ∈ path, p ≠ "")
    (before after : List (String × String)) :
    Admissible usage (assignOccurrences before ++ (configOccurrences path ++ assignOccurrences after)) := by
  have hassign {overrides : List (String × String)} :
      ∀ o ∈ assignOccurrences overrides, ∃ name value, o = (assignOption, [name, value]) := by
    intro o ho
    obtain ⟨x, -, rfl⟩ := List.mem_map.1 ho
    exact ⟨x.1, x.2, rfl⟩
  have hconfig : ∀ o ∈ configOccurrences path, ∃ file, file ≠ "" ∧ o = (configOption, [file]) := by
    intro o ho
    obtain ⟨file, hfile, rfl⟩ := List.mem_map.1 ho
    exact ⟨file, hpath file (Option.mem_toList.1 hfile), rfl⟩
  have hcases : ∀ o ∈ assignOccurrences before ++ (configOccurrences path ++ assignOccurrences after),
      (∃ name value, o = (assignOption, [name, value])) ∨ ∃ file, file ≠ "" ∧ o = (configOption, [file]) := by
    intro o ho
    simp only [List.mem_append] at ho
    rcases ho with ho | ho | ho
    · exact .inl (hassign o ho)
    · exact .inr (hconfig o ho)
    · exact .inl (hassign o ho)
  refine ⟨⟨?complete, ?accepted, ?single, nofun⟩, ?exclusive⟩
  case complete =>
    intro o ho
    obtain ⟨name, value, rfl⟩ | ⟨file, -, rfl⟩ := hcases o ho <;> rfl
  case accepted =>
    intro o ho x hx
    obtain ⟨name, value, rfl⟩ | ⟨file, hfile, rfl⟩ := hcases o ho
    · rfl
    · rw [List.mem_singleton.1 hx]
      simpa [configOption, Parameter.single] using hfile
  case single =>
    -- Only a configuration is not repeatable, and there is one at most.
    have hrepeatable {overrides : List (String × String)} {name : String} :
        ∀ o ∈ assignOccurrences overrides, o.1.repeatable = false → name ≠ o.1.name := by
      intro o ho hfalse
      obtain ⟨name, value, rfl⟩ := hassign o ho
      cases hfalse
    have hone : (configOccurrences path).Pairwise fun o o' => o'.1.repeatable = false → o.1.name ≠ o'.1.name := by
      cases path with
      | none => exact .nil
      | some file => exact List.pairwise_singleton _ _
    rw [List.pairwise_append, List.pairwise_append]
    refine ⟨List.pairwise_of_forall_mem_list fun _ _ => hrepeatable,
      ⟨hone, List.pairwise_of_forall_mem_list fun _ _ => hrepeatable, fun _ _ => hrepeatable⟩, fun o ho => ?_⟩
    refine List.forall_mem_append.2 ⟨fun o' ho' _ => ?_, hrepeatable⟩
    obtain ⟨name, value, rfl⟩ := hassign o ho
    obtain ⟨file, -, rfl⟩ := hconfig o' ho'
    exact (by decide : "assign" ≠ "config")
  case exclusive =>
    have hother {name : String} (hname : name ≠ "assign") (hname' : name ≠ "config") :
        ((assignOccurrences before ++ (configOccurrences path ++ assignOccurrences after)).any
          fun o => o.1.name == name) = false := by
      rw [List.any_eq_false]
      intro o ho heq
      rw [beq_iff_eq] at heq
      obtain ⟨name, value, rfl⟩ | ⟨file, -, rfl⟩ := hcases o ho
      · exact hname heq.symm
      · exact hname' heq.symm
    have hreplay := @hother "replay" (by decide) (by decide)
    have hfile := @hother "file" (by decide) (by decide)
    simp only [usage, List.filter_cons, List.filter_nil, hreplay, hfile, Bool.false_eq_true, if_false]
    split_ifs <;> decide

theorem parse_eq_ok_iff {args : HarnessArgs} :
    parse arguments = .ok args ↔
      ∃ os, Written usage [] arguments os ∧ Admissible usage os ∧
        args = ⟨taskOf (os.map given), (operandsOf "config" (os.map given)).head?⟩ := by
  constructor
  · intro h
    obtain ⟨found, hread, hargs⟩ := exists_of_bind_eq_ok h
    obtain ⟨os, hos, hadmissible, rfl⟩ := read_eq_ok_iff.1 hread
    exact ⟨os, hos, hadmissible, (Except.ok.inj hargs).symm⟩
  · rintro ⟨os, hos, hadmissible, rfl⟩
    have hread : usage.read arguments = .ok (os.map given) := read_eq_ok_iff.2 ⟨os, hos, hadmissible, rfl⟩
    rw [parse, hread]
    rfl

/-- Two replay options, and a name without a value. -/
example : parse ["-a", "x", "1", "-r"] = .error .argumentConflict ∧
    parse ["-a", "x", "1", "--assign", "y"] = .error .wrongNumberOfValues := by
  decide +kernel

theorem pairs_flatMap (overrides : List (String × String)) :
    pairs (overrides.flatMap fun o => [o.1, o.2]) = overrides := by
  induction overrides with
  | nil => rfl
  | cons o overrides ih =>
    rw [List.flatMap_cons, List.cons_append, List.cons_append, List.nil_append, pairs, ih]

theorem flatMap_pairs {groups : List (List String)} (h : ∀ g ∈ groups, g ≠ [] → g.length = 2) :
    (pairs groups.flatten).flatMap (fun o => [o.1, o.2]) = groups.flatten := by
  induction groups with
  | nil => rfl
  | cons g groups ih =>
    rw [List.forall_mem_cons] at h
    by_cases hg : g = []
    case pos =>
      rw [hg, List.flatten_cons, List.nil_append]
      exact ih h.2
    case neg =>
      obtain ⟨name, value, rfl⟩ := List.length_eq_two.1 (h.1 hg)
      rw [List.flatten_cons, List.cons_append, List.cons_append, List.nil_append, pairs, List.flatMap_cons, ih h.2]
      rfl

theorem operandsOf_occurrences (path : Option String) (before after : List (String × String)) :
    let found := (assignOccurrences before ++ (configOccurrences path ++ assignOccurrences after)).map given
    operandsOf "assign" found = (before ++ after).flatMap (fun o => [o.1, o.2]) ∧
      operandsOf "config" found = path.toList := by
  intro found
  have hnone (overrides : List (String × String)) : overrides.flatMap (fun _ => ([] : List String)) = [] :=
    List.flatMap_eq_nil_iff.2 fun _ _ => rfl
  simp only [found, operandsOf_map_given, List.flatMap_append, assignOccurrences, configOccurrences, List.flatMap_map]
  cases path <;> simp [assignOption, configOption, Parameter.single, hnone]

theorem parse_assignArguments {path : Option String} (hpath : ∀ p ∈ path, p ≠ "" ∧ p.toList.head? ≠ some '-')
    {before after : List (String × String)} (hne : before ++ after ≠ []) :
    parse (assignArguments before ++ (configArguments path ++ assignArguments after)) =
      .ok ⟨.replayAssignment (before ++ after), path⟩ := by
  rw [parse_eq_ok_iff]
  refine ⟨assignOccurrences before ++ (configOccurrences path ++ assignOccurrences after), ?written,
    admissible_occurrences (fun p hp => (hpath p hp).1) before after, ?task⟩
  case written =>
    refine written_assignArguments before (written_configArguments (fun p hp => (hpath p hp).2) ?_)
    have hafter := written_assignArguments after .nil
    rwa [List.append_nil, List.append_nil] at hafter
  case task =>
    obtain ⟨hassign, hconfig⟩ := operandsOf_occurrences path before after
    have hhas : has "assign"
        ((assignOccurrences before ++ (configOccurrences path ++ assignOccurrences after)).map given) = true := by
      rw [has_map_given_iff]
      obtain ⟨o, ho⟩ := List.exists_mem_of_ne_nil _ hne
      refine ⟨(assignOption, [o.1, o.2]), ?_, rfl⟩
      rcases List.mem_append.1 ho with ho | ho
      · exact List.mem_append_left _ (List.mem_map.2 ⟨o, ho, rfl⟩)
      · exact List.mem_append_right _ (List.mem_append_right _ (List.mem_map.2 ⟨o, ho, rfl⟩))
    rw [taskOf, if_pos hhas, hassign, hconfig, pairs_flatMap]
    cases path <;> rfl

/-! ## Accepted arguments and their task -/

theorem options_cases {p : Parameter} (h : p ∈ usage.allOptions) :
    (p.name = "assign" → p.operands = 2) ∧ (p.name = "replay" → p.operands = 0) ∧
      (p.name = "file" → p.operands = 1 ∧ p.repeatable = false) := by
  simp only [allOptions, usage, List.mem_append, List.mem_cons, List.not_mem_nil, or_false] at h
  rcases h with (rfl | rfl | rfl | rfl) | rfl <;>
    simp [Parameter.switch, Parameter.single, Parameter.help]

theorem length_operands_le {name : String}
    (hname : ∀ o ∈ os, o.1.name = name → o.1.repeatable = false ∧ o.2.length = 1)
    (hsingle : os.Pairwise fun o o' => o'.1.repeatable = false → o.1.name ≠ o'.1.name) :
    (os.flatMap fun o => if o.1.name = name then o.2 else []).length ≤ 1 := by
  induction os with
  | nil => exact Nat.zero_le 1
  | cons o os ih =>
    rw [List.forall_mem_cons] at hname
    rw [List.pairwise_cons] at hsingle
    rw [List.flatMap_cons]
    by_cases ho : o.1.name = name
    case neg =>
      rw [if_neg ho]
      exact ih hname.2 hsingle.2
    case pos =>
      have hrest : (os.flatMap fun o => if o.1.name = name then o.2 else []) = [] := by
        rw [List.flatMap_eq_nil_iff]
        intro o' ho'
        refine if_neg fun heq => ?_
        exact hsingle.1 o' ho' (hname.2 o' ho' heq).1 (ho.trans heq.symm)
      rw [if_pos ho, hrest, List.append_nil]
      exact Nat.le_of_eq (hname.1 ho).2

/-- Whether a task is what the replay options among occurrences ask for, with all of their operands. -/
structure AskedBy (os : List Occurrence) (task : Task) : Prop where
  flag_iff : ∀ name, task.flag? = some name ↔ name ∈ usage.exclusive ∧ ∃ o ∈ os, o.1.name = name
  operands_eq : task.operands = os.flatMap fun o => if o.1.name ∈ usage.exclusive then o.2 else []

/-- One replay option settles the flag, and the operands are those of its occurrences. -/
theorem askedBy_of_mem (h : Admissible usage os) {o : Occurrence} (ho : o ∈ os) (hname : o.1.name ∈ usage.exclusive)
    {task : Task} (hflag : task.flag? = some o.1.name)
    (hoperands : task.operands = os.flatMap fun o' => if o'.1.name = o.1.name then o'.2 else []) : AskedBy os task := by
  refine ⟨fun name => ?_, ?_⟩
  · rw [hflag, Option.some.injEq]
    constructor
    · rintro rfl
      exact ⟨hname, o, ho, rfl⟩
    · rintro ⟨hexclusive, o', ho', rfl⟩
      exact h.eq_of_exclusive ho ho' hname hexclusive
  · rw [hoperands]
    refine List.flatMap_congr fun o' ho' => ?_
    have hiff : o'.1.name = o.1.name ↔ o'.1.name ∈ usage.exclusive :=
      ⟨fun heq => heq ▸ hname, fun hexclusive => h.eq_of_exclusive ho' ho hexclusive hname⟩
    simp only [hiff]

theorem not_has_of_mem (h : Admissible usage os) {o : Occurrence} (ho : o ∈ os) (hname : o.1.name ∈ usage.exclusive)
    {name : String} (hexclusive : name ∈ usage.exclusive) (hne : name ≠ o.1.name) :
    ¬ has name (os.map given) = true := by
  intro hhas
  obtain ⟨o', ho', rfl⟩ := has_map_given_iff.1 hhas
  exact hne (h.eq_of_exclusive ho' ho hexclusive hname)

theorem askedBy_of_assign (hos : ∀ o ∈ os, o.1 ∈ usage.allOptions) (h : Admissible usage os) {o : Occurrence}
    (ho : o ∈ os) (hname : o.1.name = "assign") : AskedBy os (taskOf (os.map given)) := by
  have htask : taskOf (os.map given) = .replayAssignment (pairs (operandsOf "assign" (os.map given))) :=
    if_pos (has_map_given_iff.2 ⟨o, ho, hname⟩)
  have htwo : ∀ g ∈ os.map (fun o => if o.1.name = "assign" then o.2 else []), g ≠ [] → g.length = 2 := by
    intro g hg hne
    obtain ⟨o', ho', rfl⟩ := List.mem_map.1 hg
    split_ifs at hne ⊢ with hname'
    · rw [h.complete o' ho', (options_cases (hos o' ho')).1 hname']
    · exact absurd rfl hne
  refine askedBy_of_mem h ho (by rw [hname]; decide) (by rw [htask, hname]; rfl) ?_
  rw [htask, hname, operandsOf_map_given, List.flatMap_def]
  exact flatMap_pairs htwo

theorem askedBy_of_replay (hos : ∀ o ∈ os, o.1 ∈ usage.allOptions) (h : Admissible usage os) {o : Occurrence}
    (ho : o ∈ os) (hname : o.1.name = "replay") : AskedBy os (taskOf (os.map given)) := by
  have hexclusive : o.1.name ∈ usage.exclusive := by rw [hname]; decide
  have hassign := not_has_of_mem h ho hexclusive (by decide : "assign" ∈ usage.exclusive) (by rw [hname]; decide)
  have htask : taskOf (os.map given) = .replayDefaults :=
    (if_neg hassign).trans (if_pos (has_map_given_iff.2 ⟨o, ho, hname⟩))
  refine askedBy_of_mem h ho hexclusive (by rw [htask, hname]; rfl) ?_
  rw [htask, hname]
  refine (List.flatMap_eq_nil_iff.2 fun o' ho' => ?_).symm
  split_ifs with hname'
  · exact List.eq_nil_of_length_eq_zero ((h.complete o' ho').trans ((options_cases (hos o' ho')).2.1 hname'))
  · rfl

theorem askedBy_of_file (hos : ∀ o ∈ os, o.1 ∈ usage.allOptions) (h : Admissible usage os) {o : Occurrence}
    (ho : o ∈ os) (hname : o.1.name = "file") : AskedBy os (taskOf (os.map given)) := by
  have hexclusive : o.1.name ∈ usage.exclusive := by rw [hname]; decide
  have hassign := not_has_of_mem h ho hexclusive (by decide : "assign" ∈ usage.exclusive) (by rw [hname]; decide)
  have hreplay := not_has_of_mem h ho hexclusive (by decide : "replay" ∈ usage.exclusive) (by rw [hname]; decide)
  have hone : ∀ o ∈ os, o.1.name = "file" → o.1.repeatable = false ∧ o.2.length = 1 := by
    intro o ho hname
    obtain ⟨hoperands, hsingle⟩ := (options_cases (hos o ho)).2.2 hname
    exact ⟨hsingle, (h.complete o ho).trans hoperands⟩
  obtain ⟨path, hpath⟩ := List.length_eq_one_iff.1 (hone o ho hname).2
  have hmem : path ∈ os.flatMap fun o => if o.1.name = "file" then o.2 else [] :=
    List.mem_flatMap.2 ⟨o, ho, by rw [if_pos hname, hpath]; exact List.mem_singleton_self path⟩
  have hoperands : (os.flatMap fun o => if o.1.name = "file" then o.2 else []) = [path] := by
    have hle := length_operands_le hone h.single
    obtain ⟨x, hx⟩ := List.length_eq_one_iff.1 (Nat.le_antisymm hle (List.length_pos_of_mem hmem))
    rw [hx, List.mem_singleton] at hmem
    rw [hx, hmem]
  have htask : taskOf (os.map given) = .replayFile path := by
    rw [taskOf, if_neg hassign, if_neg hreplay, operandsOf_map_given, hoperands]
  refine askedBy_of_mem h ho hexclusive (by rw [htask, hname]; rfl) ?_
  rw [htask, hname, hoperands]
  rfl

theorem askedBy_of_none (hnone : ∀ o ∈ os, o.1.name ∉ usage.exclusive) : AskedBy os (taskOf (os.map given)) := by
  have hother {name : String} (hname : name ∈ usage.exclusive) : ∀ o ∈ os, o.1.name ≠ name :=
    fun o ho heq => hnone o ho (heq ▸ hname)
  have hhas {name : String} (hname : name ∈ usage.exclusive) : ¬ has name (os.map given) = true := by
    rw [has_map_given_iff]
    rintro ⟨o, ho, heq⟩
    exact hother hname o ho heq
  have hfile : operandsOf "file" (os.map given) = [] := by
    rw [operandsOf_map_given, List.flatMap_eq_nil_iff]
    exact fun o ho => if_neg (hother (by decide) o ho)
  have htask : taskOf (os.map given) = .explore := by
    rw [taskOf, if_neg (hhas (by decide)), if_neg (hhas (by decide)), hfile]
  rw [htask]
  refine ⟨fun name => ⟨nofun, ?_⟩, (List.flatMap_eq_nil_iff.2 fun o ho => if_neg (hnone o ho)).symm⟩
  rintro ⟨hexclusive, o, ho, rfl⟩
  exact absurd hexclusive (hnone o ho)

theorem askedBy_taskOf (hos : ∀ o ∈ os, o.1 ∈ usage.allOptions) (h : Admissible usage os) :
    AskedBy os (taskOf (os.map given)) := by
  by_cases hsome : ∃ o ∈ os, o.1.name ∈ usage.exclusive
  case pos =>
    obtain ⟨o, ho, hname⟩ := hsome
    simp only [usage, List.mem_cons, List.not_mem_nil, or_false] at hname
    rcases hname with hname | hname | hname
    · exact askedBy_of_assign hos h ho hname
    · exact askedBy_of_replay hos h ho hname
    · exact askedBy_of_file hos h ho hname
  case neg =>
    exact askedBy_of_none fun o ho hname => hsome ⟨o, ho, hname⟩

/-- Pairs of names and values are accepted whatever they look like, with a configuration anywhere between them, and are
the task's in their order. Of arguments that are accepted, two different replay options are never among them, every
option that sets a name has its value, and the task is that of the replay option, with all of its operands. -/
theorem assignments_reach_task :
    (∀ (before after : List (String × String)) (path : Option String), before ++ after ≠ [] →
      (∀ file ∈ path, file ≠ "" ∧ file.toList.head? ≠ some '-') →
      parse (assignArguments before ++ (configArguments path ++ assignArguments after)) =
        .ok ⟨.replayAssignment (before ++ after), path⟩) ∧
    ∀ arguments args, parse arguments = .ok args →
      (∃ os, Written usage [] arguments os) ∧
      ∀ os, Written usage [] arguments os →
        (∀ o ∈ os, ∀ o' ∈ os, o.1.name ∈ usage.exclusive → o'.1.name ∈ usage.exclusive → o.1.name = o'.1.name) ∧
        (∀ o ∈ os, o.1.name = "assign" → o.2.length = 2) ∧
        (∀ name, args.task.flag? = some name ↔ name ∈ usage.exclusive ∧ ∃ o ∈ os, o.1.name = name) ∧
        args.task.operands = os.flatMap fun o => if o.1.name ∈ usage.exclusive then o.2 else [] := by
  refine ⟨fun before after path hne hpath => parse_assignArguments hpath hne, fun arguments args h => ⟨?_, ?_⟩⟩
  · obtain ⟨os, hos, -⟩ := parse_eq_ok_iff.1 h
    exact ⟨os, hos⟩
  · intro os hos
    obtain ⟨found, hread, hargs⟩ := exists_of_bind_eq_ok h
    rw [hos.read_eq, combine_eq_ok_iff] at hread
    obtain ⟨hadmissible, rfl⟩ := hread
    cases hargs
    have hoptions : ∀ o ∈ os, o.1 ∈ usage.allOptions := by simpa using hos.mem_parameters
    have hasked := askedBy_taskOf hoptions hadmissible
    refine ⟨fun o ho o' ho' => hadmissible.eq_of_exclusive ho ho', fun o ho hname => ?_, hasked.flag_iff,
      hasked.operands_eq⟩
    rw [hadmissible.complete o ho, (options_cases (hoptions o ho)).1 hname]

/-- Names and values that look like options, and a configuration between two pairs. -/
theorem assignments_reach_task_lookalikes :
    let before := [("-r", ""), ("--config", "-a")]
    let after := [("x", "--")]
    let arguments := ["-a", "-r", "", "-a", "--config", "-a", "--config", "harness.json", "-a", "x", "--"]
    before ++ after ≠ [] ∧ (∀ file ∈ some "harness.json", file ≠ "" ∧ file.toList.head? ≠ some '-') ∧
      parse arguments = .ok ⟨.replayAssignment (before ++ after), some "harness.json"⟩ ∧
      ∃ os, Written usage [] arguments os ∧
        (∃ o ∈ os, o.1.name = "assign" ∧ "assign" ∈ usage.exclusive ∧ o.2.length = 2) ∧
        ["-r", "", "--config", "-a", "x", "--"] = os.flatMap fun o => if o.1.name ∈ usage.exclusive then o.2 else [] := by
  intro before after arguments
  have hne : before ++ after ≠ [] := by decide
  have hpath : ∀ file ∈ some "harness.json", file ≠ "" ∧ file.toList.head? ≠ some '-' := by
    intro file hfile
    cases hfile
    decide
  obtain ⟨hwritten, haccepted⟩ := assignments_reach_task
  have hparse : parse arguments = .ok ⟨.replayAssignment (before ++ after), some "harness.json"⟩ :=
    hwritten before after (some "harness.json") hne hpath
  obtain ⟨⟨os, hos⟩, hall⟩ := haccepted arguments _ hparse
  obtain ⟨-, htwo, hflag, hoperands⟩ := hall os hos
  obtain ⟨hexclusive, o, ho, hname⟩ := (hflag "assign").1 rfl
  exact ⟨hne, hpath, hparse, os, hos, ⟨o, ho, hname, hexclusive, htwo o ho hname⟩, hoperands⟩

end HarnessArgs

end Concolic
