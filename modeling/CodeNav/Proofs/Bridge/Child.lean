import CodeNav.Bridge.Child
import CodeNav.Proofs.CommandLine.Detached
import CodeNav.Proofs.Repository.Authority

/-! # What the child of a bridge reads

The host writes what it tells its child as options with detached values. The child reads the same
unless one of them looks like an option.
-/

namespace CodeNav.CommandLine

variable {options : ChildOptions} {text : String} {command : Command}

namespace ChildOptions

/-- The child reads on its command line what it is told. -/
def IsUnderstood (options : ChildOptions) : Prop :=
  Invocation.ofArguments options.arguments = .ok ⟨0, ".", .serve options⟩

/-- The child ends before it does anything. -/
def IsRefused (options : ChildOptions) : Prop :=
  ∃ cause, Invocation.ofArguments options.arguments = .error cause

def written (options : ChildOptions) : List (Parameter × String) :=
  [(named "root-dir" .path, argument options.root),
    (named "project-uri" .text, argument options.projectUri),
    (named "project-name" .text, argument options.projectName),
    (named "repo-name" .text, argument options.repositoryName),
    (named "channel" .text, argument options.channel)]

theorem arguments_eq (options : ChildOptions) :
    options.arguments = serveName :: detached options.written := rfl

theorem declares_of_mem_written :
    ∀ option ∈ options.written, (grammarOf serveName).Declares option.1 := by
  simp only [written, List.forall_mem_cons]
  refine ⟨?_, ?_, ?_, ?_, ?_, by simp⟩ <;>
    exact ⟨by decide +kernel, by decide, by decide, rfl⟩

theorem accepts_of_mem_written (hroot : argument options.root ≠ "") :
    ∀ option ∈ options.written, option.1.Accepts option.2 := by
  simp only [written, List.forall_mem_cons]
  refine ⟨⟨.path, rfl, ?_⟩, ⟨.text, rfl, rfl⟩, ⟨.text, rfl, rfl⟩, ⟨.text, rfl, rfl⟩,
    ⟨.text, rfl, rfl⟩, by simp⟩
  simp [ValueKind.check, hroot]

theorem forall_mem_written {p : String → Prop} :
    (∀ option ∈ options.written, p option.2) ↔ ∀ text ∈ options.texts, p (argument text) := by
  simp [written, texts]

theorem argument_eq_self_iff : argument text = text ↔ Char.ofNat 0 ∉ text.toList := by
  by_cases h : Char.ofNat 0 ∈ text.toList
  · have hne : "<string-with-nul>" ≠ text := by
      rintro rfl
      exact absurd h (by decide)
    simp [argument, h, hne]
  · simp [argument, h]

theorem argument_ne_empty (h : text ≠ "") : argument text ≠ "" := by
  unfold argument
  split
  · decide
  · exact h

theorem isDetachable_argument (h : IsDetachable text) : IsDetachable (argument text) := by
  unfold argument
  split
  · decide
  · exact h

theorem isPassable_iff :
    options.isPassable = true ↔ ∀ text ∈ options.texts, Char.ofNat 0 ∉ text.toList := by
  simp [isPassable]

theorem ofArguments_serve (rest : List String) :
    Invocation.ofArguments (serveName :: rest) =
      (Reader.readAll (grammarOf serveName) { operands := [] } rest).bind fun inner =>
        (inner.matched.command serveName).map fun command =>
          ⟨(inner.matched.count? verboseOption.name).getD 0,
            (inner.matched.value? directoryOption.name).getD ".", command⟩ := by
  have hname : ({ operands := topGrammar.operands } : Reader).namesCommand topGrammar serveName =
      true := by decide
  have hhelp : serveName ≠ helpName := by decide
  have hoperands : (grammarOf serveName).operands = [] := by decide
  simp only [Invocation.ofArguments, Grammar.read, Reader.arguments, hname, if_true, bind,
    Except.bind, hhelp, if_false, hoperands, Reader.readAll]
  cases Reader.arguments (grammarOf serveName) { operands := [] } rest with
  | error cause => rfl
  | ok read =>
    cases hresolve : read.1.resolve with
    | error cause => simp only [hresolve]
    | ok inner =>
      simp only [hresolve]
      cases inner.matched.command serveName with
      | error cause => rfl
      | ok command =>
        simp [Except.map, Reader.resolve, pure, Except.pure, Matched.count?, Matched.value?]

theorem ofArguments_arguments (hroot : options.root ≠ "")
    (h : ∀ text ∈ options.texts, IsDetachable (argument text)) :
    Invocation.ofArguments options.arguments =
      .ok ⟨0, ".", .serve ⟨argument options.root, argument options.projectUri,
        argument options.projectName, argument options.repositoryName,
        argument options.channel⟩⟩ := by
  have hnames : options.written.map (·.1.name) =
      ["root-dir", "project-uri", "project-name", "repo-name", "channel"] := rfl
  have hnodup : (options.written.map (·.1.name)).Nodup := by rw [hnames]; decide
  rw [arguments_eq, ofArguments_serve, Reader.readAll_detached (by decide) declares_of_mem_written
    (accepts_of_mem_written (argument_ne_empty hroot)) (forall_mem_written.mpr h) hnodup rfl rfl
    fun _ _ => rfl]
  rfl

theorem isRefused_of_not_detachable (h : ∃ text ∈ options.texts, ¬ IsDetachable (argument text)) :
    options.IsRefused := by
  have hwritten : ∃ option ∈ options.written, ¬ IsDetachable option.2 := by
    by_contra hall
    push Not at hall
    obtain ⟨text, htext, hnot⟩ := h
    exact hnot (forall_mem_written.mp hall text htext)
  obtain ⟨cause, hcause⟩ : ∃ cause,
      Reader.readAll (grammarOf serveName) { operands := [] } (detached options.written) =
        .error cause :=
    Reader.readAll_detached_error (by decide) declares_of_mem_written hwritten rfl rfl
  refine ⟨cause, ?_⟩
  rw [arguments_eq, ofArguments_serve, hcause]
  rfl

theorem isUnderstood_iff (hroot : options.root ≠ "") :
    options.IsUnderstood ↔
      ∀ text ∈ options.texts, Char.ofNat 0 ∉ text.toList ∧ IsDetachable text := by
  constructor
  · intro h
    have hdetachable : ∀ text ∈ options.texts, IsDetachable (argument text) := by
      by_contra hnot
      push Not at hnot
      obtain ⟨cause, hcause⟩ := isRefused_of_not_detachable hnot
      rw [IsUnderstood, hcause] at h
      cases h
    rw [IsUnderstood, ofArguments_arguments hroot hdetachable] at h
    -- What the child reads is what stands in the arguments, so none of these was replaced.
    have hsame : ∀ text ∈ options.texts, argument text = text := by
      simp only [Except.ok.injEq, Invocation.mk.injEq, Command.serve.injEq] at h
      simpa [texts] using congrArg texts h.2.2
    intro text htext
    refine ⟨argument_eq_self_iff.mp (hsame text htext), ?_⟩
    rw [← hsame text htext]
    exact hdetachable text htext
  · intro h
    have hsame : ∀ text ∈ options.texts, argument text = text :=
      fun text htext => argument_eq_self_iff.mpr (h text htext).1
    rw [IsUnderstood, ofArguments_arguments hroot fun text htext =>
      isDetachable_argument (h text htext).2]
    simp only [texts, List.forall_mem_cons] at hsame
    obtain ⟨h₁, h₂, h₃, h₄, h₅, -⟩ := hsame
    rw [h₁, h₂, h₃, h₄, h₅]

end ChildOptions

end CodeNav.CommandLine

namespace CodeNav.Bridge

open CommandLine

variable {root remote : String} {repository : Repository}

theorem zero_notMem_toDigits {b : Nat} (hbase : 1 < b) (n : Nat) :
    Char.ofNat 0 ∉ Nat.toDigits b n := by
  induction n using Nat.strongRecOn with
  | ind n ih =>
    have hdigit (m : Nat) : Char.ofNat 0 ≠ m.digitChar := (Nat.digitChar_ne _ (by decide)).symm
    rw [Nat.toDigits_eq_if hbase]
    split
    · simp [hdigit]
    · next hle =>
      have hlt : n / b < n :=
        Nat.div_lt_self (Nat.lt_of_lt_of_le (by omega) (Nat.not_lt.mp hle)) hbase
      simpa [hdigit] using ih _ hlt

theorem passes_channelName (process random : Nat) :
    Char.ofNat 0 ∉ (channelName process random).toList ∧
      IsDetachable (channelName process random) := by
  have hlist : (channelName process random).toList =
      "fastnav-".toList ++ (Nat.toDigits 10 process ++ '-' ::
        (List.replicate (32 - (Nat.toDigits 16 random).length) '0' ++ Nat.toDigits 16 random)) := by
    simp [channelName, Nat.repr, toString]
  refine ⟨?_, isDetachable_of_toList hlist (by decide)⟩
  · rw [hlist]
    have hprocess := zero_notMem_toDigits (b := 10) (by decide) process
    have hrandom := zero_notMem_toDigits (b := 16) (by decide) random
    simp only [List.mem_append, List.mem_cons, not_or]
    exact ⟨by decide, hprocess, by decide, by simp, hrandom⟩

theorem isDetachable_projectUri (h : Repository.ofRemote? root remote = some repository) :
    IsDetachable repository.projectUri := by
  obtain ⟨parts, rest, -, huri⟩ := Repository.exists_parts_of_ofRemote? h
  exact isDetachable_of_toList huri (by decide)

theorem root_of_ofRemote? (h : Repository.ofRemote? root remote = some repository) :
    repository.root = root := by
  simp only [Repository.ofRemote?, Option.bind_eq_bind, Option.bind_eq_some_iff, Option.pure_def,
    Option.some.injEq] at h
  obtain ⟨parts, -, rfl⟩ := h
  rfl

/-- The child of a bridge reads what it is told about a checkout exactly if it can be started with
its arguments and neither the project nor the repository has a name that looks like an option. A
child that is started with such a name ends before it connects. -/
theorem isUnderstood_childOptions_iff (hroot : Path.isAbsolute root = true)
    (h : Repository.ofRemote? root remote = some repository) (process random : Nat) :
    ((childOptions repository (channelName process random)).IsUnderstood ↔
        (childOptions repository (channelName process random)).isPassable = true ∧
          IsDetachable repository.projectName ∧ IsDetachable repository.name) ∧
      ((childOptions repository (channelName process random)).isPassable = true →
        ¬ (IsDetachable repository.projectName ∧ IsDetachable repository.name) →
          (childOptions repository (channelName process random)).IsRefused) := by
  have hhead : root.toList.head? = some '/' := by simpa [Path.isAbsolute] using hroot
  obtain ⟨rest, hlist⟩ := List.head?_eq_some_iff.mp hhead
  have hempty : (childOptions repository (channelName process random)).root ≠ "" := by
    rintro hempty
    have hnil : root.toList = [] := by
      rw [← root_of_ofRemote? h, show repository.root = "" from hempty]
      rfl
    simp [hlist] at hnil
  have hrootValue : IsDetachable repository.root := by
    rw [root_of_ofRemote? h]
    exact isDetachable_of_toList hlist (by decide)
  have hvalues : (∀ text ∈ (childOptions repository (channelName process random)).texts,
      IsDetachable text) ↔ IsDetachable repository.projectName ∧ IsDetachable repository.name := by
    simp [ChildOptions.texts, childOptions, hrootValue, isDetachable_projectUri h,
      (passes_channelName process random).2]
  constructor
  · rw [ChildOptions.isUnderstood_iff hempty, ChildOptions.isPassable_iff, forall₂_and, hvalues]
  · intro hpassable hnot
    rw [← hvalues] at hnot
    push Not at hnot
    obtain ⟨text, htext, hnot⟩ := hnot
    have hsame : ChildOptions.argument text = text :=
      ChildOptions.argument_eq_self_iff.mpr (ChildOptions.isPassable_iff.mp hpassable text htext)
    exact ChildOptions.isRefused_of_not_detachable ⟨text, htext, by rwa [hsame]⟩

def widgets : Repository :=
  ⟨"/src", "https://dev.azure.com/contoso/-", "-", "Widgets"⟩

theorem isUnderstood_dash :
    Repository.ofRemote? "/src" "https://me@dev.azure.com/contoso/-/_git/_full/Widgets/" =
        some widgets ∧
      (childOptions widgets (channelName 4711 255)).IsUnderstood := by
  have h : Repository.ofRemote? "/src" "https://me@dev.azure.com/contoso/-/_git/_full/Widgets/" =
      some widgets := by decide +kernel
  have hpassable : (childOptions widgets (channelName 4711 255)).isPassable = true := by
    decide +kernel
  exact ⟨h, (isUnderstood_childOptions_iff (by decide) h 4711 255).1.mpr
    ⟨hpassable, by decide, by decide⟩⟩

/-- The child of a repository whose name begins with a dash takes the name for an option. -/
theorem not_isUnderstood_dashed :
    ∃ repository,
      Repository.ofRemote? "/src" "https://contoso.visualstudio.com/Tools/_git/-Widgets" =
          some repository ∧
        ¬ (childOptions repository (channelName 1 0)).IsUnderstood ∧
        Invocation.ofArguments (childOptions repository (channelName 1 0)).arguments =
          .error .unknownArgument := by
  have hread : Invocation.ofArguments (childOptions
      ⟨"/src", "https://contoso.visualstudio.com/Tools", "Tools", "-Widgets"⟩
        (channelName 1 0)).arguments = .error .unknownArgument := by decide +kernel
  refine ⟨⟨"/src", "https://contoso.visualstudio.com/Tools", "Tools", "-Widgets"⟩,
    by decide +kernel, ?_, hread⟩
  rw [ChildOptions.IsUnderstood, hread]
  exact fun h => nomatch h

end CodeNav.Bridge
