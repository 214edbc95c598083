import CodeNav.Proofs.Checkout.Pool
import CodeNav.Proofs.Checkout.Soundness

/-! # A scan that may be cancelled

The threads of a pool take the groups of a scan in any order, and look at a flag before they read a
file. However the threads run, and whenever the flag is raised, the scan gives the symbols of all
groups or none at all.
-/

namespace CodeNav.Checkout

namespace Scanner

/-- There is a file for the group, but it cannot be read. -/
def IsUnreadable (scanner : Scanner) (tree : FileTree) (group : Group) : Prop :=
  ∃ path names, localPath? scanner.root group.path = some path ∧
    tree.find path = .ok (names, .unreadable)

/-- The path of the group leads out of the checkout, nowhere, or to a directory. -/
def IsPassedOver (scanner : Scanner) (tree : FileTree) (group : Group) : Prop :=
  ∀ path, localPath? scanner.root group.path = some path →
    ∀ names entry, tree.find path = .ok (names, entry) → entry = .directory

variable {scanner : Scanner} {tree : FileTree} {group : Group}

theorem scanGroup_of_isPassedOver (h : scanner.IsPassedOver tree group) :
    scanner.scanGroup tree group = .ok none := by
  rw [scanGroup]
  cases hlocal : localPath? scanner.root group.path with
  | none => rfl
  | some path =>
    have hfile : tree.isFile path = false := by
      cases hfind : tree.find path with
      | error cause => simp only [FileTree.isFile, hfind]
      | ok place =>
        obtain ⟨names, entry⟩ := place
        obtain rfl := h path hlocal names entry hfind
        simp only [FileTree.isFile, hfind]
    simp only [hfile, Bool.false_eq_true, if_false]

theorem IsPassedOver.not_isUnreadable (h : scanner.IsPassedOver tree group) :
    ¬ scanner.IsUnreadable tree group := by
  rintro ⟨path, names, hlocal, hfind⟩
  cases h path hlocal names _ hfind

/-- Only a file that is there and cannot be read fails. -/
theorem scanGroup_eq_error_iff {cause : ScanError} :
    scanner.scanGroup tree group = .error cause ↔
      ∃ path names, localPath? scanner.root group.path = some path ∧
        tree.find path = .ok (names, .unreadable) ∧ cause = .unreadable path .denied := by
  rw [scanGroup]
  cases hlocal : localPath? scanner.root group.path with
  | none => simp
  | some path =>
    cases hfind : tree.find path with
    | error _ => simp [FileTree.isFile, hfind]
    | ok place =>
      obtain ⟨names, entry⟩ := place
      cases entry with
      | directory => simp [FileTree.isFile, hfind]
      | file bytes =>
        simp [FileTree.isFile, FileTree.read, hfind, bind, Except.bind, pure, Except.pure]
      | unreadable =>
        simp only [FileTree.isFile, FileTree.read, hfind, bind, Except.bind, throw, throwThe,
          MonadExceptOf.throw, if_true, Except.error.injEq, Option.some.injEq]
        constructor
        · rintro rfl
          exact ⟨path, names, rfl, hfind, rfl⟩
        · rintro ⟨_, _, rfl, -, rfl⟩
          rfl

theorem exists_scanGroup_eq_ok_iff :
    (∃ found?, scanner.scanGroup tree group = .ok found?) ↔ ¬ scanner.IsUnreadable tree group := by
  constructor
  · rintro ⟨found?, hfound⟩ ⟨path, names, hlocal, hfind⟩
    have herror := scanGroup_eq_error_iff.mpr ⟨path, names, hlocal, hfind, rfl⟩
    cases hfound.symm.trans herror
  · intro hreadable
    cases houtcome : scanner.scanGroup tree group with
    | ok found? => exact ⟨found?, rfl⟩
    | error cause =>
      obtain ⟨path, names, hlocal, hfind, -⟩ := scanGroup_eq_error_iff.mp houtcome
      exact absurd ⟨path, names, hlocal, hfind⟩ hreadable

theorem found_eq_getD {found? : Option (List Symbol)}
    (h : scanner.scanGroup tree group = .ok found?) :
    scanner.found tree group = found?.getD [] := by
  rw [found, h]
  cases found? <;> rfl

end Scanner

namespace Pool

variable {scanner : Scanner} {tree : FileTree} {threads : Nat} {flag : Flag} {group : Group}
  {groups : List Group} {turns : List (Group × Turn)} {pool pool' : Pool}

structure IsRaised (pool : Pool) : Prop where
  flag_eq : pool.flag = .up
  turn_eq : ∀ entry ∈ pool.turns, entry.2 = .waiting ∨ entry.2 = .stopped

theorem IsRaised.step (h : Step threads pool pool') (hraised : pool.IsRaised) :
    pool'.IsRaised := by
  obtain ⟨hup, hturns⟩ := hraised
  cases h with
  | raise => cases hup
  | settle => cases hup
  | take hflag _ => exact absurd hup hflag
  | stop _ _ =>
    rw [List.forall_mem_append, List.forall_mem_cons] at hturns
    refine ⟨hup, ?_⟩
    rw [List.forall_mem_append, List.forall_mem_cons]
    exact ⟨hturns.1, .inr rfl, hturns.2.2⟩
  | finish =>
    rw [List.forall_mem_append, List.forall_mem_cons] at hturns
    rcases hturns.2.1 with hturn | hturn
    · cases hturn
    · cases hturn

theorem Reachable.isRaised (h : Reachable threads .up groups pool) : pool.IsRaised := by
  induction h with
  | refl => exact ⟨rfl, by simp [start]⟩
  | tail _ hstep ih => exact ih.step hstep

def Succeeds (scanner : Scanner) (tree : FileTree) (entry : Group × Turn) : Prop :=
  entry.2 = .scanned ∧ ¬ scanner.IsUnreadable tree entry.1

inductive Fails (scanner : Scanner) (tree : FileTree) : Group × Turn → ScanError → Prop where
  | stopped {group : Group} : Fails scanner tree (group, .stopped) (.cancelled group.path)
  | unreadable {group : Group} {path : String} {names : List String}
      (hlocal : localPath? scanner.root group.path = some path)
      (hfind : tree.find path = .ok (names, .unreadable)) :
      Fails scanner tree (group, .scanned) (.unreadable path .denied)

variable {entry : Group × Turn} {outcomes : List (Except ScanError (Option (List Symbol)))}

theorem Ends.succeeds_or_fails {outcome : Except ScanError (Option (List Symbol))}
    (h : Ends scanner tree entry outcome) :
    (Succeeds scanner tree entry ∧
        ∃ found?, outcome = .ok found? ∧ scanner.found tree entry.1 = found?.getD []) ∨
      ∃ cause, outcome = .error cause ∧ Fails scanner tree entry cause := by
  cases h with
  | stopped => exact .inr ⟨_, rfl, .stopped⟩
  | @scanned group =>
    cases houtcome : scanner.scanGroup tree group with
    | ok found? =>
      have hreadable := Scanner.exists_scanGroup_eq_ok_iff.mp ⟨found?, houtcome⟩
      exact .inl ⟨⟨rfl, hreadable⟩, found?, rfl, Scanner.found_eq_getD houtcome⟩
    | error cause =>
      obtain ⟨path, names, hlocal, hfind, rfl⟩ := Scanner.scanGroup_eq_error_iff.mp houtcome
      exact .inr ⟨_, rfl, .unreadable hlocal hfind⟩

theorem Fails.not_succeeds {cause : ScanError} (h : Fails scanner tree entry cause) :
    ¬ Succeeds scanner tree entry := by
  rintro ⟨hturn, hreadable⟩
  cases h with
  | stopped => cases hturn
  | unreadable hlocal hfind => exact hreadable ⟨_, _, hlocal, hfind⟩

/-- The outcomes come to the symbols of all groups if every turn succeeds, and otherwise to the
error of the first turn that fails. -/
theorem collect_of_ends (h : List.Forall₂ (Ends scanner tree) turns outcomes) :
    ((∀ entry ∈ turns, Succeeds scanner tree entry) ∧
        Scanner.collect outcomes = .ok (turns.flatMap (scanner.found tree ·.1))) ∨
      ∃ before entry after cause, turns = before ++ entry :: after ∧
        (∀ earlier ∈ before, Succeeds scanner tree earlier) ∧ Fails scanner tree entry cause ∧
        Scanner.collect outcomes = .error cause := by
  induction h with
  | nil => exact .inl ⟨by simp, rfl⟩
  | @cons entry outcome turns outcomes hentry _ ih =>
    rcases hentry.succeeds_or_fails with ⟨hsucceeds, found?, rfl, hfound⟩ | ⟨cause, rfl, hfails⟩
    · rcases ih with ⟨hall, hcollect⟩ |
        ⟨before, failed, after, cause, rfl, hbefore, hfails, hcollect⟩
      · left
        refine ⟨List.forall_mem_cons.mpr ⟨hsucceeds, hall⟩, ?_⟩
        simp only [Scanner.collect, hcollect, bind, Except.bind, pure, Except.pure,
          List.flatMap_cons, hfound]
      · right
        refine ⟨entry :: before, failed, after, cause, rfl,
          List.forall_mem_cons.mpr ⟨hsucceeds, hbefore⟩, hfails, ?_⟩
        simp only [Scanner.collect, hcollect, bind, Except.bind]
    · exact .inr ⟨[], entry, turns, cause, rfl, by simp, hfails, rfl⟩

theorem turns_eq_map_iff {turn : Turn} (hgroups : pool.groups = groups) :
    pool.turns = groups.map (·, turn) ↔ ∀ entry ∈ pool.turns, entry.2 = turn := by
  rw [← hgroups, Pool.groups, List.map_map]
  constructor
  · intro h entry hentry
    rw [h] at hentry
    obtain ⟨other, -, rfl⟩ := List.mem_map.mp hentry
    rfl
  · intro h
    calc pool.turns = pool.turns.map id := (List.map_id _).symm
      _ = pool.turns.map ((·, turn) ∘ Prod.fst) :=
        List.map_congr_left fun entry hentry => Prod.ext rfl (h entry hentry)

theorem Reachable.returns_ok_iff (h : Reachable threads flag groups pool)
    {symbols : List Symbol} :
    pool.Returns scanner tree (.ok symbols) ↔ pool.turns = groups.map (·, .scanned) ∧
      (∀ group ∈ groups, ¬ scanner.IsUnreadable tree group) ∧
        symbols = groups.flatMap (scanner.found tree) := by
  rw [turns_eq_map_iff h.groups_eq, ← h.groups_eq, Pool.groups, List.forall_mem_map,
    List.flatMap_map]
  constructor
  · rintro ⟨outcomes, hends, hresult⟩
    rcases collect_of_ends hends with ⟨hall, hcollect⟩ | ⟨_, _, _, _, -, -, -, hcollect⟩
    · exact ⟨fun entry hentry => (hall entry hentry).1, fun entry hentry => (hall entry hentry).2,
        Except.ok.inj (hresult.trans hcollect)⟩
    · cases hresult.trans hcollect
  · rintro ⟨hscanned, hreadable, rfl⟩
    rcases exists_ends_or_mem pool.turns with ⟨outcomes, hends⟩ | ⟨group, hgroup⟩
    · refine ⟨outcomes, hends, ?_⟩
      rcases collect_of_ends hends with ⟨-, hcollect⟩ | ⟨_, entry, _, _, hturns, -, hfails, -⟩
      · exact hcollect.symm
      · have hentry : entry ∈ pool.turns := by simp [hturns]
        exact absurd ⟨hscanned entry hentry, hreadable entry hentry⟩ hfails.not_succeeds
    · rcases hgroup with hgroup | hgroup
      · cases hscanned _ hgroup
      · cases hscanned _ hgroup

theorem Returns.exists_fails {cause : ScanError} (h : pool.Returns scanner tree (.error cause)) :
    ∃ before entry after, pool.turns = before ++ entry :: after ∧
      (∀ earlier ∈ before, Succeeds scanner tree earlier) ∧ Fails scanner tree entry cause := by
  obtain ⟨outcomes, hends, hresult⟩ := h
  rcases collect_of_ends hends with
    ⟨-, hcollect⟩ | ⟨before, entry, after, other, hturns, hbefore, hfails, hcollect⟩
  · cases hresult.trans hcollect
  · obtain rfl : cause = other := Except.error.inj (hresult.trans hcollect)
    exact ⟨before, entry, after, hturns, hbefore, hfails⟩

/-- A scan that is cancelled from the beginning fails at once, unless it has nothing to do. -/
theorem Reachable.eq_of_up (h : Reachable threads .up groups pool)
    {result : Except ScanError (List Symbol)} (hreturns : pool.Returns scanner tree result) :
    result = groups.head?.elim (.ok []) fun group => .error (.cancelled group.path) := by
  obtain ⟨outcomes, hends, rfl⟩ := hreturns
  have hturns := h.isRaised.turn_eq
  rw [← h.groups_eq, Pool.groups]
  generalize pool.turns = turns at hends hturns
  cases hends with
  | nil => rfl
  | cons hentry _ =>
    cases hentry with
    | stopped => rfl
    | scanned =>
      rcases hturns _ List.mem_cons_self with hturn | hturn
      · cases hturn
      · cases hturn

/-- For groups that are all different, the result is that of a scan one after the other which finds
the same groups cancelled. -/
theorem Reachable.eq_scan (h : Reachable threads flag groups pool) (hnodup : groups.Nodup)
    {result : Except ScanError (List Symbol)} (hreturns : pool.Returns scanner tree result) :
    result = scanner.scan tree (fun group => (group, .stopped) ∈ pool.turns) groups := by
  rw [← h.groups_eq] at hnodup ⊢
  refine hreturns.eq_scan fun entry hentry => ?_
  constructor
  · intro hstopped
    exact decide_eq_true (hstopped ▸ hentry)
  · intro hmem
    have hsame := List.inj_on_of_nodup_map hnodup hentry (of_decide_eq_true hmem) rfl
    exact congrArg Prod.snd hsame

structure IsAllOrNothing (scanner : Scanner) (tree : FileTree) (threads : Nat) (flag : Flag)
    (groups : List Group) : Prop where
  /-- The threads go on until there is a result, and not for ever. -/
  ends : ∀ pool, Reachable threads flag groups pool →
    Acc (fun later earlier => Step threads earlier later) pool ∧
      ((∃ result, pool.Returns scanner tree result) ∨
        ∃ pool', Step threads pool pool' ∧ pool'.flag = pool.flag)
  /-- It succeeds exactly if no group was stopped and no file failed. -/
  ok_iff : ∀ pool symbols, Reachable threads flag groups pool →
    (pool.Returns scanner tree (.ok symbols) ↔ pool.turns = groups.map (·, .scanned) ∧
      (∀ group ∈ groups, ¬ scanner.IsUnreadable tree group) ∧
        symbols = groups.flatMap (scanner.found tree))
  /-- Otherwise it gives the error of the first group that failed. -/
  exists_fails : ∀ pool cause, Reachable threads flag groups pool →
    pool.Returns scanner tree (.error cause) →
      ∃ before entry after, pool.turns = before ++ entry :: after ∧
        (∀ earlier ∈ before, Succeeds scanner tree earlier) ∧ Fails scanner tree entry cause
  not_down : ∀ pool, Reachable threads flag groups pool →
    ∀ group, (group, .stopped) ∈ pool.turns → pool.flag ≠ .down
  /-- If the flag is up from the beginning, the scan fails unless there are no groups. -/
  eq_of_up : flag = .up → ∀ pool result, Reachable threads flag groups pool →
    pool.Returns scanner tree result →
      result = groups.head?.elim (.ok []) fun group => .error (.cancelled group.path)
  ok_of_nil : groups = [] → ∀ pool, Reachable threads flag groups pool →
    pool.Returns scanner tree (.ok [])
  /-- A group that is passed over does not fail, and has no symbols. -/
  passes : ∀ group, scanner.IsPassedOver tree group →
    ¬ scanner.IsUnreadable tree group ∧ scanner.found tree group = []
  /-- It is the result of a scan one group after the other, if no group occurs twice. -/
  eq_scan : groups.Nodup → ∀ pool result, Reachable threads flag groups pool →
    pool.Returns scanner tree result →
      result = scanner.scan tree (fun group => (group, .stopped) ∈ pool.turns) groups

theorem isAllOrNothing (scanner : Scanner) (tree : FileTree) (requested : Nat) (flag : Flag)
    (groups : List Group) : IsAllOrNothing scanner tree (threadCount requested) flag groups where
  ends pool _ := ⟨acc_step pool, exists_returns_or_step (threadCount_pos requested) pool⟩
  ok_iff _ _ h := h.returns_ok_iff
  exists_fails _ _ _ hreturns := hreturns.exists_fails
  not_down _ h := h.flag_ne_down
  eq_of_up hflag _ _ h hreturns := by
    subst hflag
    exact h.eq_of_up hreturns
  ok_of_nil hgroups pool h := by
    subst hgroups
    have hturns : pool.turns = [] := List.map_eq_nil_iff.mp h.groups_eq
    exact h.returns_ok_iff.mpr ⟨hturns, by simp, rfl⟩
  passes group hpassed := by
    have houtcome := Scanner.scanGroup_of_isPassedOver hpassed
    exact ⟨hpassed.not_isUnreadable, Scanner.found_eq_getD houtcome⟩
  eq_scan hnodup _ _ h hreturns := h.eq_scan hnodup hreturns

end Pool

end CodeNav.Checkout
