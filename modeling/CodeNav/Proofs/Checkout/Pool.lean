import Mathlib
import CodeNav.Checkout.Scan

/-! # The threads of a pool

The groups of a scan are shared out to threads. A free thread takes any group that is left, and
looks at a flag before it reads the file. Whatever the threads do, however many they are, and
whenever the flag is raised, they come to an end.
-/

namespace CodeNav.Checkout

open Relation

theorem threadCount_pos (requested : Nat) : 0 < threadCount requested :=
  Nat.lt_of_lt_of_le Nat.one_pos (Nat.le_max_right ..)

/-- The flag that cancels a scan. While it goes up, some threads see it and others do not. -/
inductive Flag where
  | down
  | rising
  | up
  deriving DecidableEq, Repr

/-- How far the turn of a group is. A group is stopped if its thread saw the flag. -/
inductive Turn where
  | waiting
  | reading
  | stopped
  | scanned
  deriving DecidableEq, Repr

def Flag.left : Flag → Nat
  | .down => 2
  | .rising => 1
  | .up => 0

def Turn.left : Turn → Nat
  | .waiting => 2
  | .reading => 1
  | .stopped | .scanned => 0

structure Pool where
  flag : Flag
  turns : List (Group × Turn)

namespace Pool

def start (flag : Flag) (groups : List Group) : Pool := ⟨flag, groups.map (·, .waiting)⟩

def groups (pool : Pool) : List Group := pool.turns.map Prod.fst

def readers (turns : List (Group × Turn)) : Nat := turns.countP (·.2 = .reading)

/-- Somebody raises the flag, a free thread looks at it in the turn of any group that is left, or a
thread is through with a file. -/
inductive Step (threads : Nat) : Pool → Pool → Prop where
  | raise {turns : List (Group × Turn)} : Step threads ⟨.down, turns⟩ ⟨.rising, turns⟩
  | settle {turns : List (Group × Turn)} : Step threads ⟨.rising, turns⟩ ⟨.up, turns⟩
  | stop {flag : Flag} {before after : List (Group × Turn)} {group : Group} (hflag : flag ≠ .down)
      (hfree : readers (before ++ (group, .waiting) :: after) < threads) :
      Step threads ⟨flag, before ++ (group, .waiting) :: after⟩
        ⟨flag, before ++ (group, .stopped) :: after⟩
  | take {flag : Flag} {before after : List (Group × Turn)} {group : Group} (hflag : flag ≠ .up)
      (hfree : readers (before ++ (group, .waiting) :: after) < threads) :
      Step threads ⟨flag, before ++ (group, .waiting) :: after⟩
        ⟨flag, before ++ (group, .reading) :: after⟩
  | finish {flag : Flag} {before after : List (Group × Turn)} {group : Group} :
      Step threads ⟨flag, before ++ (group, .reading) :: after⟩
        ⟨flag, before ++ (group, .scanned) :: after⟩

def Reachable (threads : Nat) (flag : Flag) (groups : List Group) (pool : Pool) : Prop :=
  ReflTransGen (Step threads) (start flag groups) pool

inductive Ends (scanner : Scanner) (tree : FileTree) :
    Group × Turn → Except ScanError (Option (List Symbol)) → Prop where
  | stopped {group : Group} : Ends scanner tree (group, .stopped) (.error (.cancelled group.path))
  | scanned {group : Group} : Ends scanner tree (group, .scanned) (scanner.scanGroup tree group)

/-- The scan gives this result. It waits for all turns before it gives any. -/
def Returns (scanner : Scanner) (tree : FileTree) (pool : Pool)
    (result : Except ScanError (List Symbol)) : Prop :=
  ∃ outcomes, List.Forall₂ (Ends scanner tree) pool.turns outcomes ∧
    result = Scanner.collect outcomes

variable {scanner : Scanner} {tree : FileTree} {threads : Nat} {flag : Flag} {group : Group}
  {groups : List Group} {turns : List (Group × Turn)} {pool pool' : Pool}

theorem Step.groups_eq (h : Step threads pool pool') : pool'.groups = pool.groups := by
  cases h <;> simp [Pool.groups]

theorem Reachable.groups_eq (h : Reachable threads flag groups pool) : pool.groups = groups := by
  induction h with
  | refl =>
    rw [Pool.groups, start, List.map_map]
    exact List.map_id groups
  | tail _ hstep ih => exact hstep.groups_eq.trans ih

def left (pool : Pool) : Nat := pool.flag.left + (pool.turns.map (·.2.left)).sum

theorem Step.left_lt (h : Step threads pool pool') : pool'.left < pool.left := by
  cases h <;> simp [left, Flag.left, Turn.left]

/-- No pool goes on for ever. -/
theorem acc_step (pool : Pool) : Acc (fun later earlier => Step threads earlier later) pool :=
  Subrelation.accessible Step.left_lt ((measure left).wf.apply pool)

theorem exists_ends_or_mem (turns : List (Group × Turn)) :
    (∃ outcomes, List.Forall₂ (Ends scanner tree) turns outcomes) ∨
      ∃ group, (group, .waiting) ∈ turns ∨ (group, .reading) ∈ turns := by
  induction turns with
  | nil => exact .inl ⟨[], .nil⟩
  | cons entry turns ih =>
    have hover : ∀ outcome, Ends scanner tree entry outcome →
        (∃ outcomes, List.Forall₂ (Ends scanner tree) (entry :: turns) outcomes) ∨
          ∃ group, (group, .waiting) ∈ entry :: turns ∨ (group, .reading) ∈ entry :: turns := by
      intro outcome hentry
      rcases ih with ⟨outcomes, hends⟩ | ⟨other, hother⟩
      · exact .inl ⟨_, .cons hentry hends⟩
      · exact .inr ⟨other, hother.imp (List.mem_cons_of_mem _) (List.mem_cons_of_mem _)⟩
    obtain ⟨group, turn⟩ := entry
    cases turn with
    | waiting => exact .inr ⟨group, .inl List.mem_cons_self⟩
    | reading => exact .inr ⟨group, .inr List.mem_cons_self⟩
    | stopped => exact hover _ .stopped
    | scanned => exact hover _ .scanned

/-- As long as there is a thread at all, a pool goes on until it gives a result, and waits for
nobody to raise the flag. -/
theorem exists_returns_or_step (hthreads : 0 < threads) (pool : Pool) :
    (∃ result, pool.Returns scanner tree result) ∨
      ∃ pool', Step threads pool pool' ∧ pool'.flag = pool.flag := by
  obtain ⟨flag, turns⟩ := pool
  rcases exists_ends_or_mem turns with ⟨outcomes, hends⟩ | ⟨group, hgroup⟩
  · exact .inl ⟨_, outcomes, hends, rfl⟩
  · right
    by_cases hreading : ∃ group, (group, .reading) ∈ turns
    · obtain ⟨group, hgroup⟩ := hreading
      obtain ⟨before, after, rfl⟩ := List.append_of_mem hgroup
      exact ⟨_, .finish, rfl⟩
    · -- No thread is at work, so all of them are free.
      have hidle : readers turns = 0 := by
        rw [readers, List.countP_eq_zero]
        rintro ⟨other, turn⟩ hother hturn
        obtain rfl : turn = .reading := of_decide_eq_true hturn
        exact hreading ⟨other, hother⟩
      have hfree : readers turns < threads := hidle ▸ hthreads
      have hwaiting := hgroup.resolve_right fun hmem => hreading ⟨group, hmem⟩
      obtain ⟨before, after, rfl⟩ := List.append_of_mem hwaiting
      by_cases hup : flag = .up
      · exact ⟨_, .stop (by simp [hup]) hfree, rfl⟩
      · exact ⟨_, .take hup hfree, rfl⟩

theorem Step.flag_ne_down (h : Step threads pool pool')
    (hseen : ∀ group, (group, .stopped) ∈ pool.turns → pool.flag ≠ .down) :
    ∀ group, (group, .stopped) ∈ pool'.turns → pool'.flag ≠ .down := by
  intro other hother
  cases h with
  | raise => simp
  | settle => simp
  | stop hflag _ => exact hflag
  | take | finish =>
    simp only [List.mem_append, List.mem_cons, Prod.mk.injEq, reduceCtorEq, and_false,
      false_or] at hother hseen
    exact hseen other hother

theorem Reachable.flag_ne_down (h : Reachable threads flag groups pool) :
    ∀ group, (group, .stopped) ∈ pool.turns → pool.flag ≠ .down := by
  induction h with
  | refl => simp [start]
  | tail _ hstep ih => exact hstep.flag_ne_down ih

/-- From wherever the threads are, they can come to a result, even if nobody touches the flag. -/
theorem exists_steps_returns (scanner : Scanner) (tree : FileTree) (hthreads : 0 < threads)
    (pool : Pool) :
    ∃ pool', ReflTransGen (Step threads) pool pool' ∧ pool'.flag = pool.flag ∧
      ∃ result, pool'.Returns scanner tree result := by
  have hacc : Acc (fun later earlier => Step threads earlier later) pool := acc_step pool
  induction hacc with
  | intro pool _ ih =>
    rcases exists_returns_or_step hthreads pool with hreturns | ⟨next, hstep, hflag⟩
    · exact ⟨pool, .refl, rfl, hreturns⟩
    · obtain ⟨pool', hsteps, hflag', hreturns⟩ := ih next hstep
      exact ⟨pool', .head hstep hsteps, hflag'.trans hflag, hreturns⟩

/-- The result is that of a scan one group after the other which finds the same groups cancelled. -/
theorem Returns.eq_scan {isCancelled : Group → Bool} {result : Except ScanError (List Symbol)}
    (h : pool.Returns scanner tree result)
    (hstopped : ∀ entry ∈ pool.turns, entry.2 = .stopped ↔ isCancelled entry.1) :
    result = scanner.scan tree isCancelled pool.groups := by
  obtain ⟨outcomes, hends, rfl⟩ := h
  refine congrArg Scanner.collect ?_
  have hmem := (List.forall₂_and_left _ _).mpr ⟨hstopped, hends⟩
  rw [Pool.groups, List.map_map, eq_comm, ← List.forall₂_eq_eq_eq, List.forall₂_map_left_iff]
  refine hmem.imp fun entry outcome ⟨hiff, houtcome⟩ => ?_
  cases houtcome with
  | @stopped group => simp [show isCancelled group = true from hiff.mp rfl]
  | @scanned group =>
    have hrunning : isCancelled group = false := by simpa using hiff
    simp [hrunning]

theorem Reachable.eq_scan_of_down (h : Reachable threads flag groups pool)
    (hdown : pool.flag = .down) {result : Except ScanError (List Symbol)}
    (hreturns : pool.Returns scanner tree result) :
    result = scanner.scan tree (fun _ => false) groups := by
  rw [← h.groups_eq]
  refine hreturns.eq_scan fun entry hentry => ⟨fun hstopped => ?_, fun hfalse => by cases hfalse⟩
  obtain ⟨group, turn⟩ := entry
  obtain rfl : turn = .stopped := hstopped
  exact absurd hdown (h.flag_ne_down group hentry)

end Pool

end CodeNav.Checkout
