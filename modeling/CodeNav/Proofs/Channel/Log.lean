import CodeNav.Proofs.Channel.Session

/-! # Logs of a session

A log is consistent if each event follows from the ones before it: a call ends once, with an outcome
that the server computed for it, and only the work of a dropped call is cancelled.
-/

namespace CodeNav.Channel

variable {log log' : List Event} {id : Nat} {method : String} {params : Json} {outcome : Outcome}
  {task : Task}

def waiting : List Event → List Nat
  | [] => []
  | .called id _ _ :: log => waiting log ++ [id]
  | .dropped id :: log => (waiting log).filter (· ≠ id)
  | .completed id _ :: log => (waiting log).filter (· ≠ id)
  | _ :: log => waiting log

def IsRequested (log : List Event) (task : Task) : Prop :=
  ∃ method params,
    .called task.id method params ∈ log ∧ task.work = .ofRequest method (some params)

/-- The server computed the outcome for the method and the parameters of the call. -/
def IsOwnOutcome (log : List Event) (id : Nat) (outcome : Outcome) : Prop :=
  ∃ task, task.id = id ∧ IsRequested log task ∧ .computed task outcome ∈ log

/-- What the earlier events have to say for an event. -/
def Event.Follows (earlier : List Event) : Event → Prop
  | called id _ _ => ∀ method params, .called id method params ∉ earlier
  | dropped id => id ∈ waiting earlier
  | computed task outcome => IsRequested earlier task ∧ task.work.MayEnd outcome
  | cancelled task => .dropped task.id ∈ earlier
  | completed id outcome => id ∈ waiting earlier ∧ IsOwnOutcome earlier id outcome

def IsConsistent : List Event → Prop
  | [] => True
  | event :: earlier => event.Follows earlier ∧ IsConsistent earlier

theorem IsRequested.mono (h : IsRequested log task) (hlog : log ⊆ log') :
    IsRequested log' task := by
  obtain ⟨method, params, hcalled, hwork⟩ := h
  exact ⟨method, params, hlog hcalled, hwork⟩

theorem IsOwnOutcome.mono (h : IsOwnOutcome log id outcome) (hlog : log ⊆ log') :
    IsOwnOutcome log' id outcome := by
  obtain ⟨task, hid, hrequested, hcomputed⟩ := h
  exact ⟨task, hid, hrequested.mono hlog, hlog hcomputed⟩

theorem exists_called_of_mem_waiting (h : id ∈ waiting log) :
    ∃ method params, .called id method params ∈ log := by
  induction log with
  | nil => simp [waiting] at h
  | cons event log ih =>
    have hlog (hid : id ∈ waiting log) :
        ∃ method params, .called id method params ∈ event :: log := by
      obtain ⟨method, params, hcalled⟩ := ih hid
      exact ⟨method, params, List.mem_cons_of_mem _ hcalled⟩
    cases event with
    | called other method params =>
      rcases List.mem_append.mp h with hid | hid
      · exact hlog hid
      · obtain rfl := List.mem_singleton.mp hid
        exact ⟨method, params, List.mem_cons_self⟩
    | dropped other => exact hlog ((List.mem_filter.mp h).1)
    | completed other outcome => exact hlog ((List.mem_filter.mp h).1)
    | computed task outcome => exact hlog h
    | cancelled task => exact hlog h

theorem IsConsistent.exists_called (hlog : IsConsistent log) (h : .dropped id ∈ log) :
    ∃ method params, .called id method params ∈ log := by
  induction log with
  | nil => simp at h
  | cons event log ih =>
    rcases List.mem_cons.mp h with rfl | h
    · obtain ⟨method, params, hcalled⟩ := exists_called_of_mem_waiting hlog.1
      exact ⟨method, params, List.mem_cons_of_mem _ hcalled⟩
    · obtain ⟨method, params, hcalled⟩ := ih hlog.2 h
      exact ⟨method, params, List.mem_cons_of_mem _ hcalled⟩

theorem IsConsistent.not_mem_waiting (hlog : IsConsistent log) (h : .dropped id ∈ log) :
    id ∉ waiting log := by
  induction log with
  | nil => simp at h
  | cons event log ih =>
    cases event with
    | called other method params =>
      have h : .dropped id ∈ log := by simpa using h
      -- The identifier is a new one, and only calls that were made are dropped.
      obtain ⟨_, _, hcalled⟩ := hlog.2.exists_called h
      have hne : id ≠ other := by
        rintro rfl
        exact hlog.1 _ _ hcalled
      simp [waiting, ih hlog.2 h, hne]
    | dropped other =>
      by_cases hid : id = other
      · simp [waiting, hid]
      · have h : .dropped id ∈ log := by simpa [hid] using h
        simp [waiting, ih hlog.2 h]
    | completed other outcome =>
      have h : .dropped id ∈ log := by simpa using h
      simp [waiting, ih hlog.2 h]
    | computed task outcome => exact ih hlog.2 (by simpa using h)
    | cancelled task => exact ih hlog.2 (by simpa using h)

end CodeNav.Channel
