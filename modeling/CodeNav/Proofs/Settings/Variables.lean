import Mathlib
import CodeNav.Proofs.Text.Decimal
import CodeNav.Settings.Environment

/-! # What one variable does to settings

Each variable has values that it refuses. From any other value it reads what the text says, writes
that to one setting, and leaves all other settings as they are.
-/

namespace CodeNav.Settings

/-- A text names a mode, in any case of its ASCII letters. -/
def Mode.IsNamedBy (mode : Mode) (text : String) : Prop := Text.asciiLower text = mode.name

def IsCount (text : String) (n : Nat) : Prop := Text.IsNumeral (Text.trim text.toList) n

def variableOrder : List String :=
  ["FASTNAV_MODE", "FASTNAV_TIMEOUT_SECS", "FASTNAV_MAX_RESULTS", "FASTNAV_CACHE_TTL_SECS",
    "FASTNAV_CONNECT_TIMEOUT_SECS", "FASTNAV_BRANCH", "FASTNAV_FILE_EXTENSION",
    "FASTNAV_ENDPOINT", "FASTNAV_PAT", "FASTNAV_CLIENT_EXECUTABLE"]

def countVariables : List String :=
  ["FASTNAV_TIMEOUT_SECS", "FASTNAV_MAX_RESULTS", "FASTNAV_CACHE_TTL_SECS",
    "FASTNAV_CONNECT_TIMEOUT_SECS"]

def IsInvalid (name text : String) : Prop :=
  (name = "FASTNAV_MODE" ∧ ∀ mode : Mode, ¬ mode.IsNamedBy text) ∨
    (name ∈ countVariables ∧ ∀ n, ¬ IsCount text n)

variable {settings : Settings} {v : Variable} {text : String}

theorem Mode.IsNamedBy.unique {mode mode' : Mode} (h : mode.IsNamedBy text)
    (h' : mode'.IsNamedBy text) : mode = mode' := by
  have hname : mode.name = mode'.name := h.symm.trans h'
  cases mode <;> cases mode' <;> simp [name] at hname ⊢

theorem Mode.equalsIgnoringAsciiCase_name {mode : Mode} :
    Text.equalsIgnoringAsciiCase mode.name text = true ↔ mode.IsNamedBy text := by
  have hlower : Text.asciiLower mode.name = mode.name := by cases mode <;> decide +kernel
  rw [Text.equalsIgnoringAsciiCase, hlower, beq_iff_eq, IsNamedBy, eq_comm]

theorem Mode.parse?_eq_some_iff {mode : Mode} : parse? text = some mode ↔ mode.IsNamedBy text := by
  have hnamed : ∀ mode, parse? text = some mode → mode.IsNamedBy text := by
    intro mode h
    have hequal := List.find?_some h
    exact equalsIgnoringAsciiCase_name.mp hequal
  refine ⟨hnamed mode, fun h => ?_⟩
  cases hfound : parse? text with
  | none =>
    have hmem : mode ∈ all := by cases mode <;> decide
    rw [parse?, List.find?_eq_none] at hfound
    exact absurd (equalsIgnoringAsciiCase_name.mpr h) (hfound mode hmem)
  | some found => exact congrArg some ((hnamed found hfound).unique h)

/-- A variable writes one setting: what its text says, whatever the settings are. -/
structure Variable.Writes {α : Type} (v : Variable) (Says : String → α → Prop)
    (get : Settings → α) (set : α → Settings → Settings) : Prop where
  apply_eq_ok_iff : ∀ text before after,
    v.apply text before = .ok after ↔ ∃ value, Says text value ∧ after = set value before
  get_set : ∀ value settings, get (set value settings) = value

def Variable.Keeps {α : Type} (v : Variable) (get : Settings → α) : Prop :=
  ∀ text before after, v.apply text before = .ok after → get after = get before

section

variable {α : Type} {Says : String → α → Prop} {get : Settings → α} {set : α → Settings → Settings}
  {setCount : Nat → Settings → Settings} {setText : String → Settings → Settings}

namespace Variable

theorem writes_mode :
    mode.Writes (fun text mode => Mode.IsNamedBy mode text) Settings.mode
      (fun mode settings => { settings with mode }) where
  apply_eq_ok_iff text before after := by
    simp only [mode, ← Mode.parse?_eq_some_iff]
    cases Mode.parse? text <;> simp [eq_comm]
  get_set _ _ := rfl

theorem writes_ofNumber {get : Settings → Nat}
    (hget : ∀ n settings, get (setCount n settings) = n) (name : String) :
    (ofNumber name setCount).Writes IsCount get setCount where
  apply_eq_ok_iff text before after := by
    simp only [ofNumber, IsCount, ← Text.readNumber_eq_ok_iff]
    cases Text.readNumber (Text.trim text.toList) <;> simp [eq_comm]
  get_set := hget

theorem writes_ofText (read : String → α) (set : α → Settings → Settings)
    (hread : ∀ text settings, setText text settings = set (read text) settings)
    (hget : ∀ value settings, get (set value settings) = value) (name : String) :
    (ofText name setText).Writes (fun text value => value = read text) get set where
  apply_eq_ok_iff text before after := by simp [ofText, hread, eq_comm]
  get_set := hget

@[simp]
theorem keeps_mode (h : ∀ mode settings, get { settings with mode } = get settings) :
    mode.Keeps get := by
  intro text before after happly
  obtain ⟨value, -, rfl⟩ := (writes_mode.apply_eq_ok_iff text before after).mp happly
  exact h value before

@[simp]
theorem keeps_ofNumber (h : ∀ n settings, get (setCount n settings) = get settings)
    (name : String) : (ofNumber name setCount).Keeps get := by
  intro text before after happly
  simp only [ofNumber] at happly
  split at happly
  · obtain rfl := Except.ok.inj happly
    exact h _ before
  · cases happly

@[simp]
theorem keeps_ofText (h : ∀ text settings, get (setText text settings) = get settings)
    (name : String) : (ofText name setText).Keeps get := by
  intro text before after happly
  obtain rfl := Except.ok.inj happly
  exact h text before

theorem exists_error_mode :
    (∃ cause, mode.apply text settings = .error cause) ↔
      ∀ mode : Mode, ¬ mode.IsNamedBy text := by
  simp only [mode, ← Mode.parse?_eq_some_iff]
  cases Mode.parse? text <;> simp

theorem exists_error_ofNumber (name : String) :
    (∃ cause, (ofNumber name setCount).apply text settings = .error cause) ↔
      ∀ n, ¬ IsCount text n := by
  simp only [ofNumber, IsCount, ← Text.readNumber_eq_ok_iff]
  cases Text.readNumber (Text.trim text.toList) <;> simp

theorem not_exists_error_ofText (name : String) :
    ¬ ∃ cause, (ofText name setText).apply text settings = .error cause := by
  rintro ⟨cause, h⟩
  cases h

end Variable

end

theorem nodup_names : (Variable.all.map Variable.name).Nodup := by decide

theorem exists_error_iff : ∀ v ∈ Variable.all, ∀ text settings,
    (∃ cause, v.apply text settings = .error cause) ↔ IsInvalid v.name text := by
  simp only [Variable.all, List.forall_mem_cons, Variable.exists_error_mode,
    Variable.exists_error_ofNumber, Variable.not_exists_error_ofText, IsInvalid, countVariables]
  simp [Variable.mode, Variable.ofNumber, Variable.ofText]

theorem map_name_all : Variable.all.map Variable.name = variableOrder := rfl

end CodeNav.Settings
