import CodeNav.Proofs.Settings.Variables

/-! # What an environment does to settings

The variables are taken in a fixed order, and what one of them refuses does not depend on the
settings. So the environment decides all: either no value in it is invalid, and every setting has
the value of its variable, or the first invalid one ends the work after the ones before it.
-/

namespace CodeNav

def Environment.only (environment : Environment) (names : List String) : Environment :=
  environment.filter fun entry => decide (entry.1 ∈ names)

theorem Environment.lookup_only (environment : Environment) (names : List String) (name : String) :
    (environment.only names).lookup name =
      if name ∈ names then environment.lookup name else none := by
  induction environment with
  | nil => simp [only]
  | cons entry environment ih =>
    obtain ⟨other, text⟩ := entry
    rw [only] at ih
    by_cases hname : name = other
    · subst hname
      by_cases hmem : name ∈ names
      · simp [only, hmem]
      · simp only [only, List.filter_cons, hmem, decide_false, Bool.false_eq_true, if_false, ih]
    · have hbeq : (name == other) = false := by simpa using hname
      rw [only, List.filter_cons, List.lookup_cons, hbeq]
      by_cases hmem : other ∈ names
      · simp only [hmem, decide_true, if_true, List.lookup_cons, hbeq, ih]
      · simp only [hmem, decide_false, Bool.false_eq_true, if_false, ih]

namespace Settings

variable {environment : Environment} {settings before after : Settings} {v : Variable}
  {earlier later list : List Variable} {name text : String} {cause : ValueError}

/-- A setting after its variable: what the text of the variable says, or what it was before if the
variable is not set. -/
def IsTaken {α : Type} (environment : Environment) (name : String) (Says : String → α → Prop)
    (before after : α) : Prop :=
  match environment.lookup name with
  | none => after = before
  | some text => Says text after

/-- Every setting is what its variable says, if that is set, and otherwise what it was. -/
structure IsOverridden (environment : Environment) (before after : Settings) : Prop where
  mode : IsTaken environment "FASTNAV_MODE" (fun text mode => mode.IsNamedBy text)
    before.mode after.mode
  timeoutSeconds : IsTaken environment "FASTNAV_TIMEOUT_SECS" IsCount
    before.timeoutSeconds after.timeoutSeconds
  maxResults : IsTaken environment "FASTNAV_MAX_RESULTS" IsCount before.maxResults after.maxResults
  cacheTtlSeconds : IsTaken environment "FASTNAV_CACHE_TTL_SECS" IsCount
    before.cacheTtlSeconds after.cacheTtlSeconds
  connectTimeoutSeconds : IsTaken environment "FASTNAV_CONNECT_TIMEOUT_SECS" IsCount
    before.connectTimeoutSeconds after.connectTimeoutSeconds
  branch : IsTaken environment "FASTNAV_BRANCH" (fun text value => value = text)
    before.branch after.branch
  fileExtension : IsTaken environment "FASTNAV_FILE_EXTENSION" (fun text value => value = some text)
    before.fileExtension? after.fileExtension?
  endpoint : IsTaken environment "FASTNAV_ENDPOINT" (fun text value => value = some text)
    before.endpoint? after.endpoint?
  token : IsTaken environment "FASTNAV_PAT" (fun text value => value = some text)
    before.token? after.token?
  executable : IsTaken environment "FASTNAV_CLIENT_EXECUTABLE" (fun text value => value = some text)
    before.executable? after.executable?

theorem overrideBy_of_lookup_none (hlookup : environment.lookup v.name = none) :
    overrideBy environment settings (v :: list) = overrideBy environment settings list := by
  simp only [overrideBy, hlookup]

theorem overrideBy_of_ok (hlookup : environment.lookup v.name = some text)
    (happly : v.apply text settings = .ok after) :
    overrideBy environment settings (v :: list) = overrideBy environment after list := by
  simp only [overrideBy, hlookup, happly]

theorem overrideBy_of_error (hlookup : environment.lookup v.name = some text)
    (happly : v.apply text settings = .error cause) :
    overrideBy environment settings (v :: list) = ⟨settings, some ⟨v.name, text, cause⟩⟩ := by
  simp only [overrideBy, hlookup, happly]

theorem step_cases (environment : Environment) (settings : Settings) (v : Variable) :
    (∃ next, (∀ list, overrideBy environment settings (v :: list) =
        overrideBy environment next list) ∧
      (environment.lookup v.name = none ∧ next = settings ∨
        ∃ text, environment.lookup v.name = some text ∧ v.apply text settings = .ok next)) ∨
    ∃ text cause, environment.lookup v.name = some text ∧ v.apply text settings = .error cause ∧
      ∀ list, overrideBy environment settings (v :: list) =
        ⟨settings, some ⟨v.name, text, cause⟩⟩ := by
  cases hlookup : environment.lookup v.name with
  | none => exact .inl ⟨settings, fun _ => overrideBy_of_lookup_none hlookup, .inl ⟨rfl, rfl⟩⟩
  | some text =>
    cases happly : v.apply text settings with
    | error cause =>
      exact .inr ⟨text, cause, rfl, happly, fun _ => overrideBy_of_error hlookup happly⟩
    | ok next =>
      exact .inl ⟨next, fun _ => overrideBy_of_ok hlookup happly, .inr ⟨text, rfl, happly⟩⟩

theorem exists_next (h : (overrideBy environment settings (v :: list)).error? = none) :
    ∃ next, overrideBy environment settings (v :: list) = overrideBy environment next list ∧
      (environment.lookup v.name = none ∧ next = settings ∨
        ∃ text, environment.lookup v.name = some text ∧ v.apply text settings = .ok next) := by
  rcases step_cases environment settings v with ⟨next, heq, hnext⟩ | ⟨text, cause, -, -, heq⟩
  · exact ⟨next, heq list, hnext⟩
  · rw [heq] at h
    cases h

section

variable {α : Type} {Says : String → α → Prop} {get : Settings → α} {set : α → Settings → Settings}

theorem get_settings_eq (hkeeps : ∀ v ∈ list, v.Keeps get)
    (h : (overrideBy environment settings list).error? = none) :
    get (overrideBy environment settings list).settings = get settings := by
  induction list generalizing settings with
  | nil => rfl
  | cons v list ih =>
    obtain ⟨next, heq, hnext⟩ := exists_next h
    rw [heq] at h ⊢
    rw [ih (fun w hw => hkeeps w (List.mem_cons_of_mem _ hw)) h]
    obtain ⟨-, rfl⟩ | ⟨text, -, happly⟩ := hnext
    · rfl
    · exact hkeeps v List.mem_cons_self text settings next happly

theorem isTaken_of_mem (hv : v.Writes Says get set) (hmem : v ∈ list)
    (hnodup : (list.map Variable.name).Nodup)
    (hkeeps : ∀ w ∈ list, w.name ≠ v.name → w.Keeps get)
    (h : (overrideBy environment settings list).error? = none) :
    IsTaken environment v.name Says (get settings)
      (get (overrideBy environment settings list).settings) := by
  induction list generalizing settings with
  | nil => cases hmem
  | cons w list ih =>
    rw [List.map_cons, List.nodup_cons] at hnodup
    obtain ⟨next, heq, hnext⟩ := exists_next h
    rw [heq] at h ⊢
    rcases List.mem_cons.mp hmem with rfl | hmem
    · -- the variables after this one have other names
      have hlater : ∀ w ∈ list, w.Keeps get := fun w hw =>
        hkeeps w (List.mem_cons_of_mem _ hw) fun hname =>
          hnodup.1 (hname ▸ List.mem_map_of_mem hw)
      rw [get_settings_eq hlater h]
      obtain ⟨hlookup, rfl⟩ | ⟨text, hlookup, happly⟩ := hnext
      · simp only [IsTaken, hlookup]
      · obtain ⟨value, htext, rfl⟩ := (hv.apply_eq_ok_iff text settings next).mp happly
        simpa only [IsTaken, hlookup, hv.get_set] using htext
    · have hname : w.name ≠ v.name := fun hname =>
        hnodup.1 (hname ▸ List.mem_map_of_mem hmem)
      have hnext : get next = get settings := by
        obtain ⟨-, rfl⟩ | ⟨text, -, happly⟩ := hnext
        · rfl
        · exact hkeeps w List.mem_cons_self hname text settings next happly
      rw [← hnext]
      exact ih hmem hnodup.2 (fun w hw => hkeeps w (List.mem_cons_of_mem _ hw)) h

theorem isTaken_getElem (i : Nat) (hi : i < Variable.all.length)
    (hv : Variable.all[i].Writes Says get set)
    (hkeeps : ∀ w ∈ Variable.all, w.name ≠ Variable.all[i].name → w.Keeps get)
    (h : (settings.override environment).error? = none) :
    IsTaken environment Variable.all[i].name Says (get settings)
      (get (settings.override environment).settings) :=
  isTaken_of_mem hv (List.getElem_mem _) nodup_names hkeeps h

end

theorem isOverridden_of_error?_eq_none (h : (settings.override environment).error? = none) :
    IsOverridden environment settings (settings.override environment).settings where
  mode := isTaken_getElem 0 (by decide) Variable.writes_mode (by simp [Variable.all]) h
  timeoutSeconds := isTaken_getElem 1 (by decide)
    (Variable.writes_ofNumber (fun _ _ => rfl) _) (by simp [Variable.all]) h
  maxResults := isTaken_getElem 2 (by decide)
    (Variable.writes_ofNumber (fun _ _ => rfl) _) (by simp [Variable.all]) h
  cacheTtlSeconds := isTaken_getElem 3 (by decide)
    (Variable.writes_ofNumber (fun _ _ => rfl) _) (by simp [Variable.all]) h
  connectTimeoutSeconds := isTaken_getElem 4 (by decide)
    (Variable.writes_ofNumber (fun _ _ => rfl) _) (by simp [Variable.all]) h
  branch := isTaken_getElem 5 (by decide)
    (Variable.writes_ofText id (fun branch settings => { settings with branch })
      (fun _ _ => rfl) (fun _ _ => rfl) _) (by simp [Variable.all]) h
  fileExtension := isTaken_getElem 6 (by decide)
    (Variable.writes_ofText some (fun fileExtension? settings => { settings with fileExtension? })
      (fun _ _ => rfl) (fun _ _ => rfl) _) (by simp [Variable.all]) h
  endpoint := isTaken_getElem 7 (by decide)
    (Variable.writes_ofText some (fun endpoint? settings => { settings with endpoint? })
      (fun _ _ => rfl) (fun _ _ => rfl) _) (by simp [Variable.all]) h
  token := isTaken_getElem 8 (by decide)
    (Variable.writes_ofText some (fun token? settings => { settings with token? })
      (fun _ _ => rfl) (fun _ _ => rfl) _) (by simp [Variable.all]) h
  executable := isTaken_getElem 9 (by decide)
    (Variable.writes_ofText some (fun executable? settings => { settings with executable? })
      (fun _ _ => rfl) (fun _ _ => rfl) _) (by simp [Variable.all]) h

theorem IsTaken.again {α : Type} {Says : String → α → Prop} {first second third : α}
    (hunique : ∀ text a b, Says text a → Says text b → a = b)
    (h : IsTaken environment name Says first second)
    (h' : IsTaken environment name Says second third) : third = second := by
  rw [IsTaken] at h h'
  cases hlookup : environment.lookup name with
  | none => simpa only [hlookup] using h'
  | some text =>
    rw [hlookup] at h h'
    exact hunique text third second h' h

/-- Settings that have been overridden once stay as they are. -/
theorem IsOverridden.again (h : IsOverridden environment settings before)
    (h' : IsOverridden environment before after) : after = before := by
  have hmode : ∀ text (a b : Mode), a.IsNamedBy text → b.IsNamedBy text → a = b :=
    fun _ _ _ ha hb => ha.unique hb
  have hcount : ∀ text m n, IsCount text m → IsCount text n → m = n :=
    fun _ _ _ hm hn => hm.unique hn
  have htext : ∀ text a b : String, a = text → b = text → a = b :=
    fun _ _ _ ha hb => ha.trans hb.symm
  have hsome : ∀ (text : String) (a b : Option String), a = some text → b = some text → a = b :=
    fun _ _ _ ha hb => ha.trans hb.symm
  cases before
  cases after
  rw [Settings.mk.injEq]
  exact ⟨h.mode.again hmode h'.mode, h.timeoutSeconds.again hcount h'.timeoutSeconds,
    h.maxResults.again hcount h'.maxResults, h.cacheTtlSeconds.again hcount h'.cacheTtlSeconds,
    h.connectTimeoutSeconds.again hcount h'.connectTimeoutSeconds, h.branch.again htext h'.branch,
    h.fileExtension.again hsome h'.fileExtension, h.endpoint.again hsome h'.endpoint,
    h.token.again hsome h'.token, h.executable.again hsome h'.executable⟩

/-- A run ends without an error, or at the first variable that refuses its text. -/
theorem overrideBy_cases (environment : Environment) (settings : Settings)
    (list : List Variable) :
    (overrideBy environment settings list).error? = none ∨
      ∃ earlier v later text cause reached, list = earlier ++ v :: later ∧
        overrideBy environment settings earlier = { settings := reached } ∧
          environment.lookup v.name = some text ∧ v.apply text reached = .error cause ∧
            overrideBy environment settings list = ⟨reached, some ⟨v.name, text, cause⟩⟩ := by
  induction list generalizing settings with
  | nil => exact .inl rfl
  | cons v list ih =>
    rcases step_cases environment settings v with
      ⟨next, hstep, -⟩ | ⟨text, cause, hlookup, happly, hstep⟩
    · rw [hstep]
      rcases ih next with hnone | ⟨earlier, w, later, text, cause, reached, rfl, hrun, hrest⟩
      · exact .inl hnone
      · exact .inr ⟨v :: earlier, w, later, text, cause, reached, rfl, (hstep _).trans hrun, hrest⟩
    · exact .inr ⟨[], v, list, text, cause, settings, rfl, rfl, hlookup, happly, hstep list⟩

/-- An error comes up exactly if some variable is set to what it refuses. -/
theorem error?_eq_none_iff (hlist : ∀ v ∈ list, v ∈ Variable.all) :
    (overrideBy environment settings list).error? = none ↔
      ∀ v ∈ list, ∀ text, environment.lookup v.name = some text → ¬ IsInvalid v.name text := by
  induction list generalizing settings with
  | nil => simp [overrideBy]
  | cons v list ih =>
    rw [List.forall_mem_cons] at hlist ⊢
    have hinvalid := exists_error_iff v hlist.1
    rcases step_cases environment settings v with
      ⟨next, hstep, hnext⟩ | ⟨text, cause, hlookup, happly, hstep⟩
    · rw [hstep, ih hlist.2, iff_and_self]
      rintro - text hlookup hrefused
      obtain ⟨hnone, -⟩ | ⟨text', hlookup', happly⟩ := hnext
      · rw [hnone] at hlookup
        cases hlookup
      · obtain rfl := Option.some.inj (hlookup.symm.trans hlookup')
        obtain ⟨cause, hcause⟩ := (hinvalid text settings).mpr hrefused
        rw [hcause] at happly
        cases happly
    · rw [hstep]
      refine iff_of_false (by simp) fun h => ?_
      exact h.1 text hlookup ((hinvalid text settings).mp ⟨cause, happly⟩)

theorem overrideBy_append {reached : Settings}
    (h : overrideBy environment settings earlier = { settings := reached }) (list : List Variable) :
    overrideBy environment settings (earlier ++ list) = overrideBy environment reached list := by
  induction earlier generalizing settings with
  | nil =>
    cases h
    rfl
  | cons v earlier ih =>
    rcases step_cases environment settings v with ⟨next, hstep, -⟩ | ⟨text, cause, -, -, hstep⟩
    · rw [hstep] at h
      rw [List.cons_append, hstep, ih h]
    · rw [hstep] at h
      cases h

theorem overrideBy_of_unset (h : ∀ v ∈ list, environment.lookup v.name = none) :
    overrideBy environment settings list = { settings } := by
  induction list with
  | nil => rfl
  | cons v list ih =>
    rw [overrideBy_of_lookup_none (h v List.mem_cons_self)]
    exact ih fun w hw => h w (List.mem_cons_of_mem _ hw)

theorem overrideBy_congr {other : Environment}
    (h : ∀ v ∈ list, other.lookup v.name = environment.lookup v.name) :
    overrideBy other settings list = overrideBy environment settings list := by
  induction list generalizing settings with
  | nil => rfl
  | cons v list ih =>
    have hrest {settings : Settings} : overrideBy other settings list =
        overrideBy environment settings list :=
      ih fun w hw => h w (List.mem_cons_of_mem _ hw)
    simp only [overrideBy, h v List.mem_cons_self, hrest]

theorem override_only {reached : Settings} (hall : Variable.all = earlier ++ later)
    (h : overrideBy environment settings earlier = { settings := reached }) :
    settings.override (environment.only (earlier.map Variable.name)) = { settings := reached } := by
  have hnodup := nodup_names
  rw [hall, List.map_append, List.nodup_append] at hnodup
  have hearlier : ∀ v ∈ earlier, (environment.only (earlier.map Variable.name)).lookup v.name =
      environment.lookup v.name := by
    intro v hv
    rw [Environment.lookup_only, if_pos (List.mem_map_of_mem hv)]
  have hlater : ∀ v ∈ later,
      (environment.only (earlier.map Variable.name)).lookup v.name = none := by
    intro v hv
    rw [Environment.lookup_only, if_neg]
    exact fun hmem => hnodup.2.2 _ hmem _ (List.mem_map_of_mem hv) rfl
  rw [override, hall, overrideBy_append ((overrideBy_congr hearlier).trans h),
    overrideBy_of_unset hlater]

theorem override_again (h : (settings.override environment).error? = none) :
    (settings.override environment).settings.override environment =
      { settings := (settings.override environment).settings } := by
  have herror : ((settings.override environment).settings.override environment).error? = none := by
    rw [override, error?_eq_none_iff fun _ => id] at h ⊢
    exact h
  have hsame := (isOverridden_of_error?_eq_none h).again (isOverridden_of_error?_eq_none herror)
  exact congrArg₂ Overridden.mk hsame herror

def AreValid (environment : Environment) (names : List String) : Prop :=
  ∀ name ∈ names, ∀ text, environment.lookup name = some text → ¬ IsInvalid name text

/-- What becomes of settings in an environment. -/
structure IsExact (environment : Environment) (before : Settings) (result : Overridden) : Prop where
  succeeds : result.error? = none ↔ AreValid environment variableOrder
  overrides : result.error? = none → IsOverridden environment before result.settings
  /-- The first variable with an invalid value is named, the ones before it have been taken, and it
  and the ones after it have not. -/
  fails : ∀ error, result.error? = some error → ∃ earlier later,
    variableOrder = earlier ++ error.name :: later ∧ AreValid environment earlier ∧
      environment.lookup error.name = some error.value ∧ IsInvalid error.name error.value ∧
        IsOverridden (environment.only earlier) before result.settings
  names : ∀ error, result.error? = some error →
    ("Invalid " ++ error.name ++ " '" ++ error.value ++ "'").toList <+:
      error.chain.outermost.toList
  /-- The same environment once more changes nothing. -/
  again : result.settings.override environment = result

theorem VariableError.prefix_outermost (error : VariableError) :
    ("Invalid " ++ error.name ++ " '" ++ error.value ++ "'").toList <+:
      error.chain.outermost.toList := by
  obtain ⟨name, value, cause⟩ := error
  cases cause with
  | notMode =>
    have houtermost : (chain ⟨name, value, .notMode⟩).outermost =
        "Invalid " ++ name ++ " '" ++ value ++ "'" ++
          (" (expected " ++ Mode.name .direct ++ " or " ++ Mode.name .bridged ++ ")") := by
      simp only [chain, ErrorChain.within, String.append_assoc]
    exact ⟨_, by rw [houtermost, ← String.toList_append]⟩
  | notNumber cause =>
    have houtermost : (chain ⟨name, value, .notNumber cause⟩).outermost =
        "Invalid " ++ name ++ " '" ++ value ++ "'" := rfl
    rw [houtermost]

/-- Variables that have been taken once change nothing when they are taken again. -/
theorem overrideBy_again {reached : Settings} (hall : Variable.all = earlier ++ later)
    (h : overrideBy environment settings earlier = { settings := reached }) :
    overrideBy environment reached earlier = { settings := reached } := by
  have hmem : ∀ v ∈ earlier, v ∈ Variable.all := fun v hv => hall ▸ List.mem_append_left later hv
  have herror : (overrideBy environment reached earlier).error? = none := by
    have hfirst : (overrideBy environment settings earlier).error? = none := by rw [h]
    rw [error?_eq_none_iff hmem] at hfirst ⊢
    exact hfirst
  have hrun : overrideBy environment reached earlier =
      { settings := (overrideBy environment reached earlier).settings } :=
    congrArg (Overridden.mk _) herror
  have honly := override_only hall h
  have hsame := override_again (congrArg Overridden.error? honly)
  rw [honly, override_only hall hrun] at hsame
  rw [hrun, congrArg Overridden.settings hsame]

/-- The variables override the settings that they name and no others, once and for all, up to the
first one whose value is invalid. -/
theorem override_isExact (settings : Settings) (environment : Environment) :
    IsExact environment settings (settings.override environment) where
  succeeds := by
    rw [override, error?_eq_none_iff fun _ => id, AreValid, ← map_name_all, List.forall_mem_map]
  overrides := isOverridden_of_error?_eq_none
  fails error herror := by
    rcases overrideBy_cases environment settings Variable.all with
      hnone | ⟨earlier, v, later, text, cause, reached, hall, hrun, hlookup, happly, heq⟩
    · rw [override, hnone] at herror
      cases herror
    · rw [override, heq] at herror ⊢
      obtain rfl := Option.some.inj herror
      have hv : v ∈ Variable.all := by simp [hall]
      have hmem : ∀ w ∈ earlier, w ∈ Variable.all := fun w hw => by simp [hall, hw]
      have honly := override_only hall hrun
      have hoverridden := isOverridden_of_error?_eq_none (congrArg Overridden.error? honly)
      rw [honly] at hoverridden
      refine ⟨earlier.map Variable.name, later.map Variable.name, ?_, ?_, hlookup, ?_, hoverridden⟩
      · rw [← map_name_all, hall, List.map_append, List.map_cons]
      · rw [AreValid, List.forall_mem_map, ← error?_eq_none_iff hmem, hrun]
      · exact (exists_error_iff v hv text reached).mp ⟨cause, happly⟩
  names error _ := error.prefix_outermost
  again := by
    rcases overrideBy_cases environment settings Variable.all with
      hnone | ⟨earlier, v, later, text, cause, reached, hall, hrun, hlookup, happly, heq⟩
    · exact (override_again hnone).trans (congrArg (Overridden.mk _) hnone.symm)
    · have hagain := overrideBy_append (overrideBy_again hall hrun) (v :: later)
      rw [override, override, heq, hall, hagain]
      exact overrideBy_of_error hlookup happly

end Settings

end CodeNav
