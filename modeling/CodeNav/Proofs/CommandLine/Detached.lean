import Mathlib.Data.List.TakeWhile
import CodeNav.CommandLine.Reader

/-! # Options with detached values

An option and its value can be two arguments. They are read as one unless the value looks like an
option itself: then no command line with it is carried out.
-/

namespace CodeNav.CommandLine

variable {grammar : Grammar} {parameter : Parameter} {reader settled : Reader} {value : String}
  {options : List (Parameter × String)}

/-- A text that is no option where it stands apart: it has no dash in front, or is one. -/
def IsDetachable (value : String) : Prop := value.toList.head? ≠ some '-' ∨ value.toList = ['-']

instance : DecidablePred IsDetachable := fun _ => inferInstanceAs (Decidable (_ ∨ _))

theorem isDetachable_of_toList {c : Char} {rest : List Char} (h : value.toList = c :: rest)
    (hc : c ≠ '-') : IsDetachable value :=
  .inl (by simpa [h] using hc)

/-- Options with their values, each an argument of its own. -/
def detached (options : List (Parameter × String)) : List String :=
  options.flatMap fun (parameter, value) => ["--" ++ parameter.name, value]

/-- The grammar has the option under its name, and it takes a value. -/
structure Grammar.Declares (grammar : Grammar) (parameter : Parameter) : Prop where
  long? : grammar.long? parameter.name.toList = some parameter
  name_ne_nil : parameter.name.toList ≠ []
  equals_notMem : '=' ∉ parameter.name.toList
  takesValue : Reader.takesValue parameter = true

def Parameter.Accepts (parameter : Parameter) (value : String) : Prop :=
  ∃ kind, parameter.action = .set kind ∧ kind.check value = .ok ()

namespace Reader

def readAll (grammar : Grammar) (reader : Reader) (arguments : List String) :
    Except UsageError Reader := do
  let (reader, _) ← Reader.arguments grammar reader arguments
  reader.resolve

def waiting (reader : Reader) (parameter : Parameter) (value? : Option String) : Reader :=
  { reader with pending? := some (parameter, value?) }

def having (reader : Reader) (values : List (String × String)) : Reader :=
  { reader with matched.values := reader.matched.values ++ values }

theorem having_nil (reader : Reader) : reader.having [] = reader := by simp [having]

theorem having_having (reader : Reader) (values more : List (String × String)) :
    (reader.having values).having more = reader.having (values ++ more) := by
  simp [having]

theorem has_having (reader : Reader) (name other value : String) :
    (reader.having [(name, value)]).matched.has other =
      (reader.matched.has other || other == name) := by
  simp only [having, Matched.has, Matched.value?, List.lookup_append, List.lookup_cons,
    List.lookup_nil]
  cases reader.matched.values.lookup other <;> cases other == name <;> rfl

theorem readAll_nil : reader.readAll grammar [] = reader.resolve := rfl

theorem readAll_cons (hcommands : grammar.commands = []) (argument : String) (rest : List String) :
    reader.readAll grammar (argument :: rest) =
      (reader.argument grammar argument).bind fun next => next.readAll grammar rest := by
  have hname : reader.namesCommand grammar argument = false := by
    simp [namesCommand, hcommands]
  simp only [readAll, Reader.arguments, hname, Bool.false_eq_true, if_false]
  cases reader.argument grammar argument <;> rfl

theorem resolve_eq_ok (h : reader.resolve = .ok settled) :
    settled.pending? = none ∧ settled.onlyOperands = reader.onlyOperands ∧
      settled.operands = reader.operands := by
  unfold resolve at h
  split at h
  · next hnone =>
    obtain rfl : reader = settled := Except.ok.inj h
    exact ⟨hnone, rfl, rfl⟩
  · next parameter value? _ =>
    cases htake : reader.matched.take parameter value? with
    | error cause => simp [htake, bind, Except.bind] at h
    | ok matched =>
      simp only [htake, bind, Except.bind, pure, Except.pure, Except.ok.injEq] at h
      subst h
      exact ⟨rfl, rfl, rfl⟩

theorem resolve_awaiting (htakes : takesValue parameter = true)
    (h : reader.pending? = some (parameter, none)) : reader.resolve = .error .invalidValue := by
  unfold takesValue at htakes
  simp only [resolve, h, Matched.take]
  split at htakes
  · next haction => simp only [haction, bind, Except.bind]
  · cases htakes

theorem resolve_waiting (hpending : reader.pending? = none) (haccepts : parameter.Accepts value)
    (hfresh : reader.matched.has parameter.name = false) :
    (reader.waiting parameter (some value)).resolve =
      .ok (reader.having [(parameter.name, value)]) := by
  obtain ⟨kind, haction, hcheck⟩ := haccepts
  simp [waiting, having, resolve, Matched.take, haction, hfresh, hcheck, hpending, bind,
    Except.bind, pure, Except.pure]

theorem argument_option (h : grammar.Declares parameter) (hopen : reader.onlyOperands = false) :
    reader.argument grammar ("--" ++ parameter.name) = reader.await parameter none := by
  obtain ⟨hlong, hne, hequals, htakes⟩ := h
  have hall : ∀ c ∈ parameter.name.toList, decide (c ≠ '=') = true := by
    intro c hc
    have hne : c ≠ '=' := fun heq => hequals (heq ▸ hc)
    simpa using hne
  have htake : parameter.name.toList.takeWhile (· ≠ '=') = parameter.name.toList :=
    List.takeWhile_eq_self_iff.mpr hall
  have hdrop : parameter.name.toList.dropWhile (· ≠ '=') = [] :=
    List.dropWhile_eq_nil_iff.mpr hall
  obtain ⟨c, rest, hname⟩ := List.exists_cons_of_ne_nil hne
  have hlist : ("--" ++ parameter.name).toList = '-' :: '-' :: c :: rest := by
    simp [String.toList_append, hname]
  rw [hname] at htake hdrop hlong
  simp only [argument, hopen, Bool.false_eq_true, if_false, hlist, long, htake, hdrop, hlong,
    List.tail?_nil, Option.map_none, htakes, if_true]

theorem argument_value (hvalue : IsDetachable value) (hopen : reader.onlyOperands = false) :
    (reader.waiting parameter none).argument grammar value =
      .ok (reader.waiting parameter (some value)) := by
  have hawaiting : (reader.waiting parameter none).awaiting? = some parameter := rfl
  have hwaiting : (reader.waiting parameter none).onlyOperands = false := hopen
  simp only [argument, hwaiting, Bool.false_eq_true, if_false, hawaiting]
  rcases hvalue with hhead | hdash
  · cases hlist : value.toList with
    | nil => simp [waiting, hopen]
    | cons c rest =>
      have hc : c ≠ '-' := by simpa [hlist] using hhead
      split <;> simp_all [waiting]
  · simp [hdash, waiting, hopen]

section

variable {cause : UsageError}

theorem take_error (h : reader.resolve = .error cause) (value? : Option String) :
    reader.take parameter value? = .error cause := by
  simp only [take, h, bind, Except.bind]

theorem await_error (h : reader.resolve = .error cause) (value? : Option String) :
    reader.await parameter value? = .error cause := by
  simp only [await, h, bind, Except.bind]

theorem letters_error (h : reader.resolve = .error cause) (c : Char) (rest : List Char) :
    ∃ cause', letters grammar reader (c :: rest) = .error cause' := by
  unfold letters
  split
  · exact ⟨_, rfl⟩
  · split
    · split
      · exact ⟨cause, await_error h _⟩
      · exact ⟨cause, take_error h _⟩
      · exact ⟨cause, take_error h _⟩
    · rw [take_error h]
      exact ⟨cause, rfl⟩

theorem long_error (h : reader.resolve = .error cause) (body : List Char) :
    ∃ cause', reader.long grammar body = .error cause' := by
  simp only [long]
  split
  · exact ⟨_, rfl⟩
  · split
    · split
      · exact ⟨cause, take_error h _⟩
      · exact ⟨cause, await_error h _⟩
    · split
      · exact ⟨_, rfl⟩
      · exact ⟨cause, take_error h _⟩

/-- In the place of a value, a text that looks like an option is an error, or ends the options. -/
theorem argument_not_detachable (grammar : Grammar) (hvalue : ¬ IsDetachable value)
    (hopen : reader.onlyOperands = false) (h : reader.resolve = .error cause) :
    reader.argument grammar value = .ok { reader with onlyOperands := true } ∨
      ∃ cause', reader.argument grammar value = .error cause' := by
  obtain ⟨hhead, hdash⟩ := not_or.mp hvalue
  cases hlist : value.toList with
  | nil => simp [hlist] at hhead
  | cons c rest =>
    obtain rfl : c = '-' := by simpa [hlist] using hhead
    cases rest with
    | nil => exact absurd hlist hdash
    | cons d body =>
      by_cases hd : d = '-'
      · subst hd
        cases body with
        | nil => exact .inl (by simp [argument, hopen, hlist])
        | cons e body =>
          have hlong : reader.argument grammar value = reader.long grammar (e :: body) := by
            simp [argument, hopen, hlist]
          exact .inr (hlong ▸ long_error h _)
      · have hletters :
            reader.argument grammar value = letters grammar reader (d :: body) := by
          simp [argument, hopen, hlist, hd]
        exact .inr (hletters ▸ letters_error h _ _)

/-- Where no operand is left, nothing is read after the end of the options. -/
theorem readAll_onlyOperands (reader : Reader) (hcommands : grammar.commands = [])
    (hopen : reader.onlyOperands = true) (hoperands : reader.operands = [])
    (h : reader.resolve = .error cause) (arguments : List String) :
    ∃ cause', reader.readAll grammar arguments = .error cause' := by
  cases arguments with
  | nil => exact ⟨cause, h⟩
  | cons first rest =>
    rw [readAll_cons hcommands, argument, hopen, if_pos rfl, operand, hoperands]
    simp [hcommands, Except.bind]

end

theorem detached_cons (parameter : Parameter) (value : String)
    (options : List (Parameter × String)) :
    detached ((parameter, value) :: options) =
      ("--" ++ parameter.name) :: value :: detached options := rfl

theorem argument_option_of_resolve (h : grammar.Declares parameter)
    (hopen : reader.onlyOperands = false) (hresolve : reader.resolve = .ok settled) :
    reader.argument grammar ("--" ++ parameter.name) = .ok (settled.waiting parameter none) := by
  rw [argument_option h hopen]
  simp only [await, hresolve, bind, Except.bind, pure, Except.pure]
  rfl

/-- Detached options are read as they are, if each of them may take its value. -/
theorem readAll_detached (hcommands : grammar.commands = [])
    (hdeclares : ∀ option ∈ options, grammar.Declares option.1)
    (haccepts : ∀ option ∈ options, option.1.Accepts option.2)
    (hvalues : ∀ option ∈ options, IsDetachable option.2)
    (hnodup : (options.map (·.1.name)).Nodup) (hopen : reader.onlyOperands = false)
    (hresolve : reader.resolve = .ok settled)
    (hfresh : ∀ option ∈ options, settled.matched.has option.1.name = false) :
    reader.readAll grammar (detached options) =
      .ok (settled.having (options.map fun option => (option.1.name, option.2))) := by
  induction options generalizing reader settled with
  | nil => simp [detached, readAll_nil, hresolve, having_nil]
  | cons option options ih =>
    obtain ⟨parameter, value⟩ := option
    simp only [List.forall_mem_cons] at hdeclares haccepts hvalues hfresh
    simp only [List.map_cons, List.nodup_cons, List.mem_map, not_exists, not_and] at hnodup
    obtain ⟨hpending, hsettled, -⟩ := resolve_eq_ok hresolve
    have hopen' : (settled.waiting parameter (some value)).onlyOperands = false :=
      hsettled.trans hopen
    -- The value stays pending until the next option, or the end, settles it.
    rw [detached_cons, readAll_cons hcommands,
      argument_option_of_resolve hdeclares.1 hopen hresolve, Except.bind, readAll_cons hcommands,
      argument_value hvalues.1 (hsettled.trans hopen), Except.bind,
      ih hdeclares.2 haccepts.2 hvalues.2 hnodup.2 hopen'
        (resolve_waiting hpending haccepts.1 hfresh.1) ?_, having_having]
    · rfl
    · intro option hoption
      rw [has_having, hfresh.2 option hoption, Bool.false_or]
      exact beq_eq_false_iff_ne.mpr (hnodup.1 option hoption)

theorem readAll_detached_error (hcommands : grammar.commands = [])
    (hdeclares : ∀ option ∈ options, grammar.Declares option.1)
    (hvalue : ∃ option ∈ options, ¬ IsDetachable option.2) (hopen : reader.onlyOperands = false)
    (hoperands : reader.operands = []) :
    ∃ cause, reader.readAll grammar (detached options) = .error cause := by
  induction options generalizing reader with
  | nil => simp at hvalue
  | cons option options ih =>
    obtain ⟨parameter, value⟩ := option
    simp only [List.forall_mem_cons] at hdeclares
    rw [detached_cons, readAll_cons hcommands]
    cases hresolve : reader.resolve with
    | error cause =>
      rw [argument_option hdeclares.1 hopen, await_error hresolve]
      exact ⟨cause, rfl⟩
    | ok settled =>
      obtain ⟨-, hsettled, hleft⟩ := resolve_eq_ok hresolve
      have hopen' : settled.onlyOperands = false := hsettled.trans hopen
      have hoperands' : settled.operands = [] := hleft.trans hoperands
      rw [argument_option_of_resolve hdeclares.1 hopen hresolve, Except.bind,
        readAll_cons hcommands]
      by_cases hdetachable : IsDetachable value
      · rw [argument_value hdetachable hopen', Except.bind]
        exact ih hdeclares.2 (by simpa [hdetachable] using hvalue) hopen' hoperands'
      · -- The option before still waits for its value, which never comes.
        have hwaiting : (settled.waiting parameter none).resolve = .error .invalidValue :=
          resolve_awaiting hdeclares.1.takesValue rfl
        have hopen'' : (settled.waiting parameter none).onlyOperands = false := hopen'
        rcases argument_not_detachable grammar hdetachable hopen'' hwaiting with
          hend | ⟨cause, herror⟩
        · rw [hend, Except.bind]
          exact readAll_onlyOperands { settled.waiting parameter none with onlyOperands := true }
            hcommands rfl hoperands' (resolve_awaiting hdeclares.1.takesValue rfl) _
        · rw [herror]
          exact ⟨cause, rfl⟩

end Reader

end CodeNav.CommandLine
