import CodeNav.Proofs.Json.Scalars

/-! # No control characters in a compact text

The compact text of any value is free of control characters: a string escapes its own, and a
number, be it exact or binary, is written as a numeral.
-/

namespace CodeNav.Json

/-- The text holds no control character, so it holds neither a line feed nor a carriage return. -/
def IsPrinted (text : List Char) : Prop := ∀ c ∈ text, 0x20 ≤ c.toNat

instance (text : List Char) : Decidable (IsPrinted text) :=
  List.decidableBAll (fun c : Char => 0x20 ≤ c.toNat) text

namespace IsPrinted

variable {c : Char} {text rest : List Char}

theorem nil : IsPrinted [] := List.forall_mem_nil _

theorem cons (hc : 0x20 ≤ c.toNat) (h : IsPrinted text) : IsPrinted (c :: text) :=
  List.forall_mem_cons.mpr ⟨hc, h⟩

theorem append (h : IsPrinted text) (hrest : IsPrinted rest) : IsPrinted (text ++ rest) :=
  List.forall_mem_append.mpr ⟨h, hrest⟩

theorem flatMap {write : Char → List Char} (h : ∀ c ∈ text, IsPrinted (write c)) :
    IsPrinted (text.flatMap write) := by
  intro c hc
  obtain ⟨source, hsource, hwritten⟩ := List.mem_flatMap.mp hc
  exact h source hsource c hwritten

theorem not_mem (h : IsPrinted text) (hc : c.toNat < 0x20) : c ∉ text := by
  intro hmem
  exact absurd (h c hmem) (Nat.not_le.mpr hc)

end IsPrinted

def IsNumeral (text : List Char) : Prop := ∀ c ∈ text, Token.isNumeralChar c = true

instance (text : List Char) : Decidable (IsNumeral text) :=
  List.decidableBAll (fun c => Token.isNumeralChar c = true) text

theorem isPrinted_of_isNumeral {text : List Char} (h : IsNumeral text) : IsPrinted text := by
  intro c hc
  have hchar := h c hc
  simp only [Token.isNumeralChar, Bool.or_eq_true, beq_iff_eq, Char.isDigit, Bool.and_eq_true,
    decide_eq_true_eq] at hchar
  rcases hchar with ((((⟨hleast, -⟩ | rfl) | rfl) | rfl) | rfl) | rfl
  · have hzero : 48 ≤ c.toNat := hleast
    omega
  all_goals decide

theorem isNumeral_integerText (negative : Bool) (n : Nat) :
    IsNumeral (Numeral.integerText negative n) := fun _ => Numeral.isNumeralChar_of_mem

theorem isNumeral_toDigits (n : Nat) : IsNumeral (Nat.toDigits 10 n) :=
  isNumeral_integerText false n

theorem isNumeral_zeros (n : Nat) : IsNumeral (List.replicate n '0') := by
  intro c hc
  rw [List.eq_of_mem_replicate hc]
  rfl

theorem isNumeral_toString (n : Int) : IsNumeral (toString n).toList := by
  obtain ⟨negative, m, htext, -⟩ := Numeral.exists_integerText n
  rw [htext]
  exact isNumeral_integerText negative m

namespace IsNumeral

variable {c : Char} {text rest : List Char}

theorem cons (hc : Token.isNumeralChar c = true) (h : IsNumeral text) : IsNumeral (c :: text) :=
  List.forall_mem_cons.mpr ⟨hc, h⟩

theorem append (h : IsNumeral text) (hrest : IsNumeral rest) : IsNumeral (text ++ rest) :=
  List.forall_mem_append.mpr ⟨h, hrest⟩

theorem take (h : IsNumeral text) (n : Nat) : IsNumeral (text.take n) := fun c hc =>
  h c (List.mem_of_mem_take hc)

theorem drop (h : IsNumeral text) (n : Nat) : IsNumeral (text.drop n) := fun c hc =>
  h c (List.mem_of_mem_drop hc)

end IsNumeral

theorem isNumeral_write (layout : Decimal.Layout) (s : Decimal.Scientific) :
    IsNumeral (layout.write s) := by
  have hdigits := isNumeral_toDigits s.digits
  simp only [Decimal.Layout.write]
  split
  · exact (hdigits.append (isNumeral_zeros _)).append (by decide)
  · split
    · exact (hdigits.take _).append (.cons rfl (hdigits.drop _))
    · split
      · exact .cons rfl (.cons rfl ((isNumeral_zeros _).append hdigits))
      · refine .append ?_ (.cons rfl (isNumeral_toString _))
        split
        · next d hd => rwa [hd] at hdigits
        · next d rest hne hd =>
          rw [hd] at hdigits
          obtain ⟨hfirst, hrest⟩ := List.forall_mem_cons.mp hdigits
          exact .cons hfirst (.cons rfl hrest)
        · next hd => exact List.forall_mem_nil _

theorem isNumeral_writeBinary (layout : Decimal.Layout) (x : Binary64) :
    IsNumeral (layout.writeBinary x) := by
  simp only [Decimal.Layout.writeBinary]
  have hsign : IsNumeral (if x.isNegative then ['-'] else []) := by
    split <;> decide
  split
  · exact hsign.append (by decide)
  · exact hsign.append (isNumeral_write layout _)

theorem isPrinted_written (n : Number) : IsPrinted n.written := by
  cases n with
  | integer n exact => exact isPrinted_of_isNumeral (isNumeral_toString n)
  | binary x =>
    rw [Number.written]
    split
    · exact isPrinted_of_isNumeral (isNumeral_writeBinary numberLayout x)
    · decide

theorem isPrinted_hexDigitOf :
    ∀ n < 0x20, IsPrinted [hexDigitOf (n / 16), hexDigitOf (n % 16)] := by
  decide

theorem isPrinted_escape (c : Char) : IsPrinted (escape c) := by
  unfold escape
  split
  · decide
  · decide
  · decide
  · decide
  · decide
  · decide
  · decide
  · split
    · next h =>
      have hprefix : IsPrinted ['\\', 'u', '0', '0'] := by decide
      exact hprefix.append (isPrinted_hexDigitOf _ h)
    · next h => exact .cons (Nat.not_lt.mp h) .nil

theorem isPrinted_quoted (s : String) : IsPrinted (quoted s) := by
  refine .cons (by decide) (.append ?_ (by decide))
  exact .flatMap fun c _ => isPrinted_escape c

mutual

theorem isPrinted_compact (json : Json) : IsPrinted json.compact := by
  cases json with
  | null => decide
  | bool b => cases b <;> decide
  | number n => exact isPrinted_written n
  | string s => exact isPrinted_quoted s
  | array items => exact .cons (by decide) (isPrinted_compactItems items)
  | object members => exact .cons (by decide) (isPrinted_compactMembers members)

theorem isPrinted_compactItems (items : List Json) : IsPrinted (compactItems items) := by
  match items with
  | [] => decide
  | [item] => exact (isPrinted_compact item).append (by decide)
  | item :: next :: items =>
    refine (isPrinted_compact item).append ?_
    exact .cons (by decide) (isPrinted_compactItems (next :: items))

theorem isPrinted_compactMembers (members : List (String × Json)) :
    IsPrinted (compactMembers members) := by
  match members with
  | [] => decide
  | [(name, value)] =>
    refine (isPrinted_quoted name).append (.cons (by decide) ?_)
    exact (isPrinted_compact value).append (by decide)
  | (name, value) :: next :: members =>
    refine (isPrinted_quoted name).append (.cons (by decide) ((isPrinted_compact value).append ?_))
    exact .cons (by decide) (isPrinted_compactMembers (next :: members))

end

end CodeNav.Json
