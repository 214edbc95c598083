import CodeNav.Json.Document
import CodeNav.Proofs.Json.Scalars

/-! # Documents read back

The text of a value whose numbers are all exact integers is read back as its document: its tokens
one by one, and the document from these.
-/

namespace CodeNav.Json

inductive IsExact : Json → Prop where
  | null : IsExact .null
  | bool (b : Bool) : IsExact (.bool b)
  | integer (n : Int) (exact : ExactInteger n) : IsExact (.number (.integer n exact))
  | string (s : String) : IsExact (.string s)
  | array {items : List Json} (h : ∀ item ∈ items, IsExact item) : IsExact (.array items)
  | object {members : List (String × Json)} (h : ∀ member ∈ members, IsExact member.2) :
      IsExact (.object members)

mutual

def tokens : Json → List Token
  | null => [.null]
  | bool b => [.bool b]
  | number n => [.number (some n)]
  | string s => [.string (some s)]
  | array items => .openBracket :: itemTokens items
  | object members => .openBrace :: memberTokens members

def itemTokens : List Json → List Token
  | [] => [.closeBracket]
  | [item] => item.tokens ++ [.closeBracket]
  | item :: items => item.tokens ++ .comma :: itemTokens items

def memberTokens : List (String × Json) → List Token
  | [] => [.closeBrace]
  | [(name, value)] => .string (some name) :: .colon :: (value.tokens ++ [.closeBrace])
  | (name, value) :: members =>
    .string (some name) :: .colon :: (value.tokens ++ .comma :: memberTokens members)

end

variable {json : Json} {items : List Json} {members : List (String × Json)} {fuel : Nat}
  {text rest : List Char} {token : Token}

theorem IsExact.nil : IsExact (.object []) := .object (List.forall_mem_nil _)

theorem IsExact.cons {name : String} (hvalue : IsExact json)
    (hmembers : IsExact (.object members)) : IsExact (.object ((name, json) :: members)) := by
  cases hmembers with
  | object h => exact .object (List.forall_mem_cons.mpr ⟨hvalue, h⟩)

namespace Token

theorem not_space_of_take? (h : take? text = some (token, rest)) :
    text.dropWhile isSpace = text := by
  cases text with
  | nil => rfl
  | cons c text =>
    have hspace : isSpace c = false := by
      refine Bool.eq_false_iff.mpr fun hc => ?_
      have hchars : ((c = ' ' ∨ c = '\t') ∨ c = '\n') ∨ c = '\r' := by simpa [isSpace] using hc
      rcases hchars with ((rfl | rfl) | rfl) | rfl
      all_goals simp [take?] at h
    simp [hspace]

theorem takeAll?_of_take? (h : take? text = some (token, rest)) (fuel : Nat) :
    takeAll? (fuel + 1) text = (takeAll? fuel rest).map (token :: ·) := by
  rw [takeAll?, not_space_of_take? h]
  cases text with
  | nil => simp [take?] at h
  | cons c text =>
    simp only [h, Option.bind_eq_bind, Option.bind_some]
    cases takeAll? fuel rest <;> rfl

theorem takeAll?_nil (fuel : Nat) : takeAll? fuel [] = some [] := by
  cases fuel <;> rfl

end Token

open Token

/-- However the text of the value goes on, the tokens of the value come first. -/
def IsTokenized (json : Json) : Prop :=
  ∀ rest fuel, EndsNumeral rest →
    takeAll? (fuel + json.tokens.length) (json.compact ++ rest) =
      (takeAll? fuel rest).map (json.tokens ++ ·)

theorem endsNumeral_cons {c : Char} (h : isNumeralChar c = false) (rest : List Char) :
    EndsNumeral (c :: rest) := by
  simpa [EndsNumeral] using h

theorem IsTokenized.takeAll?_append {c : Char} (h : IsTokenized json)
    (hc : isNumeralChar c = false) (htoken : take? (c :: text) = some (token, text)) (fuel : Nat) :
    takeAll? (fuel + 1 + json.tokens.length) (json.compact ++ c :: text) =
      (takeAll? fuel text).map (json.tokens ++ token :: ·) := by
  rw [h _ _ (endsNumeral_cons hc text), takeAll?_of_take? htoken, Option.map_map]
  rfl

theorem takeAll?_items (h : ∀ item ∈ items, IsTokenized item) (rest : List Char) (fuel : Nat) :
    takeAll? (fuel + (itemTokens items).length) (compactItems items ++ rest) =
      (takeAll? fuel rest).map (itemTokens items ++ ·) := by
  induction items with
  | nil => exact takeAll?_of_take? rfl fuel
  | cons item items ih =>
    have hitem := h item List.mem_cons_self
    cases items with
    | nil =>
      have hclose : take? (']' :: rest) = some (.closeBracket, rest) := rfl
      have hread := hitem.takeAll?_append rfl hclose fuel
      simpa [itemTokens, compactItems, Nat.add_assoc, Nat.add_comm 1] using hread
    | cons next items =>
      have hcomma : take? (',' :: (compactItems (next :: items) ++ rest)) =
          some (.comma, compactItems (next :: items) ++ rest) := rfl
      have hread := hitem.takeAll?_append rfl hcomma (fuel + (itemTokens (next :: items)).length)
      rw [ih fun other hother => h other (List.mem_cons_of_mem _ hother), Option.map_map] at hread
      have hlength : fuel + (itemTokens (item :: next :: items)).length =
          fuel + (itemTokens (next :: items)).length + 1 + item.tokens.length := by
        simp [itemTokens]
        omega
      rw [hlength]
      simpa [itemTokens, compactItems, Function.comp_def] using hread

theorem IsTokenized.takeAll?_member {c : Char} (h : IsTokenized json)
    (hc : isNumeralChar c = false) (htoken : take? (c :: text) = some (token, text)) (name : String)
    (fuel : Nat) :
    takeAll? (fuel + 1 + json.tokens.length + 1 + 1)
        (quoted name ++ ':' :: (json.compact ++ c :: text)) =
      (takeAll? fuel text).map (.string (some name) :: .colon :: json.tokens ++ token :: ·) := by
  rw [takeAll?_of_take? (take?_quoted name _), takeAll?_of_take? rfl,
    h.takeAll?_append hc htoken, Option.map_map, Option.map_map]
  rfl

theorem takeAll?_members (h : ∀ member ∈ members, IsTokenized member.2) (rest : List Char)
    (fuel : Nat) :
    takeAll? (fuel + (memberTokens members).length) (compactMembers members ++ rest) =
      (takeAll? fuel rest).map (memberTokens members ++ ·) := by
  induction members with
  | nil => exact takeAll?_of_take? rfl fuel
  | cons member members ih =>
    obtain ⟨name, value⟩ := member
    have hvalue := h (name, value) List.mem_cons_self
    cases members with
    | nil =>
      have hclose : take? ('}' :: rest) = some (.closeBrace, rest) := rfl
      have hread := hvalue.takeAll?_member rfl hclose name fuel
      simpa [memberTokens, compactMembers, Nat.add_assoc, Nat.add_comm 1, Nat.add_left_comm 1]
        using hread
    | cons next members =>
      have hcomma : take? (',' :: (compactMembers (next :: members) ++ rest)) =
          some (.comma, compactMembers (next :: members) ++ rest) := rfl
      have hread := hvalue.takeAll?_member rfl hcomma name
        (fuel + (memberTokens (next :: members)).length)
      rw [ih fun other hother => h other (List.mem_cons_of_mem _ hother), Option.map_map] at hread
      have hlength : fuel + (memberTokens ((name, value) :: next :: members)).length =
          fuel + (memberTokens (next :: members)).length + 1 + value.tokens.length + 1 + 1 := by
        simp [memberTokens]
        omega
      rw [hlength]
      simpa [memberTokens, compactMembers, Function.comp_def] using hread

theorem takeAll?_one
    (h : ∀ rest, EndsNumeral rest → take? (json.compact ++ rest) = some (token, rest))
    (htokens : json.tokens = [token]) : IsTokenized json := by
  intro rest fuel hrest
  rw [htokens]
  exact takeAll?_of_take? (h rest hrest) fuel

theorem IsExact.isTokenized (h : IsExact json) : IsTokenized json := by
  induction h with
  | null => exact takeAll?_one (fun _ _ => rfl) rfl
  | bool b => cases b <;> exact takeAll?_one (fun _ _ => rfl) rfl
  | integer n exact' => exact takeAll?_one (fun _ => take?_integer n exact') rfl
  | string s => exact takeAll?_one (fun rest _ => take?_quoted s rest) rfl
  | @array items _ ih =>
    intro rest fuel _
    have hopen : take? (('[' :: compactItems items) ++ rest) =
        some (.openBracket, compactItems items ++ rest) := rfl
    rw [compact, tokens, List.length_cons, ← Nat.add_assoc, takeAll?_of_take? hopen,
      takeAll?_items ih, Option.map_map]
    rfl
  | @object members _ ih =>
    intro rest fuel _
    have hopen : take? (('{' :: compactMembers members) ++ rest) =
        some (.openBrace, compactMembers members ++ rest) := rfl
    rw [compact, tokens, List.length_cons, ← Nat.add_assoc, takeAll?_of_take? hopen,
      takeAll?_members ih, Option.map_map]
    rfl

theorem length_itemTokens_le (h : ∀ item ∈ items, item.tokens.length ≤ item.compact.length) :
    (itemTokens items).length ≤ (compactItems items).length := by
  induction items with
  | nil => exact Nat.le_refl 1
  | cons item items ih =>
    have hitem := h item List.mem_cons_self
    have hitems := ih fun other hother => h other (List.mem_cons_of_mem _ hother)
    cases items with
    | nil => simpa [itemTokens, compactItems] using hitem
    | cons next items =>
      simp only [itemTokens, compactItems, List.length_append, List.length_cons] at hitems ⊢
      omega

theorem length_memberTokens_le
    (h : ∀ member ∈ members, member.2.tokens.length ≤ member.2.compact.length) :
    (memberTokens members).length ≤ (compactMembers members).length := by
  induction members with
  | nil => exact Nat.le_refl 1
  | cons member members ih =>
    obtain ⟨name, value⟩ := member
    have hvalue : value.tokens.length ≤ value.compact.length := h (name, value) List.mem_cons_self
    have hmembers := ih fun other hother => h other (List.mem_cons_of_mem _ hother)
    have hname : 2 ≤ (quoted name).length := by simp [quoted]
    cases members with
    | nil =>
      simp only [memberTokens, compactMembers, List.length_append, List.length_cons]
      omega
    | cons next members =>
      simp only [memberTokens, compactMembers, List.length_append, List.length_cons] at hmembers ⊢
      omega

theorem IsExact.length_tokens_le (h : IsExact json) :
    json.tokens.length ≤ json.compact.length := by
  induction h with
  | null => decide
  | bool b => cases b <;> decide
  | integer n exact' =>
    obtain ⟨negative, m, htext, -⟩ := Numeral.exists_integerText n
    obtain ⟨c, text, hcons, -⟩ := Numeral.exists_cons_integerText negative m
    have hwritten : Number.written (.integer n exact') = c :: text := htext.trans hcons
    simp [tokens, compact, hwritten]
  | string s => simp [tokens, compact, quoted]
  | array _ ih => exact Nat.succ_le_succ (length_itemTokens_le ih)
  | object _ ih => exact Nat.succ_le_succ (length_memberTokens_le ih)

theorem IsExact.tokens_eq (h : IsExact json) : Token.ofText? json.compact = some json.tokens := by
  obtain ⟨fuel, hfuel⟩ := Nat.exists_eq_add_of_le h.length_tokens_le
  have hread := h.isTokenized [] fuel (by simp [EndsNumeral])
  rw [List.append_nil, takeAll?_nil, Nat.add_comm, ← hfuel] at hread
  simpa [Token.ofText?] using hread

namespace Document

open Reading

/-- However the tokens of the value go on, the value is put first. -/
def IsPut (json : Json) : Prop :=
  ∀ (containers : List Open) (rest : List Token),
    (json.tokens ++ rest).foldlM step? ⟨.value, containers⟩ =
      rest.foldlM step? (put (ofJson json) containers)

theorem foldlM_cons {reading next : Reading} (h : step? reading token = some next)
    (rest : List Token) :
    (token :: rest).foldlM step? reading = rest.foldlM step? next := by
  rw [List.foldlM_cons, h]
  rfl

theorem foldlM_items (h : ∀ item ∈ items, IsPut item) (hne : items ≠ []) (read : List Document)
    (outer : List Open) (rest : List Token) :
    (itemTokens items ++ rest).foldlM step? ⟨.value, .array read :: outer⟩ =
      rest.foldlM step? (put (.array (read.reverse ++ ofItems items)) outer) := by
  induction items generalizing read with
  | nil => exact absurd rfl hne
  | cons item items ih =>
    have hitem := h item List.mem_cons_self (.array read :: outer)
    cases items with
    | nil =>
      rw [itemTokens, List.append_assoc, hitem]
      exact (foldlM_cons rfl rest).trans (by simp [ofItems])
    | cons next items =>
      have hitems := ih (fun other hother => h other (List.mem_cons_of_mem _ hother)) (by simp)
        (ofJson item :: read)
      have htokens : itemTokens (item :: next :: items) ++ rest =
          item.tokens ++ .comma :: (itemTokens (next :: items) ++ rest) := by simp [itemTokens]
      rw [htokens, hitem]
      refine (foldlM_cons rfl _).trans (hitems.trans ?_)
      simp [ofItems]

theorem foldlM_members (h : ∀ member ∈ members, IsPut member.2) (hne : members ≠ [])
    (read : List (Option String × Document)) (outer : List Open) (rest : List Token) :
    (memberTokens members ++ rest).foldlM step? ⟨.name, .object read :: outer⟩ =
      rest.foldlM step? (put (.object (read.reverse ++ ofMembers members)) outer) := by
  induction members generalizing read with
  | nil => exact absurd rfl hne
  | cons member members ih =>
    obtain ⟨name, value⟩ := member
    have hvalue := h (name, value) List.mem_cons_self (.member read (some name) :: outer)
    cases members with
    | nil =>
      have htokens : memberTokens [(name, value)] ++ rest =
          .string (some name) :: .colon :: (value.tokens ++ .closeBrace :: rest) := by
        simp [memberTokens]
      rw [htokens]
      refine (foldlM_cons rfl _).trans ((foldlM_cons rfl _).trans ((hvalue _).trans ?_))
      exact (foldlM_cons rfl rest).trans (by simp [ofMembers])
    | cons next members =>
      have hmembers := ih (fun other hother => h other (List.mem_cons_of_mem _ hother)) (by simp)
        ((some name, ofJson value) :: read)
      have htokens : memberTokens ((name, value) :: next :: members) ++ rest =
          .string (some name) :: .colon ::
            (value.tokens ++ .comma :: (memberTokens (next :: members) ++ rest)) := by
        simp [memberTokens]
      rw [htokens]
      refine (foldlM_cons rfl _).trans ((foldlM_cons rfl _).trans ((hvalue _).trans ?_))
      refine (foldlM_cons rfl _).trans (hmembers.trans ?_)
      simp [ofMembers]

theorem exists_cons_tokens (json : Json) :
    ∃ token rest, json.tokens = token :: rest ∧ token ≠ .closeBracket := by
  cases json <;> exact ⟨_, _, rfl, by simp⟩

theorem foldlM_firstItem (item : Json) (items : List Json) (containers : List Open)
    (rest : List Token) :
    (itemTokens (item :: items) ++ rest).foldlM step? ⟨.itemOrEnd, containers⟩ =
      (itemTokens (item :: items) ++ rest).foldlM step? ⟨.value, containers⟩ := by
  obtain ⟨token, tokens, htokens, hne⟩ := exists_cons_tokens item
  cases items with
  | nil => simp [itemTokens, htokens, step?, hne]
  | cons next items => simp [itemTokens, htokens, step?, hne]

theorem foldlM_firstMember (member : String × Json) (members : List (String × Json))
    (containers : List Open) (rest : List Token) :
    (memberTokens (member :: members) ++ rest).foldlM step? ⟨.nameOrEnd, containers⟩ =
      (memberTokens (member :: members) ++ rest).foldlM step? ⟨.name, containers⟩ := by
  cases members <;> rfl

theorem isPut_of_isExact (h : IsExact json) : IsPut json := by
  induction h with
  | null => exact fun _ rest => foldlM_cons rfl rest
  | bool b => exact fun _ rest => foldlM_cons rfl rest
  | integer n exact' => exact fun _ rest => foldlM_cons rfl rest
  | string s => exact fun _ rest => foldlM_cons rfl rest
  | @array items _ ih =>
    intro containers rest
    refine (foldlM_cons rfl _).trans ?_
    cases items with
    | nil => exact foldlM_cons rfl rest
    | cons item items => exact (foldlM_firstItem ..).trans (foldlM_items ih (by simp) [] _ rest)
  | @object members _ ih =>
    intro containers rest
    refine (foldlM_cons rfl _).trans ?_
    cases members with
    | nil => exact foldlM_cons rfl rest
    | cons member members =>
      exact (foldlM_firstMember ..).trans (foldlM_members ih (by simp) [] _ rest)

/-- The text of a value is read back as its document. -/
theorem ofText?_compact (h : IsExact json) : ofText? json.compact = some (ofJson json) := by
  have hput := isPut_of_isExact h [] []
  rw [List.append_nil] at hput
  simp only [ofText?, h.tokens_eq, Option.bind_eq_bind, Option.bind_some, ofTokens?, start, hput]
  rfl

end Document

end CodeNav.Json
