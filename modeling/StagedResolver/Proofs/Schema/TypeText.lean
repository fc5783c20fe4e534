/-
References to types are read from the texts they are displayed as.

What is read from a text is displayed as that text without the blanks around it, even where the
text is no proper reference: whatever is neither mark nor bracket counts as a name.  A reference
is read from what it is displayed as, unless its name runs into the marks around it.
-/
import Mathlib.Data.List.Basic
import StagedResolver.Schema.TypeReference

namespace StagedResolver

/-- Text that neither starts nor ends with a blank is left as it is. -/
theorem Text.trim_eq_self {characters : List Char}
    (starts : ∀ first ∈ characters.head?, isBlank first = false)
    (ends : ∀ last ∈ characters.getLast?, isBlank last = false) : trim characters = characters := by
  have startKept : trimStart characters = characters := by
    cases characters with
    | nil => rfl
    | cons first rest => exact List.dropWhile_cons_of_neg (by simp [starts first rfl])
  have endKept : trimStart characters.reverse = characters.reverse := by
    cases reversed : characters.reverse with
    | nil => rfl
    | cons last rest =>
        have isLast : characters.getLast? = some last := by
          rw [← List.head?_reverse, reversed, List.head?_cons]
        exact List.dropWhile_cons_of_neg (by simp [ends last isLast])
  rw [trim, startKept, endKept, List.reverse_reverse]

namespace TypeReference

variable {characters rest : List Char} {type : TypeReference} {required : Bool}

def mark (required : Bool) : List Char :=
  if required then ['!'] else []

private theorem eq_of_splitMark (split : splitMark characters = (required, rest)) :
    characters = rest ++ mark required ∧ (required = false → rest.getLast? ≠ some '!') := by
  unfold splitMark at split
  split at split
  · rename_i marked
    cases split
    obtain ⟨before, rfl⟩ := List.getLast?_eq_some_iff.mp marked
    rw [List.dropLast_concat]
    exact ⟨rfl, nofun⟩
  · rename_i unmarked
    cases split
    exact ⟨(List.append_nil characters).symm, fun _ => unmarked⟩

private theorem splitMark_append (unmarked : required = false → rest.getLast? ≠ some '!') :
    splitMark (rest ++ mark required) = (required, rest) := by
  cases required with
  | true => rw [splitMark, mark, if_pos rfl, if_pos List.getLast?_concat, List.dropLast_concat]
  | false =>
      have noMark : rest ++ mark false = rest := List.append_nil rest
      rw [noMark, splitMark, if_neg (unmarked rfl)]

private theorem read?_of_bracket {inside : List Char}
    (split : splitMark characters = (required, '[' :: inside)) :
    read? characters =
      if inside.getLast? = some ']' then (read? inside.dropLast).map fun item => .list item required
      else none := by
  rw [read?]
  split
  · rename_i found same
    rw [split] at same ⊢
    cases same
    rfl
  · rename_i noBracket
    exact (noBracket inside (congrArg Prod.snd split)).elim

private theorem read?_of_name (split : splitMark characters = (required, rest))
    (noBracket : rest.head? ≠ some '[') :
    read? characters = some (.named (String.ofList rest) required) := by
  rw [read?]
  split
  · rename_i inside same
    rw [split] at same
    rw [show rest = '[' :: inside from same] at noBracket
    exact absurd rfl noBracket
  · rw [split]

/-! ### Whole references -/

/-- Whether a reference is read from what it is displayed as, whatever is around the text. -/
def IsLegible : TypeReference → Prop
  | .named name required =>
      name.toList.head? ≠ some '[' ∧ (required = false → name.toList.getLast? ≠ some '!')
  | .list item _ => IsLegible item

private theorem toList_display_named (name : String) (required : Bool) :
    (named name required).display.toList = name.toList ++ mark required := by
  rw [display, String.toList_append]
  cases required with
  | true => rfl
  | false => rfl

private theorem toList_display_list (item : TypeReference) (required : Bool) :
    (list item required).display.toList =
      '[' :: (item.display.toList ++ [']']) ++ mark required := by
  rw [display, String.toList_append, String.toList_append, String.toList_append]
  cases required with
  | true => rfl
  | false => rfl

private theorem read?_display (legible : type.IsLegible) :
    read? type.display.toList = some type := by
  induction type with
  | named name required =>
      obtain ⟨noBracket, unmarked⟩ := legible
      rw [toList_display_named, read?_of_name (splitMark_append unmarked) noBracket,
        String.ofList_toList]
  | list item required ih =>
      have split : splitMark ('[' :: (item.display.toList ++ [']']) ++ mark required) =
          (required, '[' :: (item.display.toList ++ [']'])) := by
        apply splitMark_append
        rw [← List.cons_append, List.getLast?_concat]
        simp
      rw [toList_display_list, read?_of_bracket split, if_pos List.getLast?_concat,
        List.dropLast_concat, ih legible, Option.map_some]

/-- What is read is displayed as the text that it is read from. -/
theorem display_of_read? (isRead : read? characters = some type) :
    type.display.toList = characters ∧ type.IsLegible := by
  induction characters using read?.induct generalizing type with
  | case1 characters inside isRest ends ih =>
      have split : splitMark characters = ((splitMark characters).1, '[' :: inside) :=
        Prod.ext rfl isRest
      rw [read?_of_bracket split, if_pos ends] at isRead
      obtain ⟨item, itemIs, rfl⟩ := Option.map_eq_some_iff.mp isRead
      obtain ⟨displayed, legible⟩ := ih itemIs
      refine ⟨?_, legible⟩
      rw [toList_display_list, displayed, List.dropLast_append_getLast? _ ends]
      exact (eq_of_splitMark split).1.symm
  | case2 characters inside isRest unclosed =>
      have split : splitMark characters = ((splitMark characters).1, '[' :: inside) :=
        Prod.ext rfl isRest
      rw [read?_of_bracket split, if_neg unclosed] at isRead
      cases isRead
  | case3 characters noBracket =>
      have notFirst : (splitMark characters).2.head? ≠ some '[' := by
        intro isFirst
        obtain ⟨inside, isRest⟩ := List.head?_eq_some_iff.mp isFirst
        exact noBracket inside isRest
      rw [read?_of_name rfl notFirst] at isRead
      cases isRead
      have split : splitMark characters =
          ((splitMark characters).1, (splitMark characters).2) := rfl
      obtain ⟨same, unmarked⟩ := eq_of_splitMark split
      rw [toList_display_named, IsLegible, String.toList_ofList]
      exact ⟨same.symm, notFirst, unmarked⟩

private theorem read?_eq_some_iff :
    read? characters = some type ↔ type.display.toList = characters ∧ type.IsLegible := by
  constructor
  · exact display_of_read?
  · rintro ⟨rfl, legible⟩
    exact read?_display legible

/-- Whether a name keeps apart from the marks and the blanks around it. -/
structure IsPlainName (name : String) : Prop where
  noBracket : name.toList.head? ≠ some '['
  noMark : name.toList.getLast? ≠ some '!'
  starts : ∀ first ∈ name.toList.head?, Text.isBlank first = false
  ends : ∀ last ∈ name.toList.getLast?, Text.isBlank last = false

private theorem IsPlainName.isLegible (plain : IsPlainName type.innermost) : type.IsLegible := by
  induction type with
  | named name required => exact ⟨plain.noBracket, fun _ => plain.noMark⟩
  | list item required ih => exact ih plain

private theorem starts_append_mark (starts : ∀ first ∈ rest.head?, Text.isBlank first = false) :
    ∀ first ∈ (rest ++ mark required).head?, Text.isBlank first = false := by
  cases rest with
  | nil =>
      cases required with
      | true =>
          rintro _ ⟨⟩
          rfl
      | false => exact nofun
  | cons first others => exact starts

private theorem ends_append_mark (ends : ∀ last ∈ rest.getLast?, Text.isBlank last = false) :
    ∀ last ∈ (rest ++ mark required).getLast?, Text.isBlank last = false := by
  cases required with
  | true =>
      rw [mark, if_pos rfl, List.getLast?_concat]
      rintro _ ⟨⟩
      rfl
  | false =>
      have noMark : rest ++ mark false = rest := List.append_nil rest
      rw [noMark]
      exact ends

private theorem trim_display (plain : IsPlainName type.innermost) :
    Text.trim type.display.toList = type.display.toList := by
  cases type with
  | named name required =>
      rw [toList_display_named]
      exact Text.trim_eq_self (starts_append_mark plain.starts) (ends_append_mark plain.ends)
  | list item required =>
      rw [toList_display_list]
      apply Text.trim_eq_self
      · rintro _ ⟨⟩
        rfl
      · apply ends_append_mark
        rw [← List.cons_append, List.getLast?_concat]
        rintro _ ⟨⟩
        rfl

/-- What is read from a text is displayed as the text without the blanks around it.  And a
reference is read from what it is displayed as, marks at every layer included, if its name is
plain. -/
theorem parse?_display_inverse :
    (∀ (text : String) (type : TypeReference), parse? text = some type ↔
        type.display = String.ofList (Text.trim text.toList) ∧ type.IsLegible) ∧
      ∀ type : TypeReference, IsPlainName type.innermost → parse? type.display = some type := by
  refine ⟨fun text type => ?_, fun type plain => ?_⟩
  · rw [parse?, read?_eq_some_iff, ← String.toList_inj, String.toList_ofList]
  · rw [parse?, trim_display plain, read?_display plain.isLegible]

theorem parse?_display_inverse_ofBrackets :
    let type : TypeReference := .list (.list (.named "a! ]b" true) true) false
    IsPlainName type.innermost ∧ type.display = "[[a! ]b!]!]" ∧
      parse? "[[a! ]b!]!]" = some type ∧ parse? " [[a! ]b!]!]\t" = some type := by
  intro type
  have letters : type.innermost.toList = ['a', '!', ' ', ']', 'b'] := by decide
  have plain : IsPlainName type.innermost := by
    refine ⟨?_, ?_, ?_, ?_⟩ <;> rw [letters]
    · exact nofun
    · exact nofun
    · rintro _ ⟨⟩
      rfl
    · rintro _ ⟨⟩
      rfl
  have displayed : type.display = "[[a! ]b!]!]" := rfl
  obtain ⟨ofText, ofDisplay⟩ := parse?_display_inverse
  refine ⟨plain, displayed, displayed ▸ ofDisplay type plain, ?_⟩
  exact (ofText _ type).mpr ⟨by decide, plain.isLegible⟩

end TypeReference

end StagedResolver
