/-
The text of a document is scanned into the document's lexemes.

Punctuation and strings end by themselves.  A literal or a number is a run of characters that
ends with the first other character, or with the text, so that what is scanned before that is
a run that is still open.
-/
import StagedResolver.Proofs.Json.Numerals

namespace StagedResolver.Json

open Text

mutual

def tokens : Json → List Token
  | .string text => [.string text]
  | .array items => .openArray :: (tokensOfItems items ++ [.closeArray])
  | .object members => .openObject :: (tokensOfMembers members ++ [.closeObject])
  | leaf => [.scalar leaf]

def tokensOfItems : List Json → List Token
  | [] => []
  | [item] => tokens item
  | item :: next :: rest => tokens item ++ .comma :: tokensOfItems (next :: rest)

def tokensOfMembers : List (String × Json) → List Token
  | [] => []
  | [(key, held)] => .string key :: .colon :: tokens held
  | (key, held) :: next :: rest =>
      .string key :: .colon :: (tokens held ++ .comma :: tokensOfMembers (next :: rest))

end

mutual

def scalars : Json → List Json
  | .string _ => []
  | .array items => scalarsOfItems items
  | .object members => scalarsOfMembers members
  | leaf => [leaf]

def scalarsOfItems : List Json → List Json
  | [] => []
  | item :: rest => scalars item ++ scalarsOfItems rest

def scalarsOfMembers : List (String × Json) → List Json
  | [] => []
  | (_, held) :: rest => scalars held ++ scalarsOfMembers rest

end

def decimals (document : Json) : List Binary64 :=
  document.scalars.filterMap fun
    | .decimal number => some number
    | _ => none

theorem mem_decimals {document : Json} {number : Binary64}
    (member : .decimal number ∈ document.scalars) : number ∈ document.decimals :=
  List.mem_filterMap.mpr ⟨.decimal number, member, rfl⟩

/-- Whether a condition holds of every literal and number of a document. -/
def AllScalars (holds : Json → Prop) (document : Json) : Prop :=
  ∀ leaf ∈ document.scalars, holds leaf

/-! ### Scanning -/

def Scan.finish (scan : Scan) : Option Scan :=
  match scan.mode with
  | .between => some scan
  | .run characters => scan.closeRun characters
  | .text _ _ => none

/-- Whether characters are scanned into lexemes, of which none is left open. -/
def Ends (characters : List Char) (lexemes : List Token) : Prop :=
  ∀ before, characters.foldlM Scan.step ⟨before, .between⟩ =
    some ⟨lexemes.reverse ++ before, .between⟩

/-- Whether characters are scanned into lexemes, of which the last may be an open run. -/
def Reads (characters : List Char) (lexemes : List Token) : Prop :=
  ∀ before, ∃ scan, characters.foldlM Scan.step ⟨before, .between⟩ = some scan ∧
    scan.finish = some ⟨lexemes.reverse ++ before, .between⟩

private theorem tokens?_of_reads {text : String} {lexemes : List Token}
    (reads : Reads text.toList lexemes) : tokens? text = some lexemes := by
  obtain ⟨scan, scanned, finished⟩ := reads []
  rw [List.append_nil] at finished
  rw [tokens?, scanned]
  obtain ⟨found, mode⟩ := scan
  cases mode with
  | between =>
      cases finished
      exact congrArg some (List.reverse_reverse lexemes)
  | run characters =>
      have closed : (Scan.mk found (.run characters)).closeRun characters =
          some ⟨lexemes.reverse, .between⟩ := finished
      simp only [Option.bind_eq_bind, Option.bind_some, closed, Option.pure_def,
        List.reverse_reverse]
  | text characters pending => cases finished

theorem Ends.reads {characters : List Char} {lexemes : List Token}
    (ends : Ends characters lexemes) : Reads characters lexemes :=
  fun before => ⟨_, ends before, rfl⟩

private theorem ends_nil : Ends [] [] :=
  fun _ => rfl

section Appending

variable {first second : List Char} {lexemes others : List Token}

theorem Ends.append (firstEnds : Ends first lexemes) (secondEnds : Ends second others) :
    Ends (first ++ second) (lexemes ++ others) := by
  intro before
  rw [List.foldlM_append, firstEnds before, Option.bind_eq_bind, Option.bind_some,
    secondEnds _, List.reverse_append, List.append_assoc]

private theorem Ends.append_reads (firstEnds : Ends first lexemes)
    (secondReads : Reads second others) :
    Reads (first ++ second) (lexemes ++ others) := by
  intro before
  obtain ⟨scan, scanned, finished⟩ := secondReads (lexemes.reverse ++ before)
  refine ⟨scan, ?_, ?_⟩
  · rw [List.foldlM_append, firstEnds before, Option.bind_eq_bind, Option.bind_some, scanned]
  · rw [finished, List.reverse_append, List.append_assoc]

private theorem step_of_finish {scan closed : Scan} {character : Char}
    (finished : scan.finish = some closed) (noRun : isRunCharacter character = false) :
    scan.step character = closed.between character := by
  obtain ⟨found, mode⟩ := scan
  cases mode with
  | between =>
      cases finished
      rfl
  | run characters =>
      have isClosed : (Scan.mk found (.run characters)).closeRun characters = some closed :=
        finished
      simp only [Scan.step, noRun, Bool.false_eq_true, if_false, isClosed, Option.bind_some]
  | text characters pending => cases finished

private theorem Reads.punctuate {token : Token} {character : Char} (reads : Reads first lexemes)
    (noRun : isRunCharacter character = false)
    (isToken : ∀ scan : Scan, scan.between character = some ⟨token :: scan.tokens, .between⟩) :
    Ends (first ++ [character]) (lexemes ++ [token]) := by
  intro before
  obtain ⟨scan, scanned, finished⟩ := reads before
  rw [List.foldlM_append, scanned, Option.bind_eq_bind, Option.bind_some, List.foldlM_cons,
    step_of_finish finished noRun, isToken, List.reverse_append]
  rfl

end Appending

private theorem hexValue?_hexDigit {value : Nat} (small : value < 16) :
    hexValue? (hexDigit value) = some value := by
  have all : ∀ value < 16, hexValue? (hexDigit value) = some value := by decide
  exact all value small

section Strings

variable {before : List Token} {characters : List Char}

private theorem foldlM_control {character : Char} (control : character.toNat < 32) :
    ['\\', 'u', '0', '0', hexDigit (character.toNat / 16),
        hexDigit (character.toNat % 16)].foldlM Scan.step ⟨before, .text characters .character⟩ =
      some ⟨before, .text (character :: characters) .character⟩ := by
  have high := hexValue?_hexDigit (show character.toNat / 16 < 16 by omega)
  have low := hexValue?_hexDigit (show character.toNat % 16 < 16 by omega)
  have zero : hexValue? '0' = some 0 := by decide
  have whole : character.toNat / 16 * 16 + character.toNat % 16 = character.toNat := by omega
  have complete : completeUnit characters none character.toNat =
      some (.text (character :: characters) .character) := by
    have noHigh : ¬ (0xD800 ≤ character.toNat ∧ character.toNat < 0xDC00) := by omega
    have noLow : ¬ (0xDC00 ≤ character.toNat ∧ character.toNat < 0xE000) := by omega
    simp only [completeUnit, noHigh, noLow, if_false, Char.ofNat_toNat]
  simp [List.foldlM_cons, Scan.step, Scan.inText, zero, high, low, whole, complete]

/-- What a string writes for a character is read as that character. -/
theorem foldlM_escape (character : Char) :
    (escape character).foldlM Scan.step ⟨before, .text characters .character⟩ =
      some ⟨before, .text (character :: characters) .character⟩ := by
  unfold escape
  split
  · rfl
  · rfl
  · rfl
  · rfl
  · rfl
  · rename_i noQuote noBackslash _ _ _
    split
    · rename_i isBackspace
      have same : character = Char.ofNat 8 := by rw [← isBackspace, Char.ofNat_toNat]
      rw [same]
      rfl
    · split
      · rename_i isFormFeed
        have same : character = Char.ofNat 12 := by rw [← isFormFeed, Char.ofNat_toNat]
        rw [same]
        rfl
      · split
        · rename_i control
          exact foldlM_control control
        · rename_i plain
          have stepped : Scan.step ⟨before, .text characters .character⟩ character =
              some ⟨before, .text (character :: characters) .character⟩ := by
            show Scan.inText _ characters .character character = _
            rw [Scan.inText, if_neg noQuote, if_neg noBackslash, if_neg plain]
          rw [List.foldlM_cons, stepped]
          rfl

private theorem foldlM_escapes (text : List Char) :
    (text.flatMap escape).foldlM Scan.step ⟨before, .text characters .character⟩ =
      some ⟨before, .text (text.reverse ++ characters) .character⟩ := by
  induction text generalizing characters with
  | nil => rfl
  | cons first rest ih =>
      rw [List.flatMap_cons, List.foldlM_append, foldlM_escape, Option.bind_eq_bind,
        Option.bind_some, ih, List.reverse_cons, List.append_assoc]
      rfl

end Strings

private theorem ends_quote (text : String) : Ends (quote text).toList [.string text] := by
  intro before
  have characters : (quote text).toList = '"' :: (text.toList.flatMap escape ++ ['"']) := by
    simp only [quote, String.toList_append, String.toList_ofList]
    rfl
  rw [characters, List.foldlM_cons]
  show (text.toList.flatMap escape ++ ['"']).foldlM Scan.step
    ⟨before, .text [] .character⟩ = _
  rw [List.foldlM_append, foldlM_escapes, List.append_nil]
  show some (Scan.mk (.string (String.ofList text.toList.reverse.reverse) :: before)
    .between) = _
  rw [List.reverse_reverse, String.ofList_toList]
  rfl

private theorem foldlM_run {before : List Token} {read characters : List Char}
    (isRun : IsRun characters) :
    characters.foldlM Scan.step ⟨before, .run read⟩ =
      some ⟨before, .run (characters.reverse ++ read)⟩ := by
  induction characters generalizing read with
  | nil => rfl
  | cons first rest ih =>
      obtain ⟨isFirst, restRun⟩ := List.forall_mem_cons.mp isRun
      have stepped : Scan.step ⟨before, .run read⟩ first = some ⟨before, .run (first :: read)⟩ :=
        if_pos isFirst
      rw [List.foldlM_cons, stepped, Option.bind_eq_bind, Option.bind_some, ih restRun,
        List.reverse_cons, List.append_assoc]
      rfl

private theorem between_of_isRunCharacter {scan : Scan} {character : Char}
    (isRun : isRunCharacter character = true) :
    scan.between character = some { scan with mode := .run [character] } := by
  have noBlank : isBlank character = false := by
    rw [Bool.eq_false_iff]
    intro blank
    simp only [isBlank, Bool.or_eq_true, beq_iff_eq] at blank
    rcases blank with ((rfl | rfl) | rfl) | rfl <;> cases isRun
  unfold Scan.between
  split
  all_goals first
    | cases isRun
    | simp only [noBlank, isRun, Bool.false_eq_true, if_false, if_true]

theorem Legible.reads {leaf : Json} (legible : Legible leaf) :
    Reads leaf.render.toList [.scalar leaf] := by
  intro before
  obtain ⟨isRun, scalar⟩ := legible
  generalize leaf.render.toList = characters at isRun scalar
  cases characters with
  | nil => cases scalar
  | cons first rest =>
      obtain ⟨isFirst, restRun⟩ := List.forall_mem_cons.mp isRun
      have stepped : Scan.step ⟨before, .between⟩ first = some ⟨before, .run [first]⟩ :=
        between_of_isRunCharacter isFirst
      refine ⟨⟨before, .run (rest.reverse ++ [first])⟩, ?_, ?_⟩
      · rw [List.foldlM_cons, stepped]
        exact foldlM_run restRun
      · show (scalar? (rest.reverse ++ [first]).reverse).map _ = _
        rw [List.reverse_append, List.reverse_reverse]
        exact congrArg (Option.map _) scalar

/-! ### Documents -/

private theorem ends_comma {characters : List Char} {lexemes : List Token}
    (reads : Reads characters lexemes) : Ends (characters ++ [',']) (lexemes ++ [.comma]) :=
  reads.punctuate (by decide) fun _ => rfl

private theorem ends_key (key : String) : Ends ((quote key).toList ++ [':'])
    [.string key, .colon] :=
  (ends_quote key).reads.punctuate (by decide) fun _ => rfl

mutual

/-- What is written for a document is scanned into its lexemes. -/
theorem reads_render : ∀ document : Json, document.AllScalars Legible →
    Reads document.render.toList document.tokens
  | .null, legible => (legible _ (List.mem_cons_self ..)).reads
  | .bool _, legible => (legible _ (List.mem_cons_self ..)).reads
  | .integer _, legible => (legible _ (List.mem_cons_self ..)).reads
  | .decimal _, legible => (legible _ (List.mem_cons_self ..)).reads
  | .string text, _ => (ends_quote text).reads
  | .array items, legible => by
      have opened : Ends ['['] [.openArray] := fun _ => rfl
      have closed : Ends ((renderItems items).toList ++ [']'])
          (tokensOfItems items ++ [.closeArray]) :=
        (reads_renderItems items legible).punctuate (by decide) fun _ => rfl
      have text : (render (.array items)).toList =
          ['['] ++ ((renderItems items).toList ++ [']']) := by
        simp only [render, String.toList_append, List.append_assoc]
        rfl
      rw [text]
      exact (opened.append closed).reads
  | .object members, legible => by
      have opened : Ends ['\x7b'] [.openObject] := fun _ => rfl
      have closed : Ends ((renderMembers members).toList ++ ['\x7d'])
          (tokensOfMembers members ++ [.closeObject]) :=
        (reads_renderMembers members legible).punctuate (by decide) fun _ => rfl
      have text : (render (.object members)).toList =
          ['\x7b'] ++ ((renderMembers members).toList ++ ['\x7d']) := by
        simp only [render, String.toList_append, List.append_assoc]
        rfl
      rw [text]
      exact (opened.append closed).reads

theorem reads_renderItems : ∀ items : List Json, (∀ leaf ∈ scalarsOfItems items, Legible leaf) →
    Reads (renderItems items).toList (tokensOfItems items)
  | [], _ => ends_nil.reads
  | [item], legible => by
      obtain ⟨first, _⟩ := List.forall_mem_append.mp legible
      exact reads_render item first
  | item :: next :: rest, legible => by
      obtain ⟨first, others⟩ := List.forall_mem_append.mp legible
      have itemEnds := ends_comma (reads_render item first)
      have restReads := reads_renderItems (next :: rest) others
      have text : (renderItems (item :: next :: rest)).toList =
          (item.render.toList ++ [',']) ++ (renderItems (next :: rest)).toList := by
        simp only [renderItems, String.toList_append]
        rfl
      have lexemes : tokensOfItems (item :: next :: rest) =
          (item.tokens ++ [.comma]) ++ tokensOfItems (next :: rest) := by
        rw [tokensOfItems, List.append_assoc]
        rfl
      rw [text, lexemes]
      exact itemEnds.append_reads restReads

theorem reads_renderMembers : ∀ members : List (String × Json),
    (∀ leaf ∈ scalarsOfMembers members, Legible leaf) →
    Reads (renderMembers members).toList (tokensOfMembers members)
  | [], _ => ends_nil.reads
  | [(key, held)], legible => by
      obtain ⟨first, _⟩ := List.forall_mem_append.mp legible
      have text : (renderMembers [(key, held)]).toList =
          ((quote key).toList ++ [':']) ++ held.render.toList := by
        simp only [renderMembers, String.toList_append]
        rfl
      rw [text]
      exact (ends_key key).append_reads (reads_render held first)
  | (key, held) :: next :: rest, legible => by
      obtain ⟨first, others⟩ := List.forall_mem_append.mp legible
      have heldEnds := (ends_key key).append (ends_comma (reads_render held first))
      have restReads := reads_renderMembers (next :: rest) others
      have text : (renderMembers ((key, held) :: next :: rest)).toList =
          ((quote key).toList ++ [':'] ++ (held.render.toList ++ [','])) ++
            (renderMembers (next :: rest)).toList := by
        simp only [renderMembers, String.toList_append, List.append_assoc]
        rfl
      have lexemes : tokensOfMembers ((key, held) :: next :: rest) =
          ([.string key, .colon] ++ (held.tokens ++ [.comma])) ++
            tokensOfMembers (next :: rest) := by
        rw [tokensOfMembers, List.append_assoc, List.append_assoc]
        rfl
      rw [text, lexemes]
      exact heldEnds.append_reads restReads

end

theorem tokens?_render {document : Json} (legible : document.AllScalars Legible) :
    tokens? document.render = some document.tokens :=
  tokens?_of_reads (reads_render document legible)

end StagedResolver.Json
