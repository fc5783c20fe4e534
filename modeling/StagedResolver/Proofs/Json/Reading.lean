/-
Documents are read back from the texts that are written for them.

Reading a document's lexemes where a value may start ends as if the document had been accepted
there, whatever is open around it, as long as the limit has room for the layers that the
document opens itself.
-/
import StagedResolver.Json.Reader
import StagedResolver.Proofs.Json.Portable

namespace StagedResolver.Json

mutual

def nesting : Json → Nat
  | .array items => nestingOfItems items + 1
  | .object members => nestingOfMembers members + 1
  | _ => 0

def nestingOfItems : List Json → Nat
  | [] => 0
  | item :: rest => max (nesting item) (nestingOfItems rest)

def nestingOfMembers : List (String × Json) → Nat
  | [] => 0
  | (_, held) :: rest => max (nesting held) (nestingOfMembers rest)

end

/-- Whether a limit, if there is one, lets so many further layers be opened inside others. -/
def Room (limit : Option Nat) (layers further : Nat) : Prop :=
  ∀ most, limit = some most → layers + further ≤ most

namespace Room

variable {limit : Option Nat} {layers further other : Nat}

theorem unlimited (layers further : Nat) : Room none layers further := by
  intro most isLimit
  cases isLimit

theorem left (room : Room limit layers (max further other)) : Room limit layers further := by
  intro most isLimit
  have bound := room most isLimit
  omega

theorem right (room : Room limit layers (max further other)) : Room limit layers other := by
  intro most isLimit
  have bound := room most isLimit
  omega

theorem inside (room : Room limit layers (further + 1)) : Room limit (layers + 1) further := by
  intro most isLimit
  have bound := room most isLimit
  omega

theorem allows (room : Room limit layers (further + 1)) : allows limit layers = true := by
  cases limit with
  | none => rfl
  | some most =>
      have bound := room most rfl
      have less : layers < most := by omega
      exact decide_eq_true less

end Room

/-! ### Readings -/

/-- Whether lexemes lead from one reading to another. -/
def Reading.Leads (limit : Option Nat) (before : Reading) (lexemes : List Token)
    (after : Reading) : Prop :=
  lexemes.foldlM (Reading.step limit) before = some after

namespace Reading.Leads

variable {limit : Option Nat} {before middle after : Reading}

theorem cons {token : Token} {lexemes : List Token}
    (stepped : before.step limit token = some middle)
    (leads : middle.Leads limit lexemes after) : before.Leads limit (token :: lexemes) after := by
  unfold Leads
  rw [List.foldlM_cons, stepped]
  exact leads

theorem single {token : Token} (stepped : before.step limit token = some after) :
    before.Leads limit [token] after :=
  cons stepped rfl

theorem append {first second : List Token} (firstLeads : before.Leads limit first middle)
    (secondLeads : middle.Leads limit second after) :
    before.Leads limit (first ++ second) after := by
  unfold Leads at firstLeads secondLeads ⊢
  rw [List.foldlM_append, firstLeads]
  exact secondLeads

end Reading.Leads

def Expected.StartsValue (expected : Expected) : Prop :=
  expected = .value ∨ expected = .valueOrEnd

section Documents

variable {limit : Option Nat} {layers : List Layer} {expected : Expected}

private theorem step_of_startsValue (starts : expected.StartsValue) {token : Token}
    (noEnd : token ≠ .closeArray) :
    Reading.step limit ⟨layers, expected⟩ token = Reading.start limit ⟨layers, expected⟩ token := by
  rcases starts with rfl | rfl
  · rfl
  · cases token
    case closeArray => exact absurd rfl noEnd
    all_goals rfl

private theorem leads_leaf {token : Token} {document : Json} (starts : expected.StartsValue)
    (noEnd : token ≠ .closeArray)
    (accepted : Reading.start limit ⟨layers, expected⟩ token =
      some (Reading.accept layers document)) :
    Reading.Leads limit ⟨layers, expected⟩ [token] (Reading.accept layers document) :=
  .single ((step_of_startsValue starts noEnd).trans accepted)

private theorem openLayer_of_room {further : Nat} (room : Room limit layers.length (further + 1))
    (layer : Layer) (next : Expected) :
    Reading.openLayer limit ⟨layers, expected⟩ layer next = some ⟨layer :: layers, next⟩ :=
  if_pos room.allows

private theorem step_openArray {further : Nat} (starts : expected.StartsValue)
    (room : Room limit layers.length (further + 1)) :
    Reading.step limit ⟨layers, expected⟩ .openArray =
      some ⟨.array [] :: layers, .valueOrEnd⟩ := by
  have noEnd : Token.openArray ≠ .closeArray := nofun
  rw [step_of_startsValue starts noEnd]
  exact openLayer_of_room room (.array []) .valueOrEnd

private theorem step_openObject {further : Nat} (starts : expected.StartsValue)
    (room : Room limit layers.length (further + 1)) :
    Reading.step limit ⟨layers, expected⟩ .openObject =
      some ⟨.object [] "" :: layers, .keyOrEnd⟩ := by
  have noEnd : Token.openObject ≠ .closeArray := nofun
  rw [step_of_startsValue starts noEnd]
  exact openLayer_of_room room (.object [] "") .keyOrEnd

private theorem leads_key {members : List (String × Json)} {pending : String} (key : String)
    (starts : expected = .key ∨ expected = .keyOrEnd) :
    Reading.Leads limit ⟨.object members pending :: layers, expected⟩ [.string key, .colon]
      ⟨.object members key :: layers, .value⟩ := by
  have keyed : Reading.step limit ⟨.object members pending :: layers, expected⟩ (.string key) =
      some ⟨.object members key :: layers, .colon⟩ := by
    rcases starts with rfl | rfl
    · rfl
    · rfl
  exact .cons keyed (.single rfl)

mutual

/-- The lexemes of a document lead to what accepts it. -/
theorem leads_tokens : ∀ (document : Json) (layers : List Layer) (expected : Expected),
    expected.StartsValue → Room limit layers.length document.nesting →
    Reading.Leads limit ⟨layers, expected⟩ document.tokens (Reading.accept layers document)
  | .null, _, _, starts, _ => leads_leaf starts nofun rfl
  | .bool _, _, _, starts, _ => leads_leaf starts nofun rfl
  | .integer _, _, _, starts, _ => leads_leaf starts nofun rfl
  | .decimal _, _, _, starts, _ => leads_leaf starts nofun rfl
  | .string _, _, _, starts, _ => leads_leaf starts nofun rfl
  | .array items, layers, _, starts, room =>
      .cons (step_openArray starts room)
        (leads_items items [] layers .valueOrEnd (.inr rfl) room.inside)
  | .object members, layers, _, starts, room =>
      .cons (step_openObject starts room)
        (leads_members members [] "" layers .keyOrEnd (.inr rfl) room.inside)

theorem leads_items : ∀ (items accepted : List Json) (layers : List Layer)
    (expected : Expected), expected = .value ∧ items ≠ [] ∨ expected = .valueOrEnd →
    Room limit (layers.length + 1) (nestingOfItems items) →
    Reading.Leads limit ⟨.array accepted :: layers, expected⟩
      (tokensOfItems items ++ [.closeArray])
      (Reading.accept layers (.array (accepted.reverse ++ items)))
  | [], accepted, layers, _, starts, _ => by
      rcases starts with ⟨_, nonempty⟩ | rfl
      · exact absurd rfl nonempty
      · rw [List.append_nil]
        exact .single rfl
  | [item], accepted, layers, expected, starts, room => by
      have first := leads_tokens item (.array accepted :: layers) expected
        (starts.imp_left And.left) room.left
      have close : Reading.Leads limit ⟨.array (item :: accepted) :: layers, .more⟩
          [.closeArray] (Reading.accept layers (.array (item :: accepted).reverse)) :=
        .single rfl
      rw [List.reverse_cons] at close
      exact first.append close
  | item :: next :: rest, accepted, layers, expected, starts, room => by
      have first := leads_tokens item (.array accepted :: layers) expected
        (starts.imp_left And.left) room.left
      have others := leads_items (next :: rest) (item :: accepted) layers .value
        (.inl ⟨rfl, List.cons_ne_nil _ _⟩) room.right
      have comma : Reading.step limit ⟨.array (item :: accepted) :: layers, .more⟩ .comma =
          some ⟨.array (item :: accepted) :: layers, .value⟩ := rfl
      rw [List.reverse_cons, List.append_assoc] at others
      rw [tokensOfItems, List.append_assoc, List.cons_append]
      exact first.append (.cons comma others)

theorem leads_members : ∀ (members accepted : List (String × Json)) (pending : String)
    (layers : List Layer) (expected : Expected),
    expected = .key ∧ members ≠ [] ∨ expected = .keyOrEnd →
    Room limit (layers.length + 1) (nestingOfMembers members) →
    Reading.Leads limit ⟨.object accepted pending :: layers, expected⟩
      (tokensOfMembers members ++ [.closeObject])
      (Reading.accept layers (.object (accepted.reverse ++ members)))
  | [], accepted, _, layers, _, starts, _ => by
      rcases starts with ⟨_, nonempty⟩ | rfl
      · exact absurd rfl nonempty
      · rw [List.append_nil]
        exact .single rfl
  | [(key, held)], accepted, pending, layers, expected, starts, room => by
      have value := leads_tokens held (.object accepted key :: layers) .value (.inl rfl) room.left
      have close : Reading.Leads limit ⟨.object ((key, held) :: accepted) key :: layers, .more⟩
          [.closeObject] (Reading.accept layers (.object ((key, held) :: accepted).reverse)) :=
        .single rfl
      rw [List.reverse_cons] at close
      exact (leads_key key (starts.imp_left And.left)).append (value.append close)
  | (key, held) :: next :: rest, accepted, pending, layers, expected, starts, room => by
      have value := leads_tokens held (.object accepted key :: layers) .value (.inl rfl) room.left
      have others := leads_members (next :: rest) ((key, held) :: accepted) key layers .key
        (.inl ⟨rfl, List.cons_ne_nil _ _⟩) room.right
      have comma : Reading.step limit ⟨.object ((key, held) :: accepted) key :: layers, .more⟩
          .comma = some ⟨.object ((key, held) :: accepted) key :: layers, .key⟩ := rfl
      rw [List.reverse_cons, List.append_assoc] at others
      have rest := value.append (.cons comma others)
      rw [tokensOfMembers, List.cons_append, List.cons_append, List.append_assoc]
      exact (leads_key key (starts.imp_left And.left)).append rest

end

end Documents

/-- A document whose literals and numbers are legible is read back from its text, if a limit
has room for it. -/
theorem readWithin?_render {limit : Option Nat} {document : Json}
    (legible : document.AllScalars Legible) (room : Room limit 0 document.nesting) :
    readWithin? limit document.render = some document := by
  have read : document.tokens.foldlM (Reading.step limit) ⟨[], .value⟩ =
      some ⟨[], .nothing document⟩ := leads_tokens document [] .value (.inl rfl) room
  rw [readWithin?, tokens?_render legible]
  simp only [Option.bind_eq_bind, Option.bind_some, read, Option.pure_def]

theorem readWithin?_render_of_isNarrow {limit : Option Nat} {document : Json}
    (narrow : document.AllScalars IsNarrow)
    (exact : ∀ number ∈ document.decimals, IsExact number)
    (room : Room limit 0 document.nesting) :
    readWithin? limit document.render = some document := by
  apply readWithin?_render _ room
  intro leaf member
  apply legible_of_isNarrow (narrow leaf member)
  intro number isDecimal
  subst isDecimal
  exact exact number (mem_decimals member)

end StagedResolver.Json
