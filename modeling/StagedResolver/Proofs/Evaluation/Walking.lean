/-
Where the walk of a lookup ends.

A walk goes on as long as the next step leads into something.  It ends with nothing where a
value on the way is null or absent below its present layers, or holds nothing at the next
step, and it stumbles over something of the wrong kind.  A lookup that does not stumble is
missing, or absent where that is allowed, when its walk ends with nothing or with a null or
absent value; null below a present layer alone is taken for a value.
-/
import StagedResolver.Proofs.Evaluation.Fault
import StagedResolver.Proofs.Value.Layers

namespace StagedResolver

namespace PathStep

def entered : PathStep → ValueKind
  | .key _ => .record
  | .index _ => .sequence

def heldAt? : PathStep → Value → Option Value
  | .key name, .record entries => Entries.find? name entries
  | .index position, .sequence items => items[position]?
  | _, _ => none

end PathStep

/-- Where the walk from a value ends. -/
inductive Leads : List PathStep → Value → Option Value → Prop where
  | here (value : Value) : Leads [] value (some value)
  | nothing {step : PathStep} {rest : List PathStep} {value : Value}
      (isNothing : value.stripped.isNothing = true) : Leads (step :: rest) value none
  | missing {step : PathStep} {rest : List PathStep} {value : Value}
      (enters : value.stripped.kind = step.entered)
      (missing : step.heldAt? value.stripped = none) : Leads (step :: rest) value none
  | onward {step : PathStep} {rest : List PathStep} {value held : Value}
      {found : Option Value} (holds : step.heldAt? value.stripped = some held)
      (leads : Leads rest held found) : Leads (step :: rest) value found

/-- Whether the walk from a value meets something of another kind than its next step leads
into. -/
inductive Stumbles : List PathStep → Value → Prop where
  | here {step : PathStep} {rest : List PathStep} {value : Value}
      (something : value.stripped.isNothing = false)
      (other : value.stripped.kind ≠ step.entered) : Stumbles (step :: rest) value
  | onward {step : PathStep} {rest : List PathStep} {value held : Value}
      (holds : step.heldAt? value.stripped = some held)
      (stumbles : Stumbles rest held) : Stumbles (step :: rest) value

namespace Lookup

variable {lookup : Lookup} {context : Context} {elements : List Value}
variable {segments rest : List PathStep} {value : Value} {found : Option Value}

private theorem follow_cons (lookup : Lookup) (step : PathStep) (rest : List PathStep)
    (value : Value) :
    lookup.follow (step :: rest) value =
      if value.stripped.isNothing then .ok none
      else if value.stripped.kind = step.entered then
        match step.heldAt? value.stripped with
        | some held => lookup.follow rest held
        | none => .ok none
      else .error (.stepMismatch lookup step.entered value.stripped.kind) := by
  by_cases isAbsent : value.stripped = .absent
  · rw [follow, Value.present?_eq_none isAbsent, isAbsent]
    rfl
  · have notOptional := Value.kind_stripped_ne_optional isAbsent
    rw [follow, Value.present?_eq_stripped isAbsent]
    generalize value.stripped = held at isAbsent notOptional ⊢
    cases held with
    | absent => exact absurd rfl isAbsent
    | present inner => exact absurd rfl notOptional
    | null => rfl
    | _ => cases step <;> rfl

theorem kind_of_heldAt? {step : PathStep} {held : Value}
    (holds : step.heldAt? value = some held) : value.kind = step.entered := by
  cases step with
  | key name =>
      cases value with
      | record entries => rfl
      | _ => cases holds
  | index position =>
      cases value with
      | sequence items => rfl
      | _ => cases holds

private theorem something_of_entered {step : PathStep} (enters : value.kind = step.entered) :
    value.isNothing = false := by
  cases value with
  | null | absent | present inner => cases step <;> cases enters
  | _ => rfl

private theorem follow_of_entered {step : PathStep} (enters : value.stripped.kind = step.entered) :
    lookup.follow (step :: rest) value =
      match step.heldAt? value.stripped with
      | some held => lookup.follow rest held
      | none => .ok none := by
  rw [follow_cons, something_of_entered enters, if_neg Bool.false_ne_true, if_pos enters]

private theorem follow_eq_ok_iff :
    lookup.follow segments value = .ok found ↔ Leads segments value found := by
  induction segments generalizing value with
  | nil =>
      constructor
      · intro same
        cases same
        exact .here value
      · intro leads
        cases leads
        rfl
  | cons step rest ih =>
      constructor
      · intro walked
        rw [follow_cons] at walked
        split at walked
        · rename_i isNothing
          cases walked
          exact .nothing isNothing
        · split at walked
          · rename_i enters
            split at walked
            · rename_i held holds
              exact .onward holds (ih.mp walked)
            · rename_i missing
              cases walked
              exact .missing enters missing
          · cases walked
      · intro leads
        cases leads with
        | nothing isNothing => rw [follow_cons, if_pos isNothing]
        | missing enters missing => rw [follow_of_entered enters, missing]
        | onward holds leads =>
            rw [follow_of_entered (kind_of_heldAt? holds), holds]
            exact ih.mpr leads

/-- A walk fails exactly when it stumbles. -/
theorem exists_follow_eq_error_iff :
    (∃ fault, lookup.follow segments value = .error fault) ↔ Stumbles segments value := by
  induction segments generalizing value with
  | nil =>
      constructor
      · rintro ⟨_, impossible⟩
        cases impossible
      · intro stumbles
        cases stumbles
  | cons step rest ih =>
      constructor
      · rintro ⟨fault, fails⟩
        rw [follow_cons] at fails
        split at fails
        · cases fails
        · rename_i something
          split at fails
          · split at fails
            · rename_i held holds
              exact .onward holds (ih.mp ⟨fault, fails⟩)
            · cases fails
          · rename_i other
            exact .here (Bool.eq_false_iff.mpr something) other
      · intro stumbles
        cases stumbles with
        | here something other =>
            rw [follow_cons, something, if_neg Bool.false_ne_true, if_neg other]
            exact ⟨_, rfl⟩
        | onward holds stumbles =>
            rw [follow_of_entered (kind_of_heldAt? holds), holds]
            exact ih.mpr stumbles

private theorem not_stumbles_iff :
    ¬ Stumbles segments value ↔ ∃ found, Leads segments value found := by
  rw [← @exists_follow_eq_error_iff ⟨.current, segments, .any⟩]
  cases walked : follow ⟨.current, segments, .any⟩ segments value with
  | ok found => exact ⟨fun _ => ⟨found, follow_eq_ok_iff.mp walked⟩, fun _ => nofun⟩
  | error fault =>
      constructor
      · exact fun level => absurd ⟨fault, rfl⟩ level
      · rintro ⟨found, leads⟩
        rw [follow_eq_ok_iff.mpr leads] at walked
        cases walked

/-- In a record a walk with at least one step is the walk from the value that it is. -/
theorem findInRecord_eq_findIn (hasSegments : lookup.segments ≠ []) (record : Record) :
    lookup.findInRecord record = lookup.findIn (.record record) := by
  rw [findInRecord, findIn]
  cases segmentsAre : lookup.segments with
  | nil => exact absurd segmentsAre hasSegments
  | cons step rest =>
      cases step with
      | key name => rfl
      | index position => rfl

def start? (lookup : Lookup) (context : Context) (elements : List Value) : Option Value :=
  match lookup.root with
  | .current => some context.current
  | .ancestor depth => (context.ancestor? depth).map Context.current
  | .arguments => some (.record context.arguments)
  | .environment => some (.record context.environment)
  | .element index => (elements ++ context.elements)[index]?

/-- Whether a lookup names the arguments or the environment and nothing in them. -/
def IsBareSlot (lookup : Lookup) : Prop :=
  (lookup.root = .arguments ∨ lookup.root = .environment) ∧ lookup.segments = []

/-- What the walk of a lookup finds in a context. -/
inductive Finds (lookup : Lookup) (context : Context) (elements : List Value) :
    Option Value → Prop where
  | outside {depth : Nat} (root : lookup.root = .ancestor depth)
      (outermost : context.ancestor? depth = none) : Finds lookup context elements none
  | slot (bare : lookup.IsBareSlot) : Finds lookup context elements none
  | walk {start : Value} {found : Option Value}
      (starts : lookup.start? context elements = some start) (notBare : ¬ lookup.IsBareSlot)
      (leads : Leads lookup.segments start found) : Finds lookup context elements found

private theorem find_eq_findIn {start : Value}
    (starts : lookup.start? context elements = some start)
    (notBare : ¬ lookup.IsBareSlot) : lookup.find context elements = lookup.findIn start := by
  obtain ⟨root, segments, expected⟩ := lookup
  cases root with
  | current =>
      cases starts
      rfl
  | ancestor depth =>
      obtain ⟨outer, isAncestor, rfl⟩ := Option.map_eq_some_iff.mp starts
      simp only [find, isAncestor]
  | arguments =>
      cases starts
      exact findInRecord_eq_findIn (fun noSegments => notBare ⟨.inl rfl, noSegments⟩) _
  | environment =>
      cases starts
      exact findInRecord_eq_findIn (fun noSegments => notBare ⟨.inr rfl, noSegments⟩) _
  | element index =>
      have isElement : (elements ++ context.elements)[index]? = some start := starts
      simp only [find, isElement]

private theorem find_of_isBareSlot (bare : lookup.IsBareSlot) :
    lookup.find context elements = .ok none := by
  obtain ⟨slot, noSegments⟩ := bare
  rcases slot with root | root
  · simp only [find, root, findInRecord, noSegments]
  · simp only [find, root, findInRecord, noSegments]

private theorem find_of_finds (finds : lookup.Finds context elements found) :
    lookup.find context elements = .ok found := by
  cases finds with
  | outside root outermost => simp only [find, root, outermost]
  | slot bare => exact find_of_isBareSlot bare
  | walk starts notBare leads =>
      rw [find_eq_findIn starts notBare]
      exact follow_eq_ok_iff.mpr leads

private theorem exists_finds
    (bound : ∀ index, lookup.root = .element index →
      index < (elements ++ context.elements).length)
    (level : ∀ start, lookup.start? context elements = some start →
      ¬ Stumbles lookup.segments start) :
    ∃ found, lookup.Finds context elements found := by
  by_cases bare : lookup.IsBareSlot
  · exact ⟨none, .slot bare⟩
  cases starts : lookup.start? context elements with
  | some start =>
      obtain ⟨found, leads⟩ := not_stumbles_iff.mp (level start starts)
      exact ⟨found, .walk starts bare leads⟩
  | none =>
      cases root : lookup.root with
      | ancestor depth =>
          simp only [start?, root, Option.map_eq_none_iff] at starts
          exact ⟨none, .outside root starts⟩
      | element index =>
          simp only [start?, root, List.getElem?_eq_none_iff] at starts
          exact absurd (bound index root) (Nat.not_lt.mpr starts)
      | _ =>
          simp only [start?, root] at starts
          cases starts

/-! ### What is nothing -/

theorem resolve_of_finds (finds : lookup.Finds context elements found) :
    lookup.resolve context elements = lookup.check found := by
  rw [resolve, find_of_finds finds]
  rfl

theorem check_of_nothing (nothing : found.all Value.isNothing = true) :
    lookup.check found =
      if lookup.expected.isOptional then .ok .absent else .error (.missingPath lookup) := by
  cases found with
  | none => rfl
  | some value =>
      have isNothing : value.isNothing = true := nothing
      simp only [check, isNothing, if_true]

/-- Null below a present layer passes for a value. -/
theorem check_of_presentNull {content : Value} (isNull : content.stripped = .null) :
    lookup.check (some (.present content)) =
      if lookup.expected.admits (.present content) then .ok (.present content)
      else .error (.pathMismatch lookup .null) := by
  obtain ⟨root, segments, expected⟩ := lookup
  have strippedIs : (Value.present content).stripped = .null := isNull
  have something : (Value.present content).isNothing = false := by
    show content.isAbsent = false
    rw [← content.isAbsent_stripped, isNull]
    rfl
  have presentIs : (Value.present content).present? = some .null := by
    rw [Value.present?_eq_stripped (by rw [strippedIs]; nofun), strippedIs]
  simp only [check, something, presentIs, Bool.false_eq_true, if_false, Option.getD_some]
  split
  · rename_i admitted
    cases expected with
    | any => rfl
    | optional inner => rfl
    | _ =>
        simp only [ValueType.admits, strippedIs] at admitted
        cases admitted
  · rfl

/-- A walk that does not stumble ends somewhere.  When that is with nothing, or with what is
null or absent below its present layers, the lookup is absent if its type allows that, and
missing otherwise; null below a present layer is an exception, which passes for a value of its
own and is checked against the type. -/
theorem resolve_of_nothing
    (bound : ∀ index, lookup.root = .element index →
      index < (elements ++ context.elements).length)
    (level : ∀ start, lookup.start? context elements = some start →
      ¬ Stumbles lookup.segments start) :
    (∃ found, lookup.Finds context elements found) ∧
      ∀ found, lookup.Finds context elements found →
        found.all (fun value => value.stripped.isNothing) = true →
          (found.all Value.isNothing = true ∧
            lookup.resolve context elements =
              if lookup.expected.isOptional then .ok .absent
              else .error (.missingPath lookup)) ∨
          ∃ content, found = some (.present content) ∧ content.stripped = .null ∧
            lookup.resolve context elements =
              if lookup.expected.admits (.present content) then .ok (.present content)
              else .error (.pathMismatch lookup .null) := by
  refine ⟨exists_finds bound level, fun found finds nothing => ?_⟩
  rw [resolve_of_finds finds]
  cases found with
  | none => exact .inl ⟨rfl, check_of_nothing rfl⟩
  | some value =>
      have below : value.stripped.isNothing = true := nothing
      cases isNothing : value.isNothing with
      | true => exact .inl ⟨isNothing, check_of_nothing isNothing⟩
      | false =>
          have notAbsent : value.isAbsent = false := (Bool.or_eq_false_iff.mp isNothing).2
          rcases Value.eq_of_isNothing below with isNull | isAbsent
          · cases value with
            | null => cases isNothing
            | present content => exact .inr ⟨content, rfl, isNull, check_of_presentNull isNull⟩
            | _ => cases isNull
          · rw [Value.isAbsent_of_stripped isAbsent] at notAbsent
            cases notAbsent

end Lookup

def Lookup.ofFirstPart : Lookup :=
  ⟨.element 0, [.key "rows", .index 0, .key "part"], .int⟩

def Value.ofNullRow : Value :=
  .record [("rows", .present (.sequence [.present .null, .record []]))]

namespace Lookup

theorem resolve_of_nothing_ofNullRow :
    let context : Context := .root .null []
    (∀ start, ofFirstPart.start? context [.ofNullRow] = some start →
        ¬ Stumbles ofFirstPart.segments start) ∧
      ofFirstPart.Finds context [.ofNullRow] none ∧
      ofFirstPart.resolve context [.ofNullRow] = .error (.missingPath ofFirstPart) := by
  intro context
  have leads : Leads ofFirstPart.segments .ofNullRow none :=
    (@follow_eq_ok_iff ofFirstPart _ _ _).mp rfl
  have level : ∀ start, ofFirstPart.start? context [.ofNullRow] = some start →
      ¬ Stumbles ofFirstPart.segments start := by
    intro start starts
    cases starts
    exact not_stumbles_iff.mpr ⟨none, leads⟩
  have bound : ∀ index, ofFirstPart.root = .element index →
      index < ([Value.ofNullRow] ++ context.elements).length := by
    intro index root
    cases root
    exact Nat.zero_lt_one
  obtain ⟨⟨found, finds⟩, resolves⟩ := resolve_of_nothing bound level
  cases (find_of_finds finds).symm.trans (rfl : ofFirstPart.find context [.ofNullRow] = .ok none)
  rcases resolves none finds rfl with ⟨_, resolved⟩ | ⟨_, impossible, _⟩
  · exact ⟨level, finds, resolved⟩
  · cases impossible

/-- Null below a present layer is nothing on the way to a part of it and a value at the end of
the way: one of the wrong type, or one that is kept. -/
theorem presentNull_is_kept :
    let context : Context := .root (.present .null) []
    (∀ expected, Finds ⟨.current, [], expected⟩ context [] (some (.present .null))) ∧
      (Value.present .null).stripped.isNothing = true ∧
      resolve ⟨.current, [.key "part"], .int⟩ context [] =
        .error (.missingPath ⟨.current, [.key "part"], .int⟩) ∧
      resolve ⟨.current, [], .int⟩ context [] =
        .error (.pathMismatch ⟨.current, [], .int⟩ .null) ∧
      resolve ⟨.current, [], .optional .int⟩ context [] =
        .error (.pathMismatch ⟨.current, [], .optional .int⟩ .null) ∧
      resolve ⟨.current, [], .any⟩ context [] = .ok (.present .null) ∧
      ¬ ∀ (lookup : Lookup) (context : Context) (elements : List Value) (found : Option Value),
        lookup.Finds context elements found →
          found.all (fun value => value.stripped.isNothing) = true →
            lookup.resolve context elements =
              if lookup.expected.isOptional then .ok .absent
              else .error (.missingPath lookup) := by
  intro context
  have finds (expected : ValueType) :
      Finds ⟨.current, [], expected⟩ context [] (some (.present .null)) :=
    .walk rfl (fun bare => by rcases bare.1 with root | root <;> cases root) (.here _)
  refine ⟨finds, rfl, rfl, rfl, rfl, rfl, fun claimed => ?_⟩
  cases claimed _ _ _ _ (finds .int) rfl

end Lookup

end StagedResolver
