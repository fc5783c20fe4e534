/-
Maps from optionals to optionals.

Such a map is the flattened map over an optional.  Of what is present it gives what its body
gives, and nothing where the body is abandoned.  Of what is absent it gives up, as anything
flattened does, and takes the expression around it along; a map over an optional gives
nothing there.
-/
import StagedResolver.Expression.Term
import StagedResolver.Proofs.Evaluation.Elements
import StagedResolver.Proofs.Expression.Lowered
import StagedResolver.Proofs.Expression.Typing

namespace StagedResolver

namespace Evaluation

variable {α β γ : Type}

private theorem andThen_ok (evaluation : Evaluation α) : evaluation.andThen ok = evaluation := by
  obtain ⟨sightings, outcome⟩ := evaluation
  cases outcome with
  | value result => simp only [andThen, ok, List.append_nil]
  | abandoned => rfl
  | failed error => rfl

private theorem andThen_assoc (first : Evaluation α) (next : α → Evaluation β)
    (last : β → Evaluation γ) :
    (first.andThen next).andThen last =
      first.andThen fun result => (next result).andThen last := by
  obtain ⟨sightings, outcome⟩ := first
  cases outcome with
  | value result =>
      simp only [andThen]
      cases (next result).outcome with
      | value further => simp only [List.append_assoc]
      | abandoned => rfl
      | failed error => rfl
  | abandoned => rfl
  | failed error => rfl

private theorem outcome_andThen {evaluation : Evaluation α} {result : α}
    (outcomeIs : evaluation.outcome = .value result) (next : α → Evaluation β) :
    (evaluation.andThen next).outcome = (next result).outcome := by
  simp only [andThen, outcomeIs]

private theorem andThen_abandoned_iff {evaluation : Evaluation α} {next : α → Evaluation β} :
    (evaluation.andThen next).outcome = .abandoned ↔
      evaluation.outcome = .abandoned ∨
        ∃ result, evaluation.outcome = .value result ∧ (next result).outcome = .abandoned := by
  obtain ⟨sightings, outcome⟩ := evaluation
  cases outcome with
  | value result =>
      constructor
      · exact fun later => .inr ⟨result, rfl, later⟩
      · rintro (impossible | ⟨_, same, later⟩)
        · cases impossible
        · cases same
          exact later
  | abandoned => exact ⟨fun _ => .inl rfl, fun _ => rfl⟩
  | failed error =>
      constructor
      · intro impossible
        cases impossible
      · rintro (impossible | ⟨_, impossible, _⟩)
        · cases impossible
        · cases impossible

private theorem forEach_not_abandoned {step : α → Evaluation β}
    (each : ∀ item, (step item).outcome ≠ .abandoned) (items : List α) :
    (forEach step items).outcome ≠ .abandoned := by
  induction items with
  | nil => exact nofun
  | cons item rest ih =>
      intro abandoned
      rcases andThen_abandoned_iff.mp abandoned with first | ⟨_, _, later⟩
      · exact each item first
      · rcases andThen_abandoned_iff.mp later with others | ⟨_, _, impossible⟩
        · exact ih others
        · cases impossible

private theorem orAbsent_not_abandoned (evaluation : Evaluation Value) :
    evaluation.orAbsent.outcome ≠ .abandoned := by
  obtain ⟨sightings, outcome⟩ := evaluation
  cases outcome with
  | _ => exact nofun

end Evaluation

private theorem Value.unwrap_abandoned_iff (value : Value) :
    value.unwrap.outcome = .abandoned ↔ value = .absent := by
  cases value with
  | absent => exact ⟨fun _ => rfl, fun _ => rfl⟩
  | _ => exact ⟨nofun, nofun⟩

/-- What mapping over a value and flattening what comes of it gives.  `each` says what becomes
of an element. -/
def Value.flatMapped (each : Value → Evaluation Value) : Value → Evaluation Value
  | .sequence items =>
      (Evaluation.forEach each items).andThen fun results => .ok (.sequence results)
  | .absent => .abandon
  | .present content => each content
  | other => (each other).andThen Value.unwrap

private theorem Value.mapContent_andThen_unwrap (each : Value → Evaluation Value) (value : Value) :
    (value.mapContent each).andThen Value.unwrap = value.flatMapped each := by
  cases value with
  | sequence items => exact Evaluation.andThen_assoc (Evaluation.forEach each items) _ _
  | absent => rfl
  | present content =>
      have assoc := Evaluation.andThen_assoc (each content)
        (fun result => Evaluation.ok (Value.present result)) Value.unwrap
      exact assoc.trans (Evaluation.andThen_ok (each content))
  | _ => rfl

/-- Besides at what is absent, only at a value that is neither optional nor a sequence can a
flattened map be given up: when nothing becomes of it. -/
theorem Value.flatMapped_abandoned_iff {each : Value → Evaluation Value}
    (noneAbandoned : ∀ element, (each element).outcome ≠ .abandoned) (value : Value) :
    (value.flatMapped each).outcome = .abandoned ↔
      value = .absent ∨ value.kind ≠ .optional ∧ value.kind ≠ .sequence ∧
        (each value).outcome = .value .absent := by
  cases value with
  | absent => exact ⟨fun _ => .inl rfl, fun _ => rfl⟩
  | present content =>
      constructor
      · exact fun abandoned => absurd abandoned (noneAbandoned content)
      · rintro (impossible | ⟨notOptional, _⟩)
        · cases impossible
        · exact absurd rfl notOptional
  | sequence items =>
      constructor
      · intro abandoned
        rcases Evaluation.andThen_abandoned_iff.mp abandoned with all | ⟨_, _, impossible⟩
        · exact absurd all (Evaluation.forEach_not_abandoned noneAbandoned items)
        · cases impossible
      · rintro (impossible | ⟨_, notSequence, _⟩)
        · cases impossible
        · exact absurd rfl notSequence
  | _ =>
      constructor
      · intro abandoned
        rcases Evaluation.andThen_abandoned_iff.mp abandoned with alone | ⟨_, resultIs, unwraps⟩
        · exact absurd alone (noneAbandoned _)
        · rw [(Value.unwrap_abandoned_iff _).mp unwraps] at resultIs
          exact .inr ⟨nofun, nofun, resultIs⟩
      · rintro (impossible | ⟨_, _, resultIs⟩)
        · cases impossible
        · exact Evaluation.outcome_andThen resultIs Value.unwrap

private theorem Expression.run_flatten_map (first second : Expression) (context : Context)
    (bound : List Value) :
    (Expression.flatten (.map first second)).run context bound =
      (first.run context bound).andThen (Value.flatMapped fun element =>
        (second.run context (element :: bound)).orAbsent) := by
  have assoc := Evaluation.andThen_assoc (first.run context bound)
    (fun value => value.mapContent fun element =>
      (second.run context (element :: bound)).orAbsent) Value.unwrap
  simp only [Value.mapContent_andThen_unwrap] at assoc
  exact assoc

/-! ### Terms -/

namespace Term

variable {elements : List ElementType} {scope : List BindingName} {source body : Term}
variable {first second : Expression}

private theorem lowerIn_mapSome (sourceLowers : (source.draftIn elements).lowerIn scope = .ok first)
    (bodyLowers : (body.draftIn (.ofType (source.typeIn elements).content :: elements)).lowerIn
      (elements.length :: scope) = .ok second) :
    ((mapSome source body).draftIn elements).lowerIn scope = .ok (.map first second) :=
  Draft.lowerIn_map_eq_ok.mpr ⟨first, sourceLowers, second, bodyLowers, rfl⟩

private theorem lowerIn_flatMap (sourceLowers : (source.draftIn elements).lowerIn scope = .ok first)
    (bodyLowers : (body.draftIn (.ofType (source.typeIn elements).content :: elements)).lowerIn
      (elements.length :: scope) = .ok second) :
    ((flatMap source body).draftIn elements).lowerIn scope =
      .ok (.flatten (.map first second)) :=
  Draft.lowerIn_flatten_eq_ok.mpr ⟨_, lowerIn_mapSome sourceLowers bodyLowers, rfl⟩

/-- Of what is present a map from optionals to optionals gives what its body gives, and nothing
where the body is abandoned.  It does not give up then, so that a comparison with it has a
result.  Of what is absent it gives up, together with whatever it is the first operand of,
where a map over optionals gives nothing.  Otherwise it gives up with its source only, or when
its body gives nothing for a source that is not an optional value at all. -/
theorem flatMap_binds (sourceLowers : (source.draftIn elements).lowerIn scope = .ok first)
    (bodyLowers : (body.draftIn (.ofType (source.typeIn elements).content :: elements)).lowerIn
      (elements.length :: scope) = .ok second) :
    ∃ flatMapped mapped : Expression,
      ((flatMap source body).draftIn elements).lowerIn scope = .ok flatMapped ∧
      ((mapSome source body).draftIn elements).lowerIn scope = .ok mapped ∧
      ∀ (context : Context) (bound : List Value),
        let sourced := (first.run context bound).outcome
        let each (element : Value) := (second.run context (element :: bound)).orAbsent.outcome
        (∀ content, sourced = .value (.present content) →
          (flatMapped.run context bound).outcome = each content ∧
            each content ≠ .abandoned ∧
            ∀ (other : Expression) (result compared : Value), each content = .value result →
              (other.run context bound).outcome = .value compared →
                ((Expression.binary .equal flatMapped other).run context bound).outcome =
                  .value (.bool (result.stripped == compared.stripped))) ∧
        (sourced = .value .absent →
          (mapped.run context bound).outcome = .value .absent ∧
            (flatMapped.run context bound).outcome = .abandoned ∧
            ∀ (operator : BinaryOperator) (other : Expression),
              ((Expression.binary operator flatMapped other).run context bound).outcome =
                .abandoned) ∧
        ((flatMapped.run context bound).outcome = .abandoned ↔
          sourced = .abandoned ∨ ∃ value, sourced = .value value ∧
            (value = .absent ∨ value.kind ≠ .optional ∧ value.kind ≠ .sequence ∧
              each value = .value .absent)) := by
  refine ⟨_, _, lowerIn_flatMap sourceLowers bodyLowers,
    lowerIn_mapSome sourceLowers bodyLowers, fun context bound => ?_⟩
  intro sourced each
  have noneAbandoned (element : Value) : each element ≠ .abandoned :=
    Evaluation.orAbsent_not_abandoned _
  have gives (value : Value) (sourcedIs : sourced = .value value) :
      ((Expression.flatten (.map first second)).run context bound).outcome =
        (value.flatMapped fun element =>
          (second.run context (element :: bound)).orAbsent).outcome := by
    rw [Expression.run_flatten_map]
    exact Evaluation.outcome_andThen sourcedIs _
  refine ⟨fun content sourcedIs => ?_, fun sourcedIs => ?_, ?_⟩
  · have present := gives _ sourcedIs
    refine ⟨present, noneAbandoned content, fun other result compared resultIs comparedIs => ?_⟩
    refine (Evaluation.outcome_andThen (present.trans resultIs) _).trans ?_
    exact Evaluation.outcome_andThen comparedIs _
  · have absent := gives _ sourcedIs
    refine ⟨Evaluation.outcome_andThen sourcedIs _, absent, fun operator other => ?_⟩
    exact Evaluation.andThen_abandoned_iff.mpr (.inl absent)
  · rw [Expression.run_flatten_map, Evaluation.andThen_abandoned_iff]
    simp only [Value.flatMapped_abandoned_iff noneAbandoned]
    rfl

def ofNext : Term := .step (.read .current [] .record) (.key "next") (.optional .record)

def ofCounted : Term :=
  .flatMap (.step (.element 0) (.key "count") (.optional .int))
    (.constant (.optional .int) (.present (.int 1)))

theorem flatMap_binds_ofNext :
    let next : Expression := .read ⟨.current, [.key "next"], .optional .record⟩
    let counted : Expression :=
      .flatten (.map (.read ⟨.element 0, [.key "count"], .optional .int⟩)
        (.constant (.present (.int 1))))
    let context : Context := .root (.record [("next", .record [("count", .null)])]) []
    ofNext.lower = .ok next ∧
      (flatMap ofNext ofCounted).lower = .ok (.flatten (.map next counted)) ∧
      (next.run context []).outcome = .value (.present (.record [("count", .null)])) ∧
      (counted.run context [.record [("count", .null)]]).outcome = .abandoned ∧
      ((Expression.flatten (.map next counted)).run context []).outcome = .value .absent ∧
      ((Expression.binary .equal (.flatten (.map next counted)) (.constant .absent)).run
        context []).outcome = .value (.bool true) := by
  intro next counted context
  obtain ⟨_, _, flatMapLowers, _, runs⟩ :=
    @flatMap_binds [] [] ofNext ofCounted next counted rfl rfl
  cases flatMapLowers
  obtain ⟨given, _, compares⟩ := (runs context []).1 (.record [("count", .null)]) rfl
  exact ⟨rfl, rfl, rfl, rfl, given, compares (.constant .absent) .absent .absent rfl rfl⟩

/-- What the comparison of a map from nothing to something with nothing comes to. -/
theorem flatMap_gives_up :
    let nothing : Term := .constant (.optional .int) .absent
    let one : Term := .constant (.optional .int) (.present (.int 1))
    let flatMapped : Term := .binary .equal (.flatMap nothing one) nothing
    let mapped : Term := .binary .equal (.mapSome nothing one) nothing
    Typed [] nothing (.optional .int) ∧ Typed [.int] one (.optional .int) ∧
      ∃ first second whole other : Expression,
        nothing.lower = .ok first ∧ (one.draftIn [.ofType .int]).lowerIn [0] = .ok second ∧
        flatMapped.lower = .ok whole ∧ mapped.lower = .ok other ∧
        ∀ context : Context,
          (first.evaluate .off context).result = .ok .absent ∧
            (first.run context []).outcome = .value .absent ∧
            (∀ element, (second.run context [element]).outcome = .value (.present (.int 1))) ∧
            (other.evaluate .off context).result = .ok (.bool true) ∧
            (whole.run context []).outcome = .abandoned ∧
            (whole.evaluate .off context).result = .ok .absent := by
  refine ⟨.constant (.option .int) (none : Option Int64) rfl,
    .constant (.option .int) (some (1 : Int64)) rfl, _, _, _, _, rfl, rfl, rfl, rfl, ?_⟩
  intro context
  exact ⟨rfl, rfl, fun element => rfl, rfl, rfl, rfl⟩

end Term

end StagedResolver
