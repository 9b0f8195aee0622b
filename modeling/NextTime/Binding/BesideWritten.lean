import NextTime.Binding.Commutes
import NextTime.Output.BindingPaths

/-
What bindings leave: each value at its target, and every written value where it was.
-/

namespace NextTime.Binding

open JsString (js)
open NextTime.Output

/-! ### Values at places -/

/-- The value at a place inside a value, along its own fields and its items. -/
def valueAt : List PlaceStep → Output.JsonValue → Option Output.JsonValue
  | [], value => some value
  | .field name :: rest, .obj members => (members.lookup name).bind (valueAt rest)
  | .item index :: rest, .arr items => items[index]?.bind (valueAt rest)
  | _ :: _, _ => none

theorem valueAt_field (name : JsString) (rest : List PlaceStep) (members : Members) :
    valueAt (.field name :: rest) (.obj members) =
      (members.lookup name).bind (valueAt rest) := rfl

/-- The place that a target names. -/
def placeOf (fields : List JsString) : List PlaceStep := fields.map .field

theorem prefix_of_placeOf {first second : List JsString}
    (before : placeOf first <+: placeOf second) : first <+: second := by
  induction first generalizing second with
  | nil => exact List.nil_prefix
  | cons field rest ih =>
      cases second with
      | nil => exact absurd (List.prefix_nil.mp before) (List.cons_ne_nil _ _)
      | cons field' rest' =>
          obtain ⟨same, inside⟩ := List.cons_prefix_cons.mp before
          cases same
          exact List.cons_prefix_cons.mpr ⟨rfl, ih inside⟩

/-- Nothing is written at the fields, nor anything but objects on the way there. -/
inductive Free : List JsString → Members → Prop
  | absent {field : JsString} {rest : List JsString} {target : Members}
      (missing : target.lookup field = none) : Free (field :: rest) target
  | inside {field : JsString} {rest : List JsString} {target inner : Members}
      (held : target.lookup field = some (.obj inner)) (free : Free rest inner) :
      Free (field :: rest) target

theorem not_free_nil {target : Members} : ¬Free [] target := nofun

theorem free_of_written {fields : List JsString} (some : fields ≠ []) :
    ∀ {before : List JsString} {target : Members}, writtenIn before target fields = none →
      Free fields target := by
  induction fields with
  | nil => contradiction
  | cons field rest ih =>
      intro before target unwritten
      rw [writtenIn] at unwritten
      cases held : target.lookup field with
      | none => exact .absent held
      | some value =>
          rw [held] at unwritten
          cases value with
          | obj members =>
              by_cases last : rest = []
              · simp [last] at unwritten
              · have more : rest.isEmpty = false := by simpa using last
                simp only [more, Bool.false_eq_true, if_false] at unwritten
                exact .inside held (ih last unwritten)
          | _ => contradiction

/-- A written value on the way to a free target is an object, and not at the target. -/
theorem Free.onTheWay {fields : List JsString} :
    ∀ {target : Members} {path : List PlaceStep} {held : Output.JsonValue}, Free fields target →
      valueAt path (.obj target) = some held → path <+: placeOf fields →
        (∃ members, held = .obj members) ∧ path ≠ placeOf fields := by
  induction fields with
  | nil => exact fun free => absurd free not_free_nil
  | cons field rest ih =>
      intro target path held free present before
      cases path with
      | nil =>
          cases present
          exact ⟨⟨target, rfl⟩, (List.cons_ne_nil _ _).symm⟩
      | cons step more =>
          obtain ⟨same, inside⟩ := List.cons_prefix_cons.mp before
          subst same
          rw [valueAt_field] at present
          cases free with
          | absent missing =>
              rw [missing] at present
              contradiction
          | inside inField free =>
              rw [inField] at present
              have here := ih free present inside
              constructor
              · exact here.1
              · intro equal
                exact here.2 (List.cons.inj equal).2

theorem Free.innerOf {field : JsString} {rest : List JsString} {target : Members}
    (free : Free (field :: rest) target) (more : rest ≠ []) :
    Free rest (innerOf target field) := by
  rw [Binding.innerOf]
  cases free with
  | absent missing =>
      rw [missing]
      cases rest with
      | nil => contradiction
      | cons => exact .absent rfl
  | inside held free =>
      rw [held]
      exact free

/-- A value put in beside a free target leaves it free. -/
theorem Free.placeAt {fields : List JsString} {value : Output.JsonValue} :
    ∀ {other : List JsString} {target : Members}, JsValue.Own (.obj target : Output.JsonValue) →
      Free fields target → Apart other fields → Free fields (placeAt target other value) := by
  induction fields with
  | nil => exact fun _ free => absurd free not_free_nil
  | cons field rest ih =>
      intro other target own free apart
      cases other with
      | nil => exact absurd rfl apart.more.1
      | cons field' rest' =>
          by_cases same : field = field'
          · subst same
            have more := apart.inside.more
            have held : (Binding.placeAt target (field :: rest') value).lookup field =
                some (.obj (Binding.placeAt (Binding.innerOf target field) rest' value)) := by
              rw [lookup_placeAt own.1.nodup, if_pos rfl, filled, if_neg more.1]
            exact .inside held (ih (own_innerOf own field) (free.innerOf more.2) apart.inside)
          · have kept : (Binding.placeAt target (field' :: rest') value).lookup field =
                target.lookup field := by
              rw [lookup_placeAt own.1.nodup, if_neg same]
            cases free with
            | absent missing => exact .absent (kept.trans missing)
            | inside held free => exact .inside (kept.trans held) free

/-- A value put in at a free target leaves every other value where it was. -/
theorem valueAt_placeAt {fields : List JsString} {value held : Output.JsonValue} :
    ∀ {target : Members} {path : List PlaceStep}, JsValue.Own (.obj target : Output.JsonValue) →
      Free fields target → valueAt path (.obj target) = some held → ¬path <+: placeOf fields →
        valueAt path (.obj (placeAt target fields value)) = some held := by
  induction fields with
  | nil => exact fun _ free => absurd free not_free_nil
  | cons field rest ih =>
      intro target path own free present aside
      cases path with
      | nil => exact absurd List.nil_prefix aside
      | cons step more =>
          cases step with
          | item index => contradiction
          | field name =>
              rw [valueAt_field] at present ⊢
              rw [lookup_placeAt own.1.nodup]
              by_cases same : name = field
              · subst same
                have inside : ¬more <+: placeOf rest := by
                  intro before
                  exact aside (List.cons_prefix_cons.mpr ⟨rfl, before⟩)
                cases free with
                | absent missing =>
                    rw [missing] at present
                    contradiction
                | @inside _ _ _ inner inField free =>
                    rw [inField] at present
                    have last : rest ≠ [] := by
                      rintro rfl
                      exact not_free_nil free
                    have here : innerOf target name = inner := by
                      rw [innerOf, inField]
                      rfl
                    have ownInner := own_innerOf own name
                    rw [here] at ownInner
                    rw [if_pos rfl, filled, if_neg last, here]
                    exact ih ownInner free present inside
              · rw [if_neg same]
                exact present

/-- A value put in at a target is there. -/
theorem valueAt_target {fields : List JsString} {value : Output.JsonValue} (some : fields ≠ []) :
    ∀ {target : Members}, JsValue.Own (.obj target : Output.JsonValue) →
      valueAt (placeOf fields) (.obj (placeAt target fields value)) = .some value := by
  induction fields with
  | nil => contradiction
  | cons field rest ih =>
      intro target own
      rw [placeOf, List.map_cons, valueAt_field, lookup_placeAt own.1.nodup, if_pos rfl, filled]
      by_cases last : rest = []
      · rw [if_pos last, last]
        rfl
      · rw [if_neg last]
        exact ih last (own_innerOf own field)

/-! ### All the values of a step -/

/-- The fields at which a value goes in. -/
def targetOf (taken : StepBinding × Output.JsonValue) : List JsString := fieldsOf taken.1.to'

theorem targetOf_ne_nil (taken : StepBinding × Output.JsonValue) : targetOf taken ≠ [] :=
  List.splitOn_ne_nil _ _

/-- Values that can be put in beside one another and beside what is written. -/
structure Fits (order : List (StepBinding × Output.JsonValue)) (target : Members) : Prop where
  own : JsValue.Own (.obj target : Output.JsonValue)
  values : ∀ taken ∈ order, JsValue.Own taken.2
  free : ∀ taken ∈ order, Free (targetOf taken) target
  apart : order.Pairwise fun first second => Apart (targetOf first) (targetOf second)

theorem Fits.place {taken : StepBinding × Output.JsonValue}
    {order : List (StepBinding × Output.JsonValue)}
    {target : Members} (fits : Fits (taken :: order) target) :
    Fits order (placeAt target (targetOf taken) taken.2) where
  own := own_placeAt fits.own (fits.values taken List.mem_cons_self)
  values other member := fits.values other (List.mem_cons_of_mem _ member)
  free other member := (fits.free other (List.mem_cons_of_mem _ member)).placeAt fits.own
    ((List.pairwise_cons.mp fits.apart).1 other member)
  apart := fits.apart.of_cons

theorem Fits.keeps {order : List (StepBinding × Output.JsonValue)} {path : List PlaceStep}
    {held : Output.JsonValue} :
    ∀ {target : Members}, Fits order target → valueAt path (.obj target) = some held →
      (∀ taken ∈ order, ¬path <+: placeOf (targetOf taken)) →
        valueAt path (order.foldl placeTaken (.obj target)) = some held := by
  induction order with
  | nil => exact fun _ present _ => present
  | cons taken rest ih =>
      intro target fits present aside
      apply ih fits.place
      · exact valueAt_placeAt fits.own (fits.free taken List.mem_cons_self) present
          (aside taken List.mem_cons_self)
      · exact fun other member => aside other (List.mem_cons_of_mem _ member)

theorem Fits.puts {order : List (StepBinding × Output.JsonValue)} :
    ∀ {target : Members}, Fits order target → ∀ taken ∈ order,
      valueAt (placeOf (targetOf taken)) (order.foldl placeTaken (.obj target)) =
        some taken.2 := by
  induction order with
  | nil => exact fun _ _ member => nomatch member
  | cons first rest ih =>
      intro target fits taken member
      cases List.mem_cons.mp member with
      | inl same =>
          subst same
          apply fits.place.keeps
          · exact valueAt_target (targetOf_ne_nil taken) fits.own
          · intro other inRest before
            have apart := (List.pairwise_cons.mp fits.apart).1 other inRest
            exact apart.notBefore (prefix_of_placeOf before)
      | inr inRest => exact ih fits.place taken inRest

theorem Fits.perm {order other : List (StepBinding × Output.JsonValue)} {target : Members}
    (fits : Fits order target) (perm : order.Perm other) : Fits other target where
  own := fits.own
  values taken member := fits.values taken (perm.mem_iff.mpr member)
  free taken member := fits.free taken (perm.mem_iff.mpr member)
  apart := (perm.pairwise_iff Apart.symm).mp fits.apart

/-- In any order the values lead to the same input. -/
theorem Fits.commute {order other : List (StepBinding × Output.JsonValue)} {target : Members}
    (fits : Fits order target) (perm : order.Perm other) :
    JsonEqual (order.foldl placeTaken (.obj target)) (other.foldl placeTaken (.obj target)) := by
  apply @FoldUpTo.foldl_perm Output.JsonValue (StepBinding × Output.JsonValue) placeTaken
    JsValue.Own JsonEqual
    (fun taken => JsValue.Own taken.2)
    (fun first second => Apart (targetOf first) (targetOf second))
  · exact fun own ownValue => own_placeAt (own_recordOf own) ownValue
  · exact fun own => jsonEqual_refl _ own
  · exact jsonEqual_trans
  · exact fun ownFirst ownSecond ownValue equal => placeAt_congr ownValue (own_recordOf ownFirst)
      (own_recordOf ownSecond) (recordOf_congr equal)
  · exact fun own ownFirst ownSecond apart => placeAt_swap ownFirst ownSecond (own_recordOf own)
      apart
  · exact Apart.symm
  · exact perm
  · exact fits.values
  · exact fits.apart
  · exact fits.own

/-! ### What acceptance gives -/

theorem joined_append {separator : UInt16} {first second : List JsString}
    (some : first ≠ []) (more : second ≠ []) :
    [separator].intercalate (first ++ second) =
      [separator].intercalate first ++ separator :: [separator].intercalate second := by
  induction first with
  | nil => contradiction
  | cons part rest ih =>
      by_cases last : rest = []
      · subst last
        rw [List.singleton_append, List.intercalate_cons_of_ne_nil more]
        simp
      · rw [List.cons_append, List.intercalate_cons_of_ne_nil (by simp [last]),
          List.intercalate_cons_of_ne_nil last, ih last]
        simp

/-- A target whose fields begin those of another is that target or stands in front of a
dot in it. -/
theorem starts_of_prefix {first second : JsString} (before : fieldsOf first <+: fieldsOf second) :
    first = second ∨ (first ++ js ".").isPrefixOf second = true := by
  rcases before with ⟨more, whole⟩
  have text : [0x2E].intercalate (fieldsOf second) = second := List.intercalate_splitOn 0x2E
  rw [← whole] at text
  by_cases last : more = []
  · left
    rw [last, List.append_nil] at text
    exact (List.intercalate_splitOn 0x2E).symm.trans text
  · right
    have some : fieldsOf first ≠ [] := List.splitOn_ne_nil _ _
    rw [joined_append some last] at text
    rw [List.isPrefixOf_iff_prefix, ← text]
    refine ⟨[0x2E].intercalate more, ?_⟩
    have front : [0x2E].intercalate (fieldsOf first) = first := List.intercalate_splitOn 0x2E
    rw [front]
    simp [js]

theorem apart_of_overlap {first second : StepBinding}
    (beside : bindingTargetsOverlap first second = false) :
    Apart (fieldsOf first.to') (fieldsOf second.to') := by
  simp only [bindingTargetsOverlap, Bool.or_eq_false_iff, beq_eq_false_iff_ne] at beside
  rcases beside with ⟨⟨different, notBehind⟩, notBefore⟩
  constructor
  · intro before
    rcases starts_of_prefix before with same | starts
    · exact different same
    · rw [starts] at notBefore
      contradiction
  · intro behind
    rcases starts_of_prefix behind with same | starts
    · exact different same.symm
    · rw [starts] at notBehind
      contradiction

section
variable {compilePath : CompilePath} {steps : JsString → Option PlanStep} {step : PlanStep}

theorem overlapProblems_nil {where' : JsString} {before : List StepBinding}
    {binding : StepBinding} (none : overlapProblems where' before binding = []) :
    ∀ other ∈ before, bindingTargetsOverlap other binding = false := by
  rw [overlapProblems] at none
  split at none
  next found => exact List.findIdx?_eq_none_iff.mp found
  next => contradiction

/-- Bindings without problems are beside those before them, beside one another and beside
what is written. -/
theorem bindingProblemsFrom_nil {bindings : List StepBinding} :
    ∀ {before : List StepBinding}, bindingProblemsFrom compilePath steps step before bindings = [] →
      (∀ other ∈ before, ∀ binding ∈ bindings, bindingTargetsOverlap other binding = false) ∧
        bindings.Pairwise (fun first second => bindingTargetsOverlap first second = false) ∧
          ∀ binding ∈ bindings, ∃ where', writtenProblems step where' binding = [] := by
  induction bindings with
  | nil => simp
  | cons binding rest ih =>
      intro before none
      simp only [bindingProblemsFrom, List.append_eq_nil_iff] at none
      rcases none with ⟨⟨⟨_, overlaps⟩, written⟩, others⟩
      rcases ih others with ⟨fromBefore, pairwise, unwritten⟩
      have beside := overlapProblems_nil overlaps
      constructor
      · intro other member later inBindings
        cases List.mem_cons.mp inBindings with
        | inl same =>
            rw [same]
            exact beside other member
        | inr inRest => exact fromBefore other (List.mem_append_left _ member) later inRest
      constructor
      · rw [List.pairwise_cons]
        constructor
        · intro later inRest
          exact fromBefore binding (List.mem_append_right _ List.mem_cons_self) later inRest
        · exact pairwise
      · rw [List.forall_mem_cons]
        exact ⟨⟨_, written⟩, unwritten⟩

theorem written_none {where' : JsString} {binding : StepBinding} {members : Members}
    (isObject : step.input = some (.obj members))
    (none : writtenProblems step where' binding = []) :
    writtenValueAt members binding.to' = .none := by
  rw [writtenProblems, isObject] at none
  simp only at none
  split at none
  next => contradiction
  next unwritten => exact unwritten

/-- The values a step's bindings take fit its input, an object, in the order of the plan. -/
theorem AcceptedStep.fits (accepted : AcceptedStep compilePath steps step)
    (some : step.bindings.getD [] ≠ []) {values : List Output.JsonValue}
    (size : values.length = (step.bindings.getD []).length)
    (own : ∀ value ∈ values, JsValue.Own value) :
    ∃ target, writtenInput step = .obj target ∧
      Fits ((step.bindings.getD []).zip values) target := by
  have sound := accepted.sound
  rw [bindingProblems] at sound
  split at sound
  next nothing => exact absurd nothing some
  next bindings =>
    simp only [List.append_eq_nil_iff] at sound
    rcases bindingProblemsFrom_nil sound.2 with ⟨_, pairwise, unwritten⟩
    have apart : ((step.bindings.getD []).zip values).Pairwise
        fun first second => Apart (targetOf first) (targetOf second) := by
      have names : ((step.bindings.getD []).zip values).map Prod.fst = step.bindings.getD [] :=
        List.map_fst_zip (by omega)
      rw [← names, List.pairwise_map] at pairwise
      exact pairwise.imp apart_of_overlap
    have fits : ∀ target, JsValue.Own (.obj target : Output.JsonValue) →
        (∀ binding ∈ step.bindings.getD [], Free (fieldsOf binding.to') target) →
          Fits ((step.bindings.getD []).zip values) target := by
      intro target ownTarget free
      constructor
      · exact ownTarget
      · exact fun taken member => own taken.2 (List.of_mem_zip member).2
      · exact fun taken member => free taken.1 (List.of_mem_zip member).1
      · exact apart
    cases input : step.input with
    | none =>
        refine ⟨[], by rw [writtenInput, input]; rfl, fits [] own_nothing ?_⟩
        intro binding _
        have more : fieldsOf binding.to' ≠ [] := List.splitOn_ne_nil _ _
        cases fields : fieldsOf binding.to' with
        | nil => contradiction
        | cons field rest => exact .absent rfl
    | some value =>
        cases value with
        | obj members =>
            refine ⟨members, by rw [writtenInput, input]; rfl,
              fits members (accepted.json _ (by rw [input]; rfl)) ?_⟩
            intro binding member
            rcases unwritten binding member with ⟨_, none⟩
            exact free_of_written (List.splitOn_ne_nil _ _) (written_none input none)
        | _ =>
            have problem := sound.1
            rw [inputProblems, input] at problem
            contradiction

/-- Bindings of an accepted step never overwrite and commute. Folded in any order over the
written input they lead to equal inputs; each value stands at its binding's target; and
what was written and is not an object on the way to a target is where it was. -/
theorem bindings_commute (accepted : AcceptedStep compilePath steps step)
    {values : List Output.JsonValue} (size : values.length = (step.bindings.getD []).length)
    (own : ∀ value ∈ values, JsValue.Own value) {order other : List (StepBinding × Output.JsonValue)}
    (perm : order.Perm ((step.bindings.getD []).zip values))
    (perm' : other.Perm ((step.bindings.getD []).zip values)) :
    JsonEqual (order.foldl placeTaken (writtenInput step))
        (other.foldl placeTaken (writtenInput step)) ∧
      (∀ taken ∈ (step.bindings.getD []).zip values,
        valueAt (placeOf (fieldsOf taken.1.to')) (order.foldl placeTaken (writtenInput step)) =
          some taken.2) ∧
      ∀ (path : List PlaceStep) (held : Output.JsonValue), step.input.bind (valueAt path) = some held →
        ¬((∃ members, held = .obj members) ∧ ∃ binding ∈ step.bindings.getD [],
          path <+: placeOf (fieldsOf binding.to') ∧ path ≠ placeOf (fieldsOf binding.to')) →
        valueAt path (order.foldl placeTaken (writtenInput step)) = some held := by
  by_cases nothing : step.bindings.getD [] = []
  · -- No bindings: the input is as written.
    rw [nothing, List.zip_nil_left] at perm perm'
    rw [List.perm_nil.mp perm, List.perm_nil.mp perm', nothing]
    have ownInput : JsValue.Own (writtenInput step) := by
      rw [writtenInput]
      cases input : step.input with
      | none => exact own_nothing
      | some value => exact accepted.json value (by rw [input]; rfl)
    constructor
    · exact jsonEqual_refl _ ownInput
    constructor
    · exact fun _ member => nomatch member
    · intro path held present _
      rcases Option.bind_eq_some_iff.mp present with ⟨value, input, atPath⟩
      rw [List.foldl_nil, writtenInput, input]
      exact atPath
  · rcases accepted.fits nothing size own with ⟨target, start, fits⟩
    have ordered := fits.perm perm.symm
    rw [start]
    constructor
    · exact ordered.commute (perm.trans perm'.symm)
    constructor
    · intro taken member
      exact ordered.puts taken (perm.mem_iff.mpr member)
    · intro path held present aside
      rcases Option.bind_eq_some_iff.mp present with ⟨value, input, atPath⟩
      have same : value = .obj target := by
        rw [← start, writtenInput, input]
        rfl
      subst same
      apply ordered.keeps atPath
      intro taken member before
      have held := (ordered.free taken member).onTheWay atPath before
      apply aside
      constructor
      · exact held.1
      · exact ⟨taken.1, (List.of_mem_zip (perm.mem_iff.mp member)).1, before, held.2⟩

end

/-- A step that takes a state twice from the step before it, beside a zone it names. -/
def connectStep : PlanStep where
  key := js "connect"
  input := some (.obj [(js "target", .obj [(js "zone", .num 1)])])
  dependsOn := some [js "scan"]
  outputSchema := none
  bindings := some [⟨js "target.host", js "scan", js "state"⟩, ⟨js "label", js "scan", js "state"⟩]

def scanStep : PlanStep where
  key := js "scan"
  input := none
  dependsOn := none
  outputSchema := some stateSchema
  bindings := none

def scanned (key : JsString) : Option PlanStep := if key = js "scan" then some scanStep else none

theorem connectStep_accepted : AcceptedStep fieldPaths.compile scanned connectStep where
  few := by decide +kernel
  targets := by decide +kernel
  json := by
    rintro input ⟨⟩
    have single : ∀ key : JsString, ([key] : List JsString).Nodup := fun _ => by simp
    exact ⟨⟨single _, List.pairwise_singleton _ _⟩,
      ⟨⟨single _, List.pairwise_singleton _ _⟩, trivial, trivial⟩, trivial⟩
  sound := by decide +kernel

theorem bindings_commute_connect :
    valueAt [.field (js "target"), .field (js "zone")]
        ([(⟨js "label", js "scan", js "state"⟩, .str (js "up")),
          (⟨js "target.host", js "scan", js "state"⟩, .str (js "web"))].foldl placeTaken
            (writtenInput connectStep)) = some (.num 1) := by
  have own : ∀ value ∈ ([.str (js "web"), .str (js "up")] : List Output.JsonValue),
      JsValue.Own value := by
    intro value member
    rcases List.mem_cons.mp member with rfl | member
    · trivial
    · cases List.mem_singleton.mp member
      trivial
  have commutes := @bindings_commute _ _ _ connectStep_accepted [.str (js "web"), .str (js "up")]
    rfl own _ _ (List.Perm.swap _ _ _) (List.Perm.refl _)
  apply commutes.2.2
  · rfl
  · rintro ⟨⟨members, isObject⟩, _⟩
    cases isObject

end NextTime.Binding
