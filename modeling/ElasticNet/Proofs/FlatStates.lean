import ElasticNet.Proofs.Fields
import ElasticNet.Proofs.Reliable

namespace ElasticNet

structure Slots.OfDimension {α : Type} [Scalar α] (dimension : UInt32) (size : ℕ)
    (slots : Slots α) : Prop where
  length : slots.length = size
  first : ∃ number, Slots.read slots 0 = .ok number ∧ Scalar.toUInt32 number = dimension

theorem Slots.locate_eq_ok {α : Type} [Scalar α] {fields : UInt32 → List Field}
    {types : List FieldType} (last : types.getLast? = some .code) {slots : Slots α} {number : α}
    (first : Slots.read slots 0 = .ok number)
    (placed : fields (Scalar.toUInt32 number) =
      Field.consecutive (Scalar.toUInt32 number).toNat 0 types)
    (length : slots.length = FieldType.span (Scalar.toUInt32 number).toNat types) :
    Slots.locate (fun dimension => (fields dimension).map Field.place) slots =
      .ok (Scalar.toUInt32 number) := by
  have inside : ((fields (Scalar.toUInt32 number)).map Field.place).all
      (· < slots.length) = true := by
    rw [List.all_eq_true]
    intro place given
    obtain ⟨field, member, rfl⟩ := List.mem_map.mp given
    rw [placed] at member
    rw [length, decide_eq_true_eq]
    exact Field.place_lt_of_mem last rfl member
  unfold Slots.locate
  rw [first]
  exact if_pos inside

/-- The flat states of an optimizer by their fields, and the slots that are renewed when a pass
    begins at the strength of a state. -/
structure FlatStates (α σ : Type) where
  optimizer : Optimizer α
  layout : Layout α σ
  fields : UInt32 → List Field
  size : UInt32 → ℕ
  blocks : σ → List (List α)
  strength : σ → α
  status : σ → α
  renewed : UInt32 → σ → List ℕ

namespace FlatStates

variable {α σ : Type} [Scalar α]

/-- What some slots show of a state: all of its fields, with the status in the last slot, and the
    beginning of a pass at its strength. -/
structure Shows (states : FlatStates α σ) (dimension : UInt32) (slots : Slots α) (state : σ) :
    Prop where
  located : Slots.locate (fun dimension => (states.fields dimension).map Field.place) slots =
    .ok dimension
  read : states.layout.read slots = some (state, [])
  write : states.layout.write state = slots
  blocks : (states.fields dimension).map (Field.block dimension.toNat slots) = states.blocks state
  status : slots.status = .ok (.ofSlot (states.status state))
  begins : ∀ context : StepContext α, (states.strength state != context.strength) = false →
    ∃ after, states.optimizer.begin (some slots) context = .ok after ∧
      after.length = slots.length ∧
      ∀ slot ∉ states.renewed dimension state, after[slot]? = slots[slot]?

structure Sound (states : FlatStates α σ) (dimension : UInt32) : Prop where
  lossless : Lossless α dimension.toNat (states.size dimension) (states.fields dimension)
  last : (states.fields dimension).getLast? = some ⟨states.size dimension - 1, .code⟩
  shows : ∀ slots : Slots α, slots.OfDimension dimension (states.size dimension) →
    ∃ state, states.Shows dimension slots state

/-- States with one field after the other, placed where words count them, and a kind of them that
    fills the fields. The beginning of a pass puts other blocks in place of those it renews. -/
structure LaidOut (states : FlatStates α σ) (types : List FieldType) (Sized : ℕ → σ → Prop) :
    Prop where
  last : types.getLast? = some .code
  fields : ∀ dimension, states.fields dimension =
    List.zipWith Field.mk (FieldType.wordPlaces dimension 0 types) types
  size : ∀ dimension, states.size dimension = (FieldType.wordSpan dimension types).toNat
  write : ∀ state, states.layout.write state = (states.blocks state).flatten
  readsBack : ∀ {count state}, Sized count state → states.layout.ReadsBack state
  shaped : ∀ {count state}, Sized count state → Field.Shaped count types (states.blocks state)
  exists_state : ∀ {number blocks}, Field.Shaped (Scalar.toUInt32 number).toNat types blocks →
    Slots.read blocks.flatten 0 = .ok number →
      ∃ state, Sized (Scalar.toUInt32 number).toNat state ∧ states.blocks state = blocks
  status : ∀ state,
    Slots.status (states.layout.write state) = .ok (.ofSlot (states.status state))
  begins : ∀ {dimension : UInt32} {state}, Sized dimension.toNat state →
    ∀ context : StepContext α, (states.strength state != context.strength) = false →
      ∃ begun changes, Sized dimension.toNat begun ∧
        states.optimizer.begin (some (states.layout.write state)) context =
          .ok (states.layout.write begun) ∧
        states.blocks begun = Field.renewed (states.blocks state) changes ∧
        ∀ slot ∉ states.renewed dimension state, ∀ change ∈ changes,
          ∃ field, (states.fields dimension)[change.1]? = some field ∧
            change.2.length = field.type.width dimension.toNat ∧
            slot ∉ field.slots dimension.toNat

namespace LaidOut

variable {states : FlatStates α σ} {types : List FieldType} {Sized : ℕ → σ → Prop}
  (laid : states.LaidOut types Sized) {dimension : UInt32}
  (fits : FieldType.span dimension.toNat types < UInt32.size)
include laid fits

theorem fields_eq : states.fields dimension = Field.consecutive dimension.toNat 0 types := by
  rw [laid.fields]
  exact Field.zipWith_wordPlaces (by rwa [UInt32.toNat_zero, Nat.zero_add])

theorem size_eq : states.size dimension = FieldType.span dimension.toNat types := by
  rw [laid.size, FieldType.toNat_wordSpan fits]

theorem shows {slots : Slots α} (given : slots.OfDimension dimension (states.size dimension)) :
    ∃ state, states.Shows dimension slots state := by
  obtain ⟨length, number, first, rfl⟩ := given
  rw [laid.size_eq fits] at length
  obtain ⟨blocks, shaped, rfl⟩ := Field.exists_blocks types length
  obtain ⟨state, sized, rfl⟩ := laid.exists_state shaped first
  have placed := laid.fields_eq fits
  rw [← laid.write] at first length ⊢
  refine ⟨state, Slots.locate_eq_ok laid.last first placed length, (laid.readsBack sized).read, rfl,
    ?_, laid.status state, ?_⟩
  · rw [placed, laid.write]
    exact Field.map_block_consecutive [] shaped
  · intro context same
    obtain ⟨begun, changes, next, begins, blocks, apart⟩ := laid.begins sized context same
    refine ⟨_, begins, ?_, fun slot outside => ?_⟩
    · rw [length, laid.write, (laid.shaped next).length_flatten]
    · rw [laid.write, laid.write, blocks]
      apply Field.getElem?_flatten_renewed shaped
      rw [← placed]
      exact apart slot outside

theorem sound [Scalar.KeepsCodes α] : states.Sound dimension := by
  have placed := laid.fields_eq fits
  have size := laid.size_eq fits
  refine ⟨?_, ?_, fun _ => laid.shows fits⟩
  · rw [placed, size]
    exact lossless_consecutive _ _
  · rw [placed, size]
    exact Field.getLast?_consecutive laid.last rfl

end LaidOut

end FlatStates

variable {α : Type} [Scalar α]

namespace Igd

def types : List FieldType :=
  [.word, .number, .number, .number, .number, .number, .count, .vector, .number, .number, .number,
    .vector, .vector, .number, .count, .number, .code]

def fields (dimension : UInt32) : List Field :=
  List.zipWith Field.mk (Place.all dimension) types

def State.blocks (state : State α) : List (List α) :=
  [[state.dimension], [state.mixing], [state.threshold], [state.stepDecay], [state.exponent],
    [state.dualExponent], [state.totalRows], state.means, [state.responseMean], [state.strength],
    [state.stepSize], state.coefficients, state.dual, [state.intercept], [state.rows],
    [state.logLikelihood], [state.status]]

def renewed (dimension : UInt32) : List ℕ :=
  [Place.rows dimension, Place.logLikelihood dimension, Place.status dimension]

def flatStates (family : Family) : FlatStates α (State α) where
  optimizer := optimizer family
  layout := layout
  fields := fields
  size := Place.size
  blocks := State.blocks
  strength := State.strength
  status := State.status
  renewed dimension _ := renewed dimension

theorem span_types (dimension : ℕ) : FieldType.span dimension types = slotCount dimension := by
  unfold slotCount types
  simp only [FieldType.span, FieldType.width]
  omega

theorem places_eq (dimension : UInt32) :
    Place.all dimension = FieldType.wordPlaces dimension 0 types := by
  unfold types
  simp only [FieldType.wordPlaces, FieldType.wordWidth, Place.all, Place.stepDecay, Place.strength,
    Place.stepSize, Place.coefficients, Place.intercept, Place.rows, Place.logLikelihood,
    Place.status]
  simp only [UInt32.reduceAdd, UInt32.reduceToNat, List.cons.injEq, UInt32.toNat_inj, true_and,
    and_true]
  grind

theorem write_eq_flatten (state : State α) : layout.write state = state.blocks.flatten := by
  change writeState state = _
  unfold writeState State.blocks
  simp

theorem State.Sized.shaped {count : ℕ} {state : State α} (sized : state.Sized count) :
    Field.Shaped count types state.blocks := by
  obtain ⟨-, means, coefficients, dual⟩ := sized
  unfold Field.Shaped types State.blocks
  simp only [List.forall₂_cons, List.Forall₂.nil, FieldType.width, List.length_singleton, means,
    coefficients, dual, and_self]

theorem exists_state {number : α} {blocks : List (List α)}
    (shaped : Field.Shaped (Scalar.toUInt32 number).toNat types blocks)
    (first : Slots.read blocks.flatten 0 = .ok number) :
    ∃ state : State α, state.Sized (Scalar.toUInt32 number).toNat ∧ state.blocks = blocks := by
  obtain ⟨dimension, _, _, shaped⟩ := shaped.exists_number rfl
  obtain ⟨mixing, _, _, shaped⟩ := shaped.exists_number rfl
  obtain ⟨threshold, _, _, shaped⟩ := shaped.exists_number rfl
  obtain ⟨stepDecay, _, _, shaped⟩ := shaped.exists_number rfl
  obtain ⟨exponent, _, _, shaped⟩ := shaped.exists_number rfl
  obtain ⟨dualExponent, _, _, shaped⟩ := shaped.exists_number rfl
  obtain ⟨totalRows, _, _, shaped⟩ := shaped.exists_number rfl
  obtain ⟨means, _, _, meansLength, shaped⟩ := shaped.exists_vector
  obtain ⟨responseMean, _, _, shaped⟩ := shaped.exists_number rfl
  obtain ⟨strength, _, _, shaped⟩ := shaped.exists_number rfl
  obtain ⟨stepSize, _, _, shaped⟩ := shaped.exists_number rfl
  obtain ⟨coefficients, _, _, coefficientsLength, shaped⟩ := shaped.exists_vector
  obtain ⟨dual, _, _, dualLength, shaped⟩ := shaped.exists_vector
  obtain ⟨intercept, _, _, shaped⟩ := shaped.exists_number rfl
  obtain ⟨rows, _, _, shaped⟩ := shaped.exists_number rfl
  obtain ⟨logLikelihood, _, _, shaped⟩ := shaped.exists_number rfl
  obtain ⟨status, _, _, shaped⟩ := shaped.exists_number rfl
  cases List.forall₂_nil_left_iff.mp shaped
  subst_vars
  obtain rfl : dimension = number := Except.ok.inj first
  exact ⟨{ dimension, mixing, threshold, stepDecay, exponent, dualExponent, totalRows, means,
            responseMean, strength, stepSize, coefficients, dual, intercept, rows, logLikelihood,
            status }, ⟨rfl, meansLength, coefficientsLength, dualLength⟩, rfl⟩

def changes : List (ℕ × List α) :=
  [(14, [0]), (15, [0]), (16, [Status.inProcess.slot])]

theorem blocks_begin {state : State α} {context : StepContext α}
    (same : (state.strength != context.strength) = false) :
    (state.begin context).blocks = Field.renewed state.blocks changes := by
  unfold State.begin
  rw [same]
  rfl

theorem apart_of_changes {dimension : UInt32} {slot : ℕ} (outside : slot ∉ renewed dimension) :
    ∀ change ∈ (changes : List (ℕ × List α)), ∃ field,
      (fields dimension)[change.1]? = some field ∧
        change.2.length = field.type.width dimension.toNat ∧
        slot ∉ field.slots dimension.toNat := by
  simp only [renewed, List.mem_cons, List.not_mem_nil, or_false, not_or] at outside
  obtain ⟨notRows, notLogLikelihood, notStatus⟩ := outside
  unfold changes
  simp only [List.forall_mem_cons]
  exact ⟨⟨_, rfl, rfl, (Field.mem_slots_of_width rfl slot).not.mpr notRows⟩,
    ⟨_, rfl, rfl, (Field.mem_slots_of_width rfl slot).not.mpr notLogLikelihood⟩,
    ⟨_, rfl, rfl, (Field.mem_slots_of_width rfl slot).not.mpr notStatus⟩, nofun⟩

theorem laidOut (family : Family) :
    (flatStates family : FlatStates α (State α)).LaidOut types fun count state =>
      state.Sized count where
  last := rfl
  fields dimension := congrArg (List.zipWith Field.mk · types) (places_eq dimension)
  size dimension := by
    change Place.size dimension = _
    unfold types Place.size
    simp only [FieldType.wordSpan, FieldType.wordWidth, UInt32.toNat_inj]
    grind
  write := write_eq_flatten
  readsBack := readsBack
  shaped sized := sized.shaped
  exists_state := exists_state
  status := statusLast.read_status
  begins := by
    intro dimension state sized context same
    have begun := (carriedOut family _).begin sized context
    exact ⟨_, changes, begun.1, begun.2, blocks_begin same, fun _ => apart_of_changes⟩

end Igd

namespace Fista

def types : List FieldType :=
  [.word, .number, .number, .count, .number, .number, .vector, .vector, .number, .count, .vector,
    .number, .number, .number, .number, .number, .vector, .number, .number, .word, .number, .code]

def fields (dimension : UInt32) : List Field :=
  List.zipWith Field.mk (Place.all dimension) types

def State.blocks (state : State α) : List (List α) :=
  [[state.dimension], [state.strength], [state.mixing], [state.totalRows], [state.intercept],
    [state.momentumIntercept], state.coefficients, state.momentum, [state.inertia], [state.rows],
    state.gradient, [state.maxStepSize], [state.eta], [state.candidateValue],
    [state.momentumValue], [state.stepSize], state.candidate, [state.candidateIntercept],
    [state.interceptGradient], [state.trial], [state.logLikelihood], [state.status]]

/-- The accumulators of a pass, and the status. A pass gathers the gradient, or else the value at
    the candidate point, and with the first candidate the value at the momentum point. -/
def renewed (dimension trials : UInt32) : List ℕ :=
  Place.rows dimension :: Place.status dimension ::
    if trials = 0 then
      Place.interceptGradient dimension :: List.range' (Place.gradient dimension) dimension.toNat
    else
      Place.candidateValue dimension ::
        if trials = 1 then [Place.momentumValue dimension] else []

def flatStates (family : Family) : FlatStates α (State α) where
  optimizer := optimizer family
  layout := layout
  fields := fields
  size := Place.size
  blocks := State.blocks
  strength := State.strength
  status := State.status
  renewed dimension state := renewed dimension state.trials

theorem span_types (dimension : ℕ) : FieldType.span dimension types = slotCount dimension := by
  unfold slotCount types
  simp only [FieldType.span, FieldType.width]
  omega

theorem places_eq (dimension : UInt32) :
    Place.all dimension = FieldType.wordPlaces dimension 0 types := by
  unfold types
  simp only [FieldType.wordPlaces, FieldType.wordWidth, Place.all, Place.strength, Place.mixing,
    Place.totalRows, Place.intercept, Place.momentumIntercept, Place.coefficients, Place.momentum,
    Place.inertia, Place.rows, Place.gradient, Place.maxStepSize, Place.eta, Place.candidateValue,
    Place.momentumValue, Place.stepSize, Place.candidate, Place.candidateIntercept,
    Place.interceptGradient, Place.trial, Place.logLikelihood, Place.status]
  simp only [UInt32.reduceAdd, UInt32.reduceToNat, List.cons.injEq, UInt32.toNat_inj, true_and,
    and_true]
  and_intros
  all_goals grind

theorem write_eq_flatten (state : State α) : layout.write state = state.blocks.flatten := by
  change writeState state = _
  unfold writeState State.blocks
  simp

theorem State.Sized.shaped {count : ℕ} {state : State α} (sized : state.Sized count) :
    Field.Shaped count types state.blocks := by
  obtain ⟨-, coefficients, momentum, gradient, candidate⟩ := sized
  unfold Field.Shaped types State.blocks
  simp only [List.forall₂_cons, List.Forall₂.nil, FieldType.width, List.length_singleton,
    coefficients, momentum, gradient, candidate, and_self]

theorem exists_state {number : α} {blocks : List (List α)}
    (shaped : Field.Shaped (Scalar.toUInt32 number).toNat types blocks)
    (first : Slots.read blocks.flatten 0 = .ok number) :
    ∃ state : State α, state.Sized (Scalar.toUInt32 number).toNat ∧ state.blocks = blocks := by
  obtain ⟨dimension, _, _, shaped⟩ := shaped.exists_number rfl
  obtain ⟨strength, _, _, shaped⟩ := shaped.exists_number rfl
  obtain ⟨mixing, _, _, shaped⟩ := shaped.exists_number rfl
  obtain ⟨totalRows, _, _, shaped⟩ := shaped.exists_number rfl
  obtain ⟨intercept, _, _, shaped⟩ := shaped.exists_number rfl
  obtain ⟨momentumIntercept, _, _, shaped⟩ := shaped.exists_number rfl
  obtain ⟨coefficients, _, _, coefficientsLength, shaped⟩ := shaped.exists_vector
  obtain ⟨momentum, _, _, momentumLength, shaped⟩ := shaped.exists_vector
  obtain ⟨inertia, _, _, shaped⟩ := shaped.exists_number rfl
  obtain ⟨rows, _, _, shaped⟩ := shaped.exists_number rfl
  obtain ⟨gradient, _, _, gradientLength, shaped⟩ := shaped.exists_vector
  obtain ⟨maxStepSize, _, _, shaped⟩ := shaped.exists_number rfl
  obtain ⟨eta, _, _, shaped⟩ := shaped.exists_number rfl
  obtain ⟨candidateValue, _, _, shaped⟩ := shaped.exists_number rfl
  obtain ⟨momentumValue, _, _, shaped⟩ := shaped.exists_number rfl
  obtain ⟨stepSize, _, _, shaped⟩ := shaped.exists_number rfl
  obtain ⟨candidate, _, _, candidateLength, shaped⟩ := shaped.exists_vector
  obtain ⟨candidateIntercept, _, _, shaped⟩ := shaped.exists_number rfl
  obtain ⟨interceptGradient, _, _, shaped⟩ := shaped.exists_number rfl
  obtain ⟨trial, _, _, shaped⟩ := shaped.exists_number rfl
  obtain ⟨logLikelihood, _, _, shaped⟩ := shaped.exists_number rfl
  obtain ⟨status, _, _, shaped⟩ := shaped.exists_number rfl
  cases List.forall₂_nil_left_iff.mp shaped
  subst_vars
  obtain rfl : dimension = number := Except.ok.inj first
  exact ⟨{ dimension, strength, mixing, totalRows, intercept, momentumIntercept, coefficients,
            momentum, inertia, rows, gradient, maxStepSize, eta, candidateValue, momentumValue,
            stepSize, candidate, candidateIntercept, interceptGradient, trial, logLikelihood,
            status },
    ⟨rfl, coefficientsLength, momentumLength, gradientLength, candidateLength⟩, rfl⟩

def State.changes (state : State α) : List (ℕ × List α) :=
  (9, [0]) :: (21, [Status.inProcess.slot]) ::
    if state.trials = 0 then [(18, [0]), (10, state.gradient.map fun _ => 0)]
    else (13, [0]) :: if state.trials = 1 then [(14, [0])] else []

theorem blocks_begin {state : State α} {context : StepContext α}
    (same : (state.strength != context.strength) = false) :
    (state.begin context).blocks = Field.renewed state.blocks state.changes := by
  have kept : ¬(state.strength != context.strength) = true := Bool.eq_false_iff.mp same
  unfold State.begin State.changes
  rw [if_neg kept]
  by_cases gathers : state.trials = 0
  · simp only [gathers, if_true]
    rfl
  · by_cases single : state.trials = 1
    · simp only [single, if_true]
      rfl
    · simp only [gathers, single, if_false]
      rfl

theorem apart_of_changes {state : State α} {dimension : UInt32} {slot : ℕ}
    (sized : state.gradient.length = dimension.toNat)
    (outside : slot ∉ renewed dimension state.trials) :
    ∀ change ∈ state.changes, ∃ field, (fields dimension)[change.1]? = some field ∧
      change.2.length = field.type.width dimension.toNat ∧
      slot ∉ field.slots dimension.toNat := by
  unfold renewed at outside
  rw [List.mem_cons, not_or, List.mem_cons, not_or] at outside
  obtain ⟨notRows, notStatus, others⟩ := outside
  have apart {field : Field} (single : field.type.width dimension.toNat = 1)
      (other : slot ≠ field.place) : slot ∉ field.slots dimension.toNat :=
    (Field.mem_slots_of_width single slot).not.mpr other
  unfold State.changes
  refine List.forall_mem_cons.mpr ⟨⟨_, rfl, rfl, apart rfl notRows⟩,
    List.forall_mem_cons.mpr ⟨⟨_, rfl, rfl, apart rfl notStatus⟩, ?_⟩⟩
  by_cases gathers : state.trials = 0
  · rw [if_pos gathers, List.mem_cons, not_or] at others
    rw [if_pos gathers]
    exact List.forall_mem_cons.mpr ⟨⟨_, rfl, rfl, apart rfl others.1⟩,
      List.forall_mem_singleton.mpr ⟨_, rfl, (List.length_map _).trans sized, others.2⟩⟩
  · rw [if_neg gathers, List.mem_cons, not_or] at others
    rw [if_neg gathers]
    refine List.forall_mem_cons.mpr ⟨⟨_, rfl, rfl, apart rfl others.1⟩, ?_⟩
    by_cases single : state.trials = 1
    · rw [if_pos single, List.mem_singleton] at others
      rw [if_pos single]
      exact List.forall_mem_singleton.mpr ⟨_, rfl, rfl, apart rfl others.2⟩
    · rw [if_neg single]
      exact nofun

theorem laidOut (family : Family) :
    (flatStates family : FlatStates α (State α)).LaidOut types fun count state =>
      state.Sized count where
  last := rfl
  fields dimension := congrArg (List.zipWith Field.mk · types) (places_eq dimension)
  size dimension := by
    change Place.size dimension = _
    unfold types Place.size
    simp only [FieldType.wordSpan, FieldType.wordWidth, UInt32.toNat_inj]
    grind
  write := write_eq_flatten
  readsBack := readsBack
  shaped sized := sized.shaped
  exists_state := exists_state
  status := statusLast.read_status
  begins := by
    intro dimension state sized context same
    have begun := (carriedOut family _).begin sized context
    exact ⟨_, state.changes, begun.1, begun.2, blocks_begin same,
      fun _ => apart_of_changes sized.gradient⟩

end Fista

/-- The states of both methods, as long as a word can count their slots: their fields share no slot
    and leave none out, the status has the last slot, what is written to all fields is read from
    them unless a count is rounded, and what is read from all fields makes up the state again. So
    the status of a state is read from its field, and a pass at the same strength begins with all
    slots as they were but those of its accumulators and the status. -/
theorem flat_states_lossless [Scalar.KeepsCodes α] (family : Family) (dimension : UInt32) :
    (Igd.slotCount dimension.toNat < UInt32.size →
      (Igd.flatStates family : FlatStates α (Igd.State α)).Sound dimension) ∧
    (Fista.slotCount dimension.toNat < UInt32.size →
      (Fista.flatStates family : FlatStates α (Fista.State α)).Sound dimension) ∧
    ∀ rows : UInt64, rows.toNat < 2 ^ 53 → (FieldValue.count rows : FieldValue α).Kept :=
  ⟨fun fits => (Igd.laidOut family).sound (by rwa [Igd.span_types]),
    fun fits => (Fista.laidOut family).sound (by rwa [Fista.span_types]),
    fun _ => FieldValue.kept_of_lt⟩

def Igd.oneFeature (rows : UInt64) : List (FieldValue Float) :=
  [.word 1, .number 1, .number 0, .number 0, .number 2, .number 2, .count rows, .vector [0],
    .number 0, .number 1, .number 0.01, .vector [0], .vector [0], .number 0, .count rows, .number 0,
    .code 0]

theorem Igd.fits_oneFeature (rows : UInt64) :
    List.Forall₂ (Field.Fits 1) (Igd.fields 1) (Igd.oneFeature rows) := by
  repeat' constructor

theorem Igd.kept_oneFeature {rows : UInt64}
    (kept : (FieldValue.count rows : FieldValue Float).Kept) :
    ∀ value ∈ Igd.oneFeature rows, value.Kept := by
  unfold Igd.oneFeature
  simp only [List.forall_mem_cons]
  exact ⟨trivial, trivial, trivial, trivial, trivial, trivial, kept, trivial, trivial, trivial,
    trivial, trivial, trivial, trivial, kept, trivial, trivial, nofun⟩

theorem Igd.write_oneFeature (rows : UInt64) :
    Field.writeAll (Igd.fields 1) (Igd.oneFeature rows) (Field.fresh 1 17) =
      .ok () ((Igd.oneFeature rows).flatMap FieldValue.slots) := by
  have placed : Igd.fields 1 = Field.consecutive 1 0 Igd.types :=
    (Igd.laidOut (α := Float) .gaussian).fields_eq (by decide)
  have fits := Igd.fits_oneFeature rows
  rw [placed] at fits ⊢
  exact Field.writeAll_consecutive [] fits rfl

theorem flat_states_lossless_oneFeature :
    Igd.slotCount 1 < UInt32.size ∧ Fista.slotCount 1 < UInt32.size ∧
    (Fista.flatStates .gaussian : FlatStates Float (Fista.State Float)).Sound 1 ∧
    ∃ slots, Field.writeAll (Igd.fields 1) (Igd.oneFeature 3) (Field.fresh 1 17) = .ok () slots ∧
      Field.readAll 1 (Igd.fields 1) slots = .ok (Igd.oneFeature 3) ∧
      ∃ after, (Igd.optimizer .gaussian).begin (some slots)
          { StepContext.default with strength := 1 } = .ok after ∧
        ∀ slot ∉ [14, 15, 16], after[slot]? = slots[slot]? := by
  obtain ⟨igd, fista, small⟩ := @flat_states_lossless Float _ _ .gaussian 1
  have sound := igd (by decide)
  obtain ⟨slots, length, written, read⟩ := sound.lossless.encodes (Igd.oneFeature 3)
    (Igd.fits_oneFeature 3) (Igd.kept_oneFeature (small 3 (by decide)))
  cases written.symm.trans (Igd.write_oneFeature 3)
  obtain ⟨state, shown⟩ := sound.shows _ ⟨length, 1, rfl, by decide +kernel⟩
  have one : state.strength = 1 :=
    (List.singleton_inj.mp (Option.some.inj (congrArg (·[9]?) shown.blocks))).symm
  have same : (state.strength != 1) = false := by
    rw [one]
    decide +kernel
  obtain ⟨after, begun, -, others⟩ :=
    shown.begins { StepContext.default with strength := 1 } same
  exact ⟨by decide, by decide, fista (by decide), _, written, read, after, begun, others⟩

/-- Beyond 2^53 not every count has a number of its own: a state that is written with one row more
    is read with 2^53 rows. -/
theorem large_count_rounded :
    List.Forall₂ (Field.Fits 1) (Igd.fields 1) (Igd.oneFeature 9007199254740993) ∧
    ∃ slots, Field.writeAll (Igd.fields 1) (Igd.oneFeature 9007199254740993) (Field.fresh 1 17) =
        .ok () slots ∧
      Field.readAll 1 (Igd.fields 1) slots = .ok (Igd.oneFeature 9007199254740992) ∧
      Igd.oneFeature 9007199254740992 ≠ Igd.oneFeature 9007199254740993 := by
  have kept : (FieldValue.count 9007199254740992 : FieldValue Float).Kept := by
    unfold FieldValue.Kept
    decide +kernel
  have rounded : (Scalar.ofCount 9007199254740993 : Float) = Scalar.ofCount 9007199254740992 := by
    rfl
  have same : (Igd.oneFeature 9007199254740993).flatMap FieldValue.slots =
      (Igd.oneFeature 9007199254740992).flatMap FieldValue.slots := by
    unfold Igd.oneFeature
    simp only [List.flatMap_cons, FieldValue.slots, rounded]
  have placed : Igd.fields 1 = Field.consecutive 1 0 Igd.types :=
    (Igd.laidOut (α := Float) .gaussian).fields_eq (by decide)
  have read : Field.readAll 1 (Igd.fields 1)
      ((Igd.oneFeature 9007199254740992).flatMap FieldValue.slots) =
        .ok (Igd.oneFeature 9007199254740992) := by
    have fits := Igd.fits_oneFeature 9007199254740992
    rw [placed] at fits ⊢
    exact Field.readAll_consecutive [] fits (Igd.kept_oneFeature kept)
  refine ⟨Igd.fits_oneFeature _, _, Igd.write_oneFeature _, same ▸ read, ?_⟩
  unfold Igd.oneFeature
  simp

end ElasticNet
