import ElasticNet.Params
import ElasticNet.Proofs.Command
import Mathlib.Data.List.Forall2
import Mathlib.Data.List.Nodup

namespace ElasticNet.Params

open Command

inductive Field where
  | stepSize
  | stepDecay
  | threshold
  | maxStepSize
  | eta
  | parallel
  | warmup
  | warmupPath
  | warmupCount
  | warmupTolerance
deriving DecidableEq

namespace Field

def key : Field → String
  | stepSize => "stepsize"
  | stepDecay => "step_decay"
  | threshold => "threshold"
  | maxStepSize => "max_stepsize"
  | eta => "eta"
  | parallel => "parallel"
  | warmup => "warmup"
  | warmupPath => "warmup_lambdas"
  | warmupCount => "warmup_lambda_no"
  | warmupTolerance => "warmup_tolerance"

def isOf : Method → Field → Bool
  | .fista, stepSize | .fista, stepDecay | .fista, threshold => false
  | .igd, maxStepSize | .igd, eta => false
  | _, _ => true

def Value (α : Type) : Field → Type
  | parallel | warmup => Bool
  | warmupPath => Path α
  | warmupCount => Nat
  | _ => α

variable {α : Type}

def put (params : Params α) : (field : Field) → field.Value α → Params α
  | stepSize, x => { params with stepSize := x }
  | stepDecay, x => { params with stepDecay := x }
  | threshold, x => { params with threshold := x }
  | maxStepSize, x => { params with maxStepSize := x }
  | eta, x => { params with eta := x }
  | parallel, on => { params with parallel := on }
  | warmup, on => { params with warmup := on }
  | warmupPath, path => { params with warmupPath := some path }
  | warmupCount, count => { params with warmupCount := count }
  | warmupTolerance, x => { params with warmupTolerance := some x }

def Stored (α : Type) : Field → Type
  | warmupPath => Option (Path α)
  | warmupTolerance => Option α
  | field => field.Value α

def get (params : Params α) : (field : Field) → field.Stored α
  | stepSize => params.stepSize
  | stepDecay => params.stepDecay
  | threshold => params.threshold
  | maxStepSize => params.maxStepSize
  | eta => params.eta
  | parallel => params.parallel
  | warmup => params.warmup
  | warmupPath => params.warmupPath
  | warmupCount => params.warmupCount
  | warmupTolerance => params.warmupTolerance

def read [Scalar α] : (field : Field) → (value : String) → Except Error (field.Value α)
  | stepSize, value =>
    (readBounded stepSize.key value "positive" fun x => 0 < x : Except Error α)
  | stepDecay, value =>
    (readBounded stepDecay.key value "non-negative" fun x => 0 ≤ x : Except Error α)
  | threshold, value =>
    (readBounded threshold.key value "non-negative" fun x => 0 ≤ x : Except Error α)
  | maxStepSize, value =>
    (readBounded maxStepSize.key value "positive" fun x => 0 < x : Except Error α)
  | eta, value =>
    (readBounded eta.key value "greater than 1" fun x => 1 < x : Except Error α)
  | parallel, value => readBool parallel.key value
  | warmup, value => readBool warmup.key value
  | warmupPath, value => Path.parse value
  | warmupCount, value => readCount warmupCount.key value
  | warmupTolerance, value =>
    (readBounded warmupTolerance.key value "non-negative" fun x => 0 ≤ x : Except Error α)

theorem key_injective : Function.Injective key := by
  intro first second same
  cases first <;> cases second <;> first | rfl | exact absurd same (by decide)

theorem put_comm {first second : Field} (different : first ≠ second) (params : Params α)
    (x : first.Value α) (y : second.Value α) :
    put (put params first x) second y = put (put params second y) first x := by
  cases first <;> cases second <;> first | rfl | exact absurd rfl different

theorem get_put {field other : Field} (different : field ≠ other) (params : Params α)
    (x : field.Value α) : get (put params field x) other = get params other := by
  cases field <;> cases other <;> first | rfl | exact absurd rfl different

variable [Scalar α]

theorem set_of_field {method : Method} {field : Field} (own : field.isOf method = true)
    (params : Params α) (value : String) :
    set method params field.key value = (field.read value).map (put params field) := by
  cases method <;> cases field <;> first | exact absurd own (by decide) | rfl

theorem set_of_unknown {method : Method} {key : String}
    (unknown : ∀ field : Field, field.isOf method = true → field.key ≠ key) (params : Params α)
    (value : String) :
    set method params key value = .error (.unknownParameter key method.name) := by
  have single (field : Field) (only : Method) (own : field.isOf only = true) :
      ¬(method = only ∧ key = field.key) := by
    rintro ⟨rfl, same⟩
    exact unknown field own same.symm
  have shared (field : Field) (igd : field.isOf .igd = true) (fista : field.isOf .fista = true) :
      ¬key = field.key := by
    intro same
    refine unknown field ?_ same.symm
    cases method
    · exact igd
    · exact fista
  -- one by one, in the order in which the keys are compared
  refine (if_neg (single stepSize .igd rfl)).trans ?_
  refine (if_neg (single stepDecay .igd rfl)).trans ?_
  refine (if_neg (single threshold .igd rfl)).trans ?_
  refine (if_neg (single maxStepSize .fista rfl)).trans ?_
  refine (if_neg (single eta .fista rfl)).trans ?_
  refine (if_neg (shared parallel rfl rfl)).trans ?_
  refine (if_neg (shared warmup rfl rfl)).trans ?_
  refine (if_neg (shared warmupPath rfl rfl)).trans ?_
  refine (if_neg (shared warmupCount rfl rfl)).trans ?_
  exact if_neg (shared warmupTolerance rfl rfl)

theorem set_eq_ok_iff {method : Method} {params next : Params α} {key value : String} :
    set method params key value = .ok next ↔
      ∃ field : Field, field.key = key ∧ field.isOf method = true ∧
        ∃ x, field.read value = .ok x ∧ field.put params x = next := by
  constructor
  · intro ends
    by_cases known : ∃ field : Field, field.isOf method = true ∧ field.key = key
    · obtain ⟨field, own, rfl⟩ := known
      rw [set_of_field own] at ends
      cases given : field.read (α := α) value with
      | ok x =>
        rw [given] at ends
        exact ⟨field, rfl, own, x, given, Except.ok.inj ends⟩
      | error error =>
        rw [given] at ends
        cases ends
    · rw [set_of_unknown fun field own same => known ⟨field, own, same⟩] at ends
      cases ends
  · rintro ⟨field, rfl, own, x, given, rfl⟩
    rw [set_of_field own, given]
    rfl

end Field

structure Assignment (α : Type) where
  field : Field
  value : field.Value α

variable {α : Type}

def Assignment.apply (params : Params α) (assignment : Assignment α) : Params α :=
  assignment.field.put params assignment.value

theorem get_foldl_apply {assignments : List (Assignment α)} {field : Field}
    (unassigned : ∀ assignment ∈ assignments, assignment.field ≠ field) (params : Params α) :
    field.get (assignments.foldl Assignment.apply params) = field.get params := by
  induction assignments generalizing params with
  | nil => rfl
  | cons first others ih =>
    obtain ⟨other, further⟩ := List.forall_mem_cons.mp unassigned
    exact (ih further _).trans (Field.get_put other params first.value)

/-- Assignments to different fields leave the same parameters in any order. -/
theorem foldl_apply_perm {assignments others : List (Assignment α)}
    (perm : assignments.Perm others) (different : (assignments.map Assignment.field).Nodup)
    (params : Params α) :
    assignments.foldl Assignment.apply params = others.foldl Assignment.apply params := by
  refine perm.foldl_eq' (fun first inside second member params => ?_) params
  by_cases same : first.field = second.field
  · rw [List.inj_on_of_nodup_map different inside member same]
  · exact Field.put_comm same params first.value second.value

variable [Scalar α]

def Assigns (method : Method) (entry : String) (assignment : Assignment α) : Prop :=
  ∃ value, readEntry entry = .ok (assignment.field.key, value) ∧
    assignment.field.isOf method = true ∧ assignment.field.read value = .ok assignment.value

/-- A field that no entry of a text sets in the parameters of a method: it belongs to the other
    method, or no entry has its key. -/
def Unset (method : Method) (entries : List String) (field : Field) : Prop :=
  field.isOf method = false ∨ ∀ entry ∈ entries, ∀ value, readEntry entry ≠ .ok (field.key, value)

theorem assigned {method : Method} {entries : List String} {assignments : List (Assignment α)}
    (assigns : List.Forall₂ (Assigns method) entries assignments) :
    ∀ assignment ∈ assignments, ∃ entry ∈ entries, Assigns method entry assignment := by
  induction assigns with
  | nil => nofun
  | cons first _ ih =>
    refine List.forall_mem_cons.mpr ⟨⟨_, List.mem_cons_self, first⟩, fun assignment inside => ?_⟩
    obtain ⟨entry, further, assigned⟩ := ih assignment inside
    exact ⟨entry, List.mem_cons_of_mem _ further, assigned⟩

theorem get_of_unset {method : Method} {entries : List String}
    {assignments : List (Assignment α)} {field : Field}
    (assigns : List.Forall₂ (Assigns method) entries assignments)
    (unset : Unset method entries field) (params : Params α) :
    field.get (assignments.foldl Assignment.apply params) = field.get params := by
  refine get_foldl_apply ?_ params
  rintro assignment inside rfl
  obtain ⟨entry, among, value, read, own, _⟩ := assigned assigns assignment inside
  rcases unset with other | unread
  · rw [other] at own
    cases own
  · exact unread entry among value read

theorem setAll_cons_eq_ok_iff {method : Method} {seen : List String} {params last : Params α}
    {entry : String} {more : List String} :
    setAll method seen params (entry :: more) = .ok last ↔
      ∃ assignment : Assignment α, Assigns method entry assignment ∧
        assignment.field.key ∉ seen ∧
        setAll method (assignment.field.key :: seen) (assignment.apply params) more = .ok last := by
  rw [setAll]
  constructor
  · intro ends
    obtain ⟨⟨key, value⟩, read, ends⟩ := of_bind_eq_ok ends
    dsimp only at ends
    split at ends
    · cases ends
    · next fresh =>
      obtain ⟨next, put, ends⟩ := of_bind_eq_ok ends
      obtain ⟨field, rfl, own, x, given, rfl⟩ := Field.set_eq_ok_iff.mp put
      exact ⟨⟨field, x⟩, ⟨value, read, own, given⟩, fresh, ends⟩
  · rintro ⟨⟨field, x⟩, ⟨value, read, own, given⟩, fresh, ends⟩
    rw [read, ok_bind]
    dsimp only
    rw [if_neg fresh]
    rw [Field.set_eq_ok_iff.mpr ⟨field, rfl, own, x, given, rfl⟩]
    exact ends

/-- A list of entries sets what its assignments leave of the parameters before, one after the
    other. No field is assigned twice, nor one that has been seen. -/
theorem setAll_eq_ok_iff {method : Method} {seen : List String} {params last : Params α}
    {entries : List String} :
    setAll method seen params entries = .ok last ↔
      ∃ assignments : List (Assignment α), List.Forall₂ (Assigns method) entries assignments ∧
        (assignments.map Assignment.field).Nodup ∧
        (∀ assignment ∈ assignments, assignment.field.key ∉ seen) ∧
        assignments.foldl Assignment.apply params = last := by
  -- a field of the first entry is seen by the others, which is what tells their fields from it
  induction entries generalizing seen params with
  | nil =>
    rw [setAll]
    constructor
    · rintro ⟨⟩
      exact ⟨[], .nil, List.nodup_nil, nofun, rfl⟩
    · rintro ⟨assignments, assigns, _, _, rfl⟩
      cases assigns
      rfl
  | cons entry more ih =>
    rw [setAll_cons_eq_ok_iff]
    constructor
    · rintro ⟨first, assigns, fresh, ends⟩
      obtain ⟨others, rest, different, further, rfl⟩ := ih.mp ends
      refine ⟨first :: others, .cons assigns rest, ?_, ?_, rfl⟩
      · refine List.nodup_cons.mpr ⟨fun again => ?_, different⟩
        obtain ⟨other, inside, same⟩ := List.mem_map.mp again
        exact further other inside (same ▸ List.mem_cons_self)
      · exact List.forall_mem_cons.mpr
          ⟨fresh, fun other inside seen => further other inside (List.mem_cons_of_mem _ seen)⟩
    · rintro ⟨_, assigns, different, further, rfl⟩
      cases assigns with
      | @cons _ first _ others assigns rest =>
        obtain ⟨once, different⟩ := List.nodup_cons.mp different
        obtain ⟨fresh, further⟩ := List.forall_mem_cons.mp further
        refine ⟨first, assigns, fresh, ih.mpr ⟨others, rest, different, ?_, rfl⟩⟩
        intro other inside again
        rcases List.mem_cons.mp again with same | seen
        · exact once (List.mem_map.mpr ⟨other, inside, Field.key_injective same⟩)
        · exact further other inside seen

/-- What entries set in the parameters of a method: each assigns to a field, no two to the same one,
    and nothing else differs from the defaults. -/
def Sets (method : Method) (entries : List String) (params : Params α) : Prop :=
  ∃ assignments : List (Assignment α), List.Forall₂ (Assigns method) entries assignments ∧
    (assignments.map Assignment.field).Nodup ∧
    assignments.foldl Assignment.apply default = params

theorem parse_eq_ok_iff {text method : String} {params : Params α} :
    parse text method = .ok params ↔
      ∃ named entries, Method.ofName? method = some named ∧ split text = .ok entries ∧
        Sets named entries params := by
  unfold parse
  constructor
  · intro ends
    split at ends
    · cases ends
    · next named found =>
      obtain ⟨entries, cut, ends⟩ := of_bind_eq_ok ends
      obtain ⟨assignments, assigns, different, _, left⟩ := setAll_eq_ok_iff.mp ends
      exact ⟨named, entries, found, cut, assignments, assigns, different, left⟩
  · rintro ⟨named, entries, found, cut, assignments, assigns, different, left⟩
    rw [found]
    dsimp only
    rw [cut]
    exact setAll_eq_ok_iff.mpr ⟨assignments, assigns, different, fun _ _ => List.not_mem_nil, left⟩

end ElasticNet.Params
