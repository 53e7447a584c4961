import ElasticNet.Proofs.Fista.Trail
import Mathlib.Data.Nat.Init

namespace ElasticNet

/-- Counting trials up from the first one reads as zero for no trial before a number of them. -/
def Scalar.CountsTrials (α : Type) [Scalar α] (count : ℕ) : Prop :=
  ∀ r < count, Scalar.toUInt32 ((· + 1)^[r] (1 : α)) ≠ 0

theorem countsTrials_float {count : ℕ} (small : count < UInt32.size) :
    Scalar.CountsTrials Float count := by
  intro r before none
  unfold UInt32.size at small
  have counted : (· + 1)^[r] (1 : Float) = Float.ofNat (r + 1) := by
    clear none
    induction r with
    | zero => decide +kernel
    | succ r ih =>
      rw [Function.iterate_succ_apply', ih (by omega)]
      have below : r + 1 + 1 < 2 ^ 53 := by omega
      exact Decimal.Binary64.ofNat_add below
  have kept : (Scalar.toUInt32 (Float.ofNat (r + 1))).toNat = r + 1 :=
    Decimal.Binary64.toUInt32_ofNat (by omega)
  rw [← counted, none] at kept
  exact Nat.succ_ne_zero r kept.symm

namespace Fista

open Run

variable {α : Type} [Scalar α]

/-- A pass that a candidate was tried in, and that leaves none to try. -/
def Accepts (before after : State α) : Prop :=
  0 < before.trials ∧ after.trials = 0

section Passes

variable [Scalar.KeepsCounts α] {state after : State α} {context : StepContext α}

theorem toUInt32_zero : Scalar.toUInt32 (0 : α) = 0 := by
  apply UInt32.toNat_inj.mp
  rw [← Scalar.KeepsCounts.natCast_zero]
  exact Scalar.KeepsCounts.toUInt32_natCast 0 (by decide)

theorem State.resumed_of_trials (tries : (state.resumed context).trials ≠ 0) :
    state.resumed context = state := by
  unfold resumed at tries ⊢
  split at tries
  · exact absurd toUInt32_zero tries
  · next same => rw [if_neg same]

theorem Outcome.samePoint_or_accepts (outcome : Outcome (state.resumed context) after) :
    state.SamePoint after ∨ Accepts state after := by
  have begun := state.samePoint_resumed context
  cases outcome with
  | idle _ point _ => exact .inl (begun.trans point)
  | opened _ point _ => exact .inl (begun.trans point)
  | rejected _ point _ => exact .inl (begun.trans point)
  | accepted tries course =>
    have kept := State.resumed_of_trials tries
    rw [kept] at tries course
    have rested : after.trials = 0 :=
      (congrArg Scalar.toUInt32 (congrArg State.trial course :) :).trans toUInt32_zero
    exact .inr ⟨UInt32.pos_iff_ne_zero.mpr tries, rested⟩

def CountedUp (passes : ℕ) (trial : α) : Prop :=
  trial = 0 ∨ ∃ r < passes, trial = (· + 1)^[r] 1

theorem CountedUp.next {passes : ℕ} {trial : α} (counted : CountedUp passes trial)
    (tries : Scalar.toUInt32 trial ≠ 0) : ∃ r < passes, trial + 1 = (· + 1)^[r + 1] 1 := by
  rcases counted with none | ⟨r, before, given⟩
  · exact absurd ((congrArg Scalar.toUInt32 none).trans toUInt32_zero) tries
  · refine ⟨r, before, ?_⟩
    rw [Function.iterate_succ_apply', ← given]

omit [Scalar.KeepsCounts α] in
theorem countedUp_resumed {passes : ℕ} (counted : CountedUp passes state.trial) :
    CountedUp passes (state.resumed context).trial := by
  unfold State.resumed
  split
  · exact .inl rfl
  · exact counted

theorem Outcome.countedUp (outcome : Outcome (state.resumed context) after) {passes : ℕ}
    (counted : CountedUp passes state.trial) : CountedUp (passes + 1) after.trial := by
  have begun : CountedUp passes (state.resumed context).trial := countedUp_resumed counted
  cases outcome with
  | idle _ _ course =>
    rw [show after.trial = (state.resumed context).trial from (congrArg State.trial course :)]
    rcases begun with none | ⟨r, before, given⟩
    · exact .inl none
    · exact .inr ⟨r, Nat.lt_succ_of_lt before, given⟩
  | opened _ _ course => exact .inr ⟨0, Nat.succ_pos _, (congrArg State.trial course :)⟩
  | accepted _ course => exact .inl (congrArg State.trial course :)
  | rejected tries _ course =>
    obtain ⟨r, before, next⟩ := begun.next tries
    exact .inr ⟨r + 1, Nat.succ_lt_succ before, (congrArg State.trial course :).trans next⟩

theorem Outcome.accepts (outcome : Outcome (state.resumed context) after) {passes count : ℕ}
    (counted : CountedUp passes state.trial) (counts : Scalar.CountsTrials α count)
    (before : passes < count) (goes : Goes (layout.write after)) (rested : after.trials = 0) :
    Accepts state after := by
  cases outcome with
  | idle status _ _ =>
    have empty : Slots.status (layout.write after) = .ok .empty := by
      rw [statusLast.read_status, status]
      exact congrArg Except.ok (Status.ofSlot_slot nofun)
    exact absurd goes (not_goes_of_empty empty)
  | opened _ _ course =>
    have first : after.trial = 1 := (congrArg State.trial course :)
    exact absurd ((congrArg Scalar.toUInt32 first).symm.trans rested) (counts 0 (by omega))
  | accepted tries _ =>
    rw [State.resumed_of_trials tries] at tries
    exact ⟨UInt32.pos_iff_ne_zero.mpr tries, rested⟩
  | rejected tries _ course =>
    obtain ⟨r, earlier, next⟩ := (countedUp_resumed counted).next tries
    have last : after.trial = (· + 1)^[r + 1] 1 := (congrArg State.trial course :).trans next
    exact absurd ((congrArg Scalar.toUInt32 last).symm.trans rested) (counts (r + 1) (by omega))

end Passes

structure LastAccepted (states : ℕ → State α) (i last : ℕ) : Prop where
  within : last ≤ i
  accepted : last = 0 ∨ Accepts (states (last - 1)) (states last)
  since : ∀ j, last ≤ j → j < i → ¬Accepts (states j) (states (j + 1))

theorem exists_lastAccepted (states : ℕ → State α) (i : ℕ) :
    ∃ last, LastAccepted states i last := by
  induction i with
  | zero => exact ⟨0, Nat.le_refl _, .inl rfl, fun j _ before => absurd before (Nat.not_lt_zero j)⟩
  | succ i ih =>
    by_cases accepts : Accepts (states i) (states (i + 1))
    · exact ⟨i + 1, Nat.le_refl _, .inr accepts, by omega⟩
    · obtain ⟨last, within, accepted, since⟩ := ih
      refine ⟨last, by omega, accepted, fun j after before => ?_⟩
      by_cases newest : j = i
      · exact newest ▸ accepts
      · exact since j after (by omega)

namespace Trail

variable {family : Family} {run : Run α} {phase : Phase} {total : ℕ} {states : ℕ → State α}
  {positions : ℕ → ℕ} (trail : Trail family run phase total states positions)
include trail

theorem outcome {i : ℕ} (before : i < total) :
    ∃ context, Outcome ((states i).resumed context) (states (i + 1)) := by
  obtain ⟨strength, _, next⟩ := trail.leads i before
  rw [next]
  exact ⟨_, State.outcome_pass family run.pass.mode (states i) _ run.source.partitions⟩

theorem trial_zero : (states 0).trial = 0 := by
  obtain ⟨strength, _, first⟩ := trail.baseline
  rw [first]
  rfl

variable [Scalar.KeepsCounts α]

theorem samePoint_of_not_accepts {i : ℕ} (before : i < total)
    (rests : ¬Accepts (states i) (states (i + 1))) : (states i).SamePoint (states (i + 1)) := by
  obtain ⟨context, outcome⟩ := trail.outcome before
  exact outcome.samePoint_or_accepts.resolve_right rests

theorem samePoint_since {last i : ℕ} (found : LastAccepted states i last) (inside : i ≤ total) :
    (states last).SamePoint (states i) := by
  obtain ⟨within, _, since⟩ := found
  induction i, within using Nat.le_induction with
  | base => exact .refl _
  | succ i after ih =>
    have before := ih (by omega) fun j later earlier => since j later (by omega)
    exact before.trans (trail.samePoint_of_not_accepts (by omega) (since i after (by omega)))

theorem countedUp {i : ℕ} (inside : i ≤ total) : CountedUp i (states i).trial := by
  induction i with
  | zero => exact .inl trail.trial_zero
  | succ i ih =>
    obtain ⟨context, outcome⟩ := trail.outcome inside
    exact outcome.countedUp (ih (by omega))

theorem accepts_of_rested (counts : Scalar.CountsTrials α total) {i : ℕ} (before : i < total)
    (goes : Goes (layout.write (states (i + 1)))) (rested : (states (i + 1)).trials = 0) :
    Accepts (states i) (states (i + 1)) := by
  obtain ⟨context, outcome⟩ := trail.outcome before
  exact outcome.accepts (trail.countedUp (Nat.le_of_lt before)) counts before goes rested

omit trail [Scalar.KeepsCounts α] in
theorem rested_of_close {state after : State α} {tolerance : α}
    (bounded : ¬trialDistance < tolerance) (close : state.distance after < tolerance) :
    after.trials = 0 := by
  by_contra tries
  unfold State.distance at close
  rw [if_pos (UInt32.pos_iff_ne_zero.mpr tries)] at close
  exact bounded close

section Accepting

variable (counts : Scalar.CountsTrials α total)
  (warmup : ¬trialDistance < run.test.warmupTolerance)
include counts warmup

theorem accepts_of_moved {i : ℕ} (before : i < total) (moved : positions (i + 1) ≠ positions i) :
    positions (i + 1) = positions i + 1 ∧ Accepts (states i) (states (i + 1)) := by
  obtain ⟨next, goes, close⟩ := trail.moves i before moved
  exact ⟨next, trail.accepts_of_rested counts before goes (rested_of_close warmup close)⟩

theorem positions_since {last i : ℕ} (found : LastAccepted states i last) (inside : i ≤ total) :
    positions last = positions i := by
  obtain ⟨within, _, since⟩ := found
  induction i, within using Nat.le_induction with
  | base => rfl
  | succ i after ih =>
    have before := ih (by omega) fun j later earlier => since j later (by omega)
    by_contra moved
    rw [before] at moved
    exact since i after (by omega)
      (trail.accepts_of_moved counts warmup (by omega) (Ne.symm moved)).2

/-- A position is left with its second update or later: the first one opens the search. -/
theorem twice_of_moved {i : ℕ} (accepts : Accepts (states i) (states (i + 1)))
    (before : i < total) : 1 ≤ i ∧ positions (i - 1) = positions i := by
  have tried := UInt32.pos_iff_ne_zero.mp accepts.1
  cases i with
  | zero =>
    exact absurd ((congrArg Scalar.toUInt32 trail.trial_zero).trans toUInt32_zero) tried
  | succ i =>
    refine ⟨Nat.succ_pos i, ?_⟩
    rw [Nat.add_sub_cancel]
    by_contra moved
    exact tried (trail.accepts_of_moved counts warmup (by omega) (Ne.symm moved)).2.2

theorem two_mul_positions_le {i : ℕ} (inside : i ≤ total) :
    2 * positions i ≤ i + 2 ∧ ((states i).trials ≠ 0 → 2 * positions i ≤ i + 1) := by
  induction i with
  | zero =>
    rw [trail.first]
    refine ⟨Nat.le_refl 2, fun tried => ?_⟩
    exact absurd ((congrArg Scalar.toUInt32 trail.trial_zero).trans toUInt32_zero) tried
  | succ i ih =>
    obtain ⟨enough, trying⟩ := ih (by omega)
    by_cases stays : positions (i + 1) = positions i
    · rw [stays]
      exact ⟨by omega, fun _ => by omega⟩
    · obtain ⟨next, tried, rested⟩ := trail.accepts_of_moved counts warmup inside stays
      have more := trying (UInt32.pos_iff_ne_zero.mp tried)
      exact ⟨by omega, fun tries => absurd rested tries⟩

theorem exists_left {position : ℕ} (started : 1 ≤ position) {n : ℕ} (inside : n ≤ total)
    (left : position < positions n) :
    ∃ i < n, positions i = position ∧ positions (i + 1) ≠ positions i := by
  induction n with
  | zero =>
    rw [trail.first] at left
    omega
  | succ n ih =>
    by_cases earlier : position < positions n
    · obtain ⟨i, before, stands, moved⟩ := ih (by omega) earlier
      exact ⟨i, by omega, stands, moved⟩
    · have moved : positions (n + 1) ≠ positions n := by omega
      have next := (trail.accepts_of_moved counts warmup inside moved).1
      exact ⟨n, Nat.lt_succ_self n, by omega, moved⟩

end Accepting

end Trail

/-- The points of a run, the positions it leaves and what it compares there. -/
structure LeftOnAcceptance (family : Family) (run : Run α) (phase : Phase) (total : ℕ)
    (states : ℕ → State α) (positions : ℕ → ℕ) : Prop where
  point : ∀ i < total, ¬Accepts (states i) (states (i + 1)) →
    (states i).SamePoint (states (i + 1))
  begun : ∀ i < total, ∀ context, ∃ fresh : State α,
    (optimizer family).begin (some (layout.write (states i))) context =
      .ok (layout.write fresh) ∧ (states i).SamePoint fresh
  moved : ∀ i < total, positions (i + 1) ≠ positions i →
    positions (i + 1) = positions i + 1 ∧ Accepts (states i) (states (i + 1))
  converged : ∀ position, phase = .done position true →
    Accepts (states (total - 1)) (states total)
  /-- The distance on acceptance is that from the point accepted last, which is the one carried over
      if nothing has been accepted at the position yet. -/
  compared : ∀ i < total, Accepts (states i) (states (i + 1)) → ∃ last,
    LastAccepted states i last ∧ positions last = positions i ∧
    run.test.optimizer.distance (layout.write (states i)) (layout.write (states (i + 1))) =
      .ok (meanChange (Scalar.toUInt32 (states i).dimension) (states last).coefficients
        (states (i + 1)).coefficients (states last).intercept (states (i + 1)).intercept) ∧
    ((∀ j < i, positions j = positions i → ¬Accepts (states j) (states (j + 1))) →
      last = 0 ∨ positions (last - 1) ≠ positions last)
  twice : ∀ position, 1 ≤ position →
    position < positions total ∨ phase = .done position true →
    ∃ i, i + 1 < total ∧ positions i = position ∧ positions (i + 1) = position
  enough : ∀ position, phase = .done position true →
    position = run.path.size ∧ 2 * position ≤ total

section Runs

variable [Scalar.KeepsCounts α] {family : Family} {run : Run α}

theorem Trail.leftOnAcceptance {phase : Phase} {total : ℕ} {states : ℕ → State α}
    {positions : ℕ → ℕ} (trail : Trail family run phase total states positions)
    (tested : run.test.optimizer = optimizer family) (counts : Scalar.CountsTrials α total)
    (tolerance : ¬trialDistance < run.test.tolerance)
    (warmup : ¬trialDistance < run.test.warmupTolerance) :
    LeftOnAcceptance family run phase total states positions := by
  have positive := trail.positive
  have newest : total - 1 + 1 = total := by omega
  have through {position : ℕ} (done : phase = .done position true) :
      Accepts (states (total - 1)) (states (total - 1 + 1)) := by
    obtain ⟨_, _, goes, close⟩ := trail.converged position done
    rw [← newest] at goes
    have rested := rested_of_close tolerance close
    rw [← newest] at rested
    exact trail.accepts_of_rested counts (by omega) goes rested
  constructor
  case point => exact fun i before => trail.samePoint_of_not_accepts before
  case begun =>
    intro i before context
    have begun := ((carriedOut family run.source.dimension).begin
      (trail.sized i (Nat.le_of_lt before)) context).2
    have kept := State.samePoint_of_cleared (State.cleared_begin (states i) context)
    exact ⟨_, begun, ((states i).samePoint_resumed context).trans kept⟩
  case moved => exact fun i => trail.accepts_of_moved counts warmup
  case converged =>
    intro position done
    have accepts := through done
    rwa [newest] at accepts
  case compared =>
    intro i before accepts
    obtain ⟨last, found⟩ := exists_lastAccepted states i
    have stays := trail.positions_since counts warmup found (Nat.le_of_lt before)
    have point := trail.samePoint_since found (Nat.le_of_lt before)
    refine ⟨last, found, stays, ?_, ?_⟩
    · rw [tested, distance_write (trail.sized i (Nat.le_of_lt before)) (trail.sized (i + 1) before),
        State.distance, if_neg (by rw [accepts.2]; decide), point.coefficients, point.intercept]
    -- Otherwise the point accepted last was accepted at this position.
    · intro none
      rcases found.accepted with zero | earlier
      · exact .inl zero
      · by_cases zero : last = 0
        · exact .inl zero
        · right
          intro same
          have within := found.within
          apply none (last - 1) (by omega) (same.trans stays)
          rwa [Nat.sub_add_cancel (Nat.pos_of_ne_zero zero)]
  case twice =>
    rintro position started (left | done)
    · obtain ⟨i, before, stands, left⟩ :=
        trail.exists_left counts warmup started (Nat.le_refl _) left
      have accepts := (trail.accepts_of_moved counts warmup before left).2
      obtain ⟨some, same⟩ := trail.twice_of_moved counts warmup accepts before
      refine ⟨i - 1, by omega, same.trans stands, ?_⟩
      rwa [Nat.sub_add_cancel some]
    · obtain ⟨_, stands, _⟩ := trail.converged position done
      obtain ⟨some, same⟩ := trail.twice_of_moved counts warmup (through done) (by omega)
      refine ⟨total - 1 - 1, by omega, same.trans stands, ?_⟩
      rwa [Nat.sub_add_cancel some]
  case enough =>
    intro position done
    obtain ⟨target, stands, _⟩ := trail.converged position done
    have trying := (trail.two_mul_positions_le counts warmup (by omega : total - 1 ≤ total)).2
      (UInt32.pos_iff_ne_zero.mp (through done).1)
    exact ⟨target, by omega⟩

/-- A run to its end with tolerances that the distance of trials does not meet leaves its positions
    on accepted points only. -/
theorem left_on_acceptance (sure : OnFista family run)
    (tolerance : ¬trialDistance < run.test.tolerance)
    (warmup : ¬trialDistance < run.test.warmupTolerance) {store : Store (Slots α)}
    (notes : List Note) (fresh : store.history run.group = []) :
    ∃ after states positions, run.toEnd ⟨.start, store, notes⟩ = .ok () after ∧
      Recorded run after states positions ∧
      (Scalar.CountsTrials α after.progress.iterations →
        LeftOnAcceptance family run after.progress.phase after.progress.iterations states
          positions) := by
  obtain ⟨after, states, positions, ends, recorded, trail⟩ := sure.toEnd notes fresh
  exact ⟨after, states, positions, ends, recorded,
    fun counts => trail.leftOnAcceptance sure.tested counts tolerance warmup⟩

end Runs

def loneRowRun : Run Float where
  group := none
  path := ⟨[8, 2], List.cons_ne_nil 8 [2]⟩
  pass := ⟨optimizer .binomial, .single⟩
  test := ⟨optimizer .binomial, 0.001, 0.1⟩
  context := { StepContext.default with dimension := 1, totalRows := 1 }
  source := ⟨1, [⟨1, [⟨[1], 1, ""⟩], by decide⟩], by simp⟩
  budget := 100

theorem onFista_loneRow : OnFista .binomial loneRowRun where
  optimizer := rfl
  tested := rfl
  dimension := rfl
  features := by decide
  small := by decide
  paid := by decide

theorem left_on_acceptance_loneRow :
    OnFista .binomial loneRowRun ∧ ¬(trialDistance : Float) < 0.001 ∧
      ¬(trialDistance : Float) < 0.1 ∧
    ∃ after states positions, loneRowRun.toEnd .start = .ok () after ∧
      Recorded loneRowRun after states positions ∧
      LeftOnAcceptance .binomial loneRowRun after.progress.phase after.progress.iterations states
        positions := by
  have tolerance : ¬(trialDistance : Float) < 0.001 := by decide +kernel
  have warmup : ¬(trialDistance : Float) < 0.1 := by decide +kernel
  have fresh : (Store.empty : Store (Slots Float)).history loneRowRun.group = [] := rfl
  obtain ⟨after, states, positions, ends, recorded, left⟩ :=
    left_on_acceptance onFista_loneRow tolerance warmup [] fresh
  have few : after.progress.iterations < UInt32.size :=
    Nat.lt_of_le_of_lt recorded.bounded (by decide)
  exact ⟨onFista_loneRow, tolerance, warmup, after, states, positions, ends, recorded,
    left (countsTrials_float few)⟩

end Fista

end ElasticNet
