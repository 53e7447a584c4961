import ElasticNet.Proofs.Groups.Adding
import ElasticNet.Proofs.Halving

namespace ElasticNet

open Command

theorem Command.mapM_eq_error {β γ : Type} {first : β → Except Error γ} {list : List β}
    {element : β} (inside : element ∈ list) {error : Error} (fails : first element = .error error) :
    ∃ raised, list.mapM first = .error raised ∧ ∃ other ∈ list, first other = .error raised := by
  induction list with
  | nil => cases inside
  | cons head tail ih =>
    rw [List.mapM_cons]
    cases started : first head with
    | error raised => exact ⟨raised, rfl, head, List.mem_cons_self, started⟩
    | ok given =>
      have later : element ∈ tail := by
        rcases List.mem_cons.mp inside with rfl | later
        · rw [fails] at started
          cases started
        · exact later
      obtain ⟨raised, stopped, other, among, own⟩ := ih later
      rw [stopped]
      exact ⟨raised, rfl, other, List.mem_cons_of_mem head among, own⟩

namespace Groups

variable {α : Type} [Scalar α]

/-- What a tick that cannot be made fails with: groups that were not started, or the failure of a
    group that is under way. -/
def Stops (state : GroupsState α) (raised : Error) : Prop :=
  if state.started then
    ∃ member ∈ state.pending, member.run.step (state.view member) = .error raised
  else raised = .groupsNotStarted

theorem nextStates_eq_error {state : GroupsState α} {member : Member α}
    (waiting : member ∈ state.pending) {error : Error}
    (fails : member.run.step (state.view member) = .error error) :
    ∃ raised, nextStates state = .error raised ∧
      ∃ other ∈ state.pending, other.run.step (state.view other) = .error raised := by
  have failing : (member.run.step (state.view member)).map (fun next => (member, next)) =
      .error error := by
    rw [fails]
    rfl
  obtain ⟨raised, stopped, other, among, own⟩ : ∃ raised, nextStates state = .error raised ∧
      ∃ other ∈ state.pending,
        (other.run.step (state.view other)).map (fun next => (other, next)) = .error raised :=
    mapM_eq_error waiting failing
  refine ⟨raised, stopped, other, among, ?_⟩
  cases stepped : other.run.step (state.view other) with
  | ok next =>
    rw [stepped] at own
    cases own
  | error given =>
    rw [stepped] at own
    cases own
    rfl

theorem tick_of_step_fails {state : GroupsState α} {member : Member α}
    (waiting : member ∈ state.pending) {error : Error}
    (fails : member.run.step (state.view member) = .error error) :
    ∃ raised, Stops state raised ∧ tick state = .error raised state := by
  unfold Stops tick
  rw [get_bind]
  cases state.started with
  | false => exact ⟨.groupsNotStarted, rfl, rfl⟩
  | true =>
    obtain ⟨raised, stopped, own⟩ := nextStates_eq_error waiting fails
    have underWay : state.pending.isEmpty = false :=
      List.isEmpty_eq_false_iff_exists_mem.mpr ⟨member, waiting⟩
    refine ⟨raised, own, ?_⟩
    rw [underWay, stopped]
    rfl

theorem pending_of_tick_last {state last : GroupsState α} (ticked : tick state = .ok false last) :
    last.pending = [] := by
  unfold tick at ticked
  rw [get_bind] at ticked
  cases started : state.started with
  | false =>
    rw [started] at ticked
    cases ticked
  | true =>
    cases idle : state.pending.isEmpty with
    | true =>
      rw [started, idle] at ticked
      cases ticked
      exact List.isEmpty_iff.mp idle
    | false =>
      rw [started, idle] at ticked
      obtain ⟨next, _, rest⟩ := lift_bind_eq_ok ticked
      obtain ⟨_, advanced, _, counted⟩ := bind_eq_ok rest
      obtain ⟨_, _, moved, answered⟩ := bind_eq_ok counted
      cases moved
      rw [get_bind] at answered
      injection answered with more same
      subst same
      exact List.isEmpty_iff.mp ((Bool.not_eq_false' _).mp more)

/-- Ticks that lead to a state in which groups are still under way were all made, so a run that may
    tick more often ticks from there on. -/
theorem tickUntilDone_add {earlier state : GroupsState α} {ticks : Nat}
    (leads : tickUntilDone ticks earlier = .ok () state) (underWay : state.pending ≠ [])
    (more : Nat) : tickUntilDone (ticks + more) earlier = tickUntilDone more state := by
  induction ticks generalizing earlier with
  | zero =>
    cases leads
    rw [Nat.zero_add]
  | succ ticks ih =>
    obtain ⟨going, next, ticked, rest⟩ := bind_eq_ok leads
    cases going with
    | false =>
      cases rest
      exact absurd (pending_of_tick_last ticked) underWay
    | true =>
      rw [Nat.succ_add]
      exact (bind_of_ok ticked).trans (ih rest)

theorem tickUntilDone_of_error {state : GroupsState α} {raised : Error}
    (stopped : tick state = .error raised state) (fuel : Nat) :
    tickUntilDone (fuel + 1) state = .error raised state :=
  bind_of_error stopped

/-- A tick in which the step of a group under way fails, whichever group that is, fails and changes
    nothing. A grouped run stops there: it fails as the tick does, and leaves the state that the
    complete ticks before it have led to. -/
theorem failed_tick_changes_nothing (state : GroupsState α) {member : Member α}
    (waiting : member ∈ state.pending) {error : Error}
    (fails : member.run.step (state.view member) = .error error) :
    ∃ raised, Stops state raised ∧ tick state = .error raised state ∧
      ∀ (groups : Groups α) (earlier : GroupsState α) (ticks : Nat), earlier.started = true →
        ticks ≤ groups.budget → tickUntilDone ticks earlier = .ok () state →
        groups.toEnd earlier = .error raised state := by
  obtain ⟨raised, stops, stopped⟩ := tick_of_step_fails waiting fails
  refine ⟨raised, stops, stopped, ?_⟩
  intro groups earlier ticks started enough leads
  have spare : groups.budget + 1 = ticks + (groups.budget - ticks + 1) := by omega
  have ended : tickUntilDone (groups.budget + 1) earlier = .error raised state := by
    rw [spare, tickUntilDone_add leads (List.ne_nil_of_mem waiting)]
    exact tickUntilDone_of_error stopped _
  unfold toEnd
  rw [get_bind, started]
  exact bind_of_error ended

def boundedHalving (bound : Float) : Optimizer Float where
  __ := Halving.optimizer
  begin previous? context := do
    if let some previous := previous? then
      if bound < (← Slots.read previous Halving.valueSlot) then throw .indexOutOfBounds
    Halving.optimizer.begin previous? context

def overreaching : Groups Float where
  path := ⟨[2], List.cons_ne_nil 2 []⟩
  pass := ⟨boundedHalving 5, .single⟩
  test := ⟨boundedHalving 5, 0.25, 0.25⟩
  budget := 5

def overreachingEntries : List (Entry Float) :=
  [⟨"far", .default, Halving.lone 8⟩, ⟨"close", .default, Halving.lone 4⟩]

def overreachingStart : GroupsState Float :=
  (result (do overreaching.addAll overreachingEntries; start) .start).2

def overreachingStop : GroupsState Float :=
  (result (tickUntilDone 2) overreachingStart).2

theorem overreaching_stops : overreachingStop.pendingKeys = ["close", "far"] ∧
    overreachingStop.ticks = 2 ∧ ∃ raised,
      tick overreachingStop = .error raised overreachingStop ∧
      overreaching.toEnd overreachingStart = .error raised overreachingStop := by
  have underWay : overreachingStop.pendingKeys = ["close", "far"] := by decide +kernel
  have ticked : overreachingStop.ticks = 2 := by decide +kernel
  have started : overreachingStart.started = true := by decide +kernel
  have leads : tickUntilDone 2 overreachingStart = .ok () overreachingStop :=
    ends_of_isOk (by decide +kernel)
  have failing : overreachingStop.pending.any (fun member =>
      !(member.run.step (overreachingStop.view member)).isOk) = true := by decide +kernel
  obtain ⟨member, waiting, refused⟩ := List.any_eq_true.mp failing
  cases stepped : member.run.step (overreachingStop.view member) with
  | ok next =>
    rw [stepped] at refused
    cases refused
  | error error =>
    obtain ⟨raised, _, stopped, runs⟩ :=
      failed_tick_changes_nothing overreachingStop waiting stepped
    exact ⟨underWay, ticked, raised, stopped,
      runs overreaching overreachingStart 2 started (by decide) leads⟩

end Groups

end ElasticNet
