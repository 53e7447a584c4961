import ElasticNet.Proofs.Groups.Adding
import ElasticNet.Proofs.Run.Alone

namespace ElasticNet.Groups

open Command

variable {α : Type}

theorem withProgress_start {member : Member α} (unstarted : member.progress = .start) :
    member.withProgress .start = member := by
  unfold Member.withProgress
  rw [show RunState.start.progress = member.progress from unstarted.symm]

theorem exists_pending (state : GroupsState α) :
    (!state.pending.isEmpty) = true ↔
      ∃ member ∈ state.members, member.progress.phase.isTerminal = false := by
  unfold GroupsState.pending
  rw [Bool.not_eq_true', List.isEmpty_eq_false_iff_exists_mem]
  simp only [List.mem_filter, Member.isPending, Bool.not_eq_true']

variable [Scalar α]

/-- Members before their start, whose optimizer will answer. -/
structure Playable (members : List (Member α)) : Prop where
  regular : Regular members
  unstarted : ∀ member ∈ members, member.progress = .start
  paid : ∀ member ∈ members, 0 < member.run.budget
  answers : ∀ member ∈ members, member.run.Answers

def afterTicks (members : List (Member α)) (ticks : Nat) : String → RunState α :=
  perKey members fun member => member.run.alone ticks

def longest (members : List (Member α)) : Nat :=
  (members.map fun member => member.run.updatesAlone).foldr max 0

theorem lt_longest (members : List (Member α)) (ticks : Nat) :
    ticks < longest members ↔ ∃ member ∈ members, ticks < member.run.updatesAlone := by
  unfold longest
  induction members with
  | nil => simp
  | cons member rest ih =>
    rw [List.map_cons, List.foldr_cons, List.exists_mem_cons_iff, ← ih]
    omega

theorem updates_le_of_longest {members : List (Member α)} {ticks : Nat}
    (ended : longest members ≤ ticks) {member : Member α} (given : member ∈ members) :
    member.run.updatesAlone ≤ ticks := by
  apply Nat.le_of_not_lt
  intro later
  exact Nat.not_lt_of_le ended ((lt_longest members ticks).mpr ⟨member, given, later⟩)

structure Ticked (members : List (Member α)) (outside : Store (Slots α)) (ticks : Nat)
    (state : GroupsState α) : Prop where
  shown : Shows members outside (afterTicks members ticks) state
  started : state.started = true
  counted : state.ticks = min ticks (longest members)

section Ticks

variable {members : List (Member α)} (playable : Playable members)
include playable

theorem afterTicks_of_mem (ticks : Nat) {member : Member α} (given : member ∈ members) :
    afterTicks members ticks member.key = member.run.alone ticks :=
  perKey_of_mem playable.regular _ given

theorem afterTicks_of_le {ticks : Nat} {member : Member α} (given : member ∈ members)
    (ended : member.run.updatesAlone ≤ ticks) :
    afterTicks members (ticks + 1) member.key = afterTicks members ticks member.key := by
  rw [afterTicks_of_mem playable _ given, afterTicks_of_mem playable _ given]
  exact Run.alone_of_le (playable.paid member given) (playable.answers member given) ended

theorem afterTicks_of_longest {ticks : Nat} (ended : longest members ≤ ticks) {member : Member α}
    (given : member ∈ members) :
    afterTicks members ticks member.key = member.run.alone member.run.updatesAlone := by
  rw [afterTicks_of_mem playable ticks given]
  exact Run.alone_eq_last (playable.paid member given) (playable.answers member given)
    (updates_le_of_longest ended given)

theorem afterTicks_of_lt {ticks : Nat} {member : Member α} (given : member ∈ members)
    (before : ticks < member.run.updatesAlone) :
    member.run.step (afterTicks members ticks member.key) =
        .ok (member.run.stateAfter (ticks + 1)) ∧
      member.run.advance (some (member.run.stateAfter (ticks + 1)))
          (afterTicks members ticks member.key) =
        .ok () (afterTicks members (ticks + 1) member.key) := by
  rw [afterTicks_of_mem playable _ given, afterTicks_of_mem playable _ given]
  exact Run.alone_of_lt (playable.paid member given) (playable.answers member given) before

theorem start_ticked {store : Store (Slots α)} (notes : List Note)
    (fresh : ∀ member ∈ members, store.history (some member.key) = []) :
    ∃ started, start ⟨members, false, 0, store, notes⟩ = .ok () started ∧
      Ticked members store 0 started := by
  have shown : Shows members store (fun _ => .start) ⟨members, true, 0, store, notes⟩ := by
    refine ⟨?_, fun member given key => Store.state?_of_history_nil (fresh member given),
      fun _ _ => rfl⟩
    rw [List.map_congr_left
        fun member given => withProgress_start (playable.unstarted member given),
      List.map_id']
  have ends : ∀ member ∈ members,
      member.run.start RunState.start = .ok () (afterTicks members 0 member.key) := by
    intro member given
    rw [afterTicks_of_mem playable 0 given]
    exact Run.alone_zero (playable.paid member given) (playable.answers member given)
  obtain ⟨started, ended, startedShown, same, ticks⟩ := shown.each playable.regular
    (.refl members) (fun _ _ => Run.start_apart) ends fun member given missing =>
      absurd given missing
  refine ⟨started, ?_, startedShown, same, ticks.trans (Nat.zero_min _).symm⟩
  have work : (members.map fun member =>
      (member.withProgress RunState.start, member.run.start)) =
      members.map fun member => (member, member.run.start) := by
    apply List.map_congr_left
    intro member given
    rw [withProgress_start (playable.unstarted member given)]
  rw [work, ← startAll_eq_onAll] at ended
  exact ended

theorem pending_of_shows {outside : Store (Slots α)} {state : GroupsState α} {ticks : Nat}
    (shown : Shows members outside (afterTicks members ticks) state) :
    state.pending = (members.filter fun member => ticks < member.run.updatesAlone).map
      fun member => member.withProgress (afterTicks members ticks member.key) := by
  unfold GroupsState.pending
  rw [shown.placed, List.filter_map]
  congr 1
  apply List.filter_congr
  intro member given
  have terminal := Run.isTerminal_alone (playable.paid member given) (playable.answers member given)
    ticks
  rw [← afterTicks_of_mem playable ticks given] at terminal
  change (!(afterTicks members ticks member.key).progress.phase.isTerminal) = _
  rw [terminal]
  by_cases before : ticks < member.run.updatesAlone
  · simp [before]
  · simp [before, Nat.le_of_not_lt before]

theorem isEmpty_pending {outside : Store (Slots α)} {state : GroupsState α} {ticks : Nat}
    (shown : Shows members outside (afterTicks members ticks) state) :
    state.pending.isEmpty = decide (longest members ≤ ticks) := by
  rw [Bool.eq_iff_iff, decide_eq_true_eq, ← Nat.not_lt, lt_longest, List.isEmpty_iff,
    pending_of_shows playable shown, List.map_eq_nil_iff, List.filter_eq_nil_iff]
  simp

theorem nextStates_eq_ok {outside : Store (Slots α)} {state : GroupsState α} {ticks : Nat}
    (shown : Shows members outside (afterTicks members ticks) state) :
    nextStates state =
      .ok (state.pending.map fun member => (member, member.run.stateAfter (ticks + 1))) := by
  unfold nextStates
  apply mapM_eq_ok
  intro actual waiting
  rw [pending_of_shows playable shown] at waiting
  obtain ⟨member, filtered, rfl⟩ := List.mem_map.mp waiting
  obtain ⟨given, before⟩ := List.mem_filter.mp filtered
  have stepped := Run.step_apart (shown.apart playable.regular given)
  change ((member.run.step _).map fun next => (_, next)) = _
  rw [stepped, (afterTicks_of_lt playable given (of_decide_eq_true before)).1]
  rfl

theorem advanceAll_shows {outside : Store (Slots α)} {state : GroupsState α} {ticks : Nat}
    (shown : Shows members outside (afterTicks members ticks) state) :
    ∃ next, advanceAll (state.pending.map fun member =>
        (member, member.run.stateAfter (ticks + 1))) state = .ok () next ∧
      Shows members outside (afterTicks members (ticks + 1)) next ∧
      next.started = state.started ∧ next.ticks = state.ticks := by
  have ends : ∀ member ∈ members.filter fun member => ticks < member.run.updatesAlone,
      member.run.advance (some (member.run.stateAfter (ticks + 1)))
          (afterTicks members ticks member.key) =
        .ok () (afterTicks members (ticks + 1) member.key) := by
    intro member filtered
    obtain ⟨given, before⟩ := List.mem_filter.mp filtered
    exact (afterTicks_of_lt playable given (of_decide_eq_true before)).2
  have stays : ∀ member ∈ members,
      member ∉ members.filter (fun member => ticks < member.run.updatesAlone) →
      afterTicks members (ticks + 1) member.key = afterTicks members ticks member.key := by
    intro member given missing
    apply afterTicks_of_le playable given
    apply Nat.le_of_not_lt
    intro before
    exact missing (List.mem_filter.mpr ⟨given, decide_eq_true before⟩)
  obtain ⟨next, advanced, rest⟩ := shown.each playable.regular List.filter_sublist
    (fun _ _ => Run.advance_apart _) ends stays
  refine ⟨next, ?_, rest⟩
  rw [advanceAll_eq_onAll, pending_of_shows playable shown, List.map_map, List.map_map]
  exact advanced

/-- A tick: the members that still take updates alone take one, and all others stay. -/
theorem Ticked.tick {outside : Store (Slots α)} {state : GroupsState α} {ticks : Nat}
    (ticked : Ticked members outside ticks state) :
    ∃ next, Groups.tick state = .ok (!next.pending.isEmpty) next ∧
      Ticked members outside (ticks + 1) next := by
  obtain ⟨shown, started, counted⟩ := ticked
  have idle := isEmpty_pending playable shown
  unfold Groups.tick
  rw [get_bind, idle, started]
  simp only [Bool.not_true, Bool.false_eq_true, if_false, decide_eq_true_eq]
  by_cases ended : longest members ≤ ticks
  · rw [if_pos ended]
    refine ⟨state, ?_, ?_, started, by omega⟩
    · rw [idle, decide_eq_true ended]
      rfl
    · apply shown.congr
      intro member given
      exact (afterTicks_of_le playable given (updates_le_of_longest ended given)).symm
  · rw [if_neg ended]
    obtain ⟨next, advanced, nextShown, same, kept⟩ := advanceAll_shows playable shown
    refine ⟨{ next with ticks := next.ticks + 1 }, ?_,
      ⟨nextShown.placed, nextShown.own, nextShown.others⟩, same.trans started, ?_⟩
    · rw [nextStates_eq_ok playable shown, lift_ok_bind, bind_of_ok advanced]
      rfl
    · dsimp only
      omega

theorem Ticked.tickUntilDone {outside : Store (Slots α)} {state : GroupsState α} {ticks : Nat}
    (ticked : Ticked members outside ticks state) (fuel : Nat)
    (enough : longest members ≤ ticks + fuel) :
    ∃ last total, Groups.tickUntilDone fuel state = .ok () last ∧ longest members ≤ total ∧
      Ticked members outside total last := by
  induction fuel generalizing state ticks with
  | zero => exact ⟨state, ticks, rfl, enough, ticked⟩
  | succ fuel ih =>
    obtain ⟨next, goes, nextTicked⟩ := ticked.tick playable
    unfold Groups.tickUntilDone
    rw [bind_of_ok goes, isEmpty_pending playable nextTicked.shown]
    by_cases ended : longest members ≤ ticks + 1
    · rw [decide_eq_true ended]
      exact ⟨next, ticks + 1, rfl, ended, nextTicked⟩
    · rw [decide_eq_false ended]
      exact ih nextTicked (by omega)

end Ticks

/-- A state in which every group is where its run is alone after some ticks. -/
structure Matches (groups : Groups α) (entries : List (Entry α)) (ticks : Nat)
    (state : GroupsState α) : Prop where
  keys : state.keys.Perm (entries.map Entry.key)
  members : ∀ entry ∈ entries, ∃ member, state.member entry.key = .ok member ∧
    member.run = groups.runOf entry ∧
    member.progress = ((groups.runOf entry).alone ticks).progress ∧
    member.progress.iterations = min ticks (groups.runOf entry).updatesAlone ∧
    member.run.current (state.view member) =
      (groups.runOf entry).current ((groups.runOf entry).alone ticks) ∧
    state.store.history (some entry.key) =
      ((groups.runOf entry).alone ticks).store.history (some entry.key)

/-- A state in which every group has ended as its run ends alone. -/
structure Finished (groups : Groups α) (entries : List (Entry α)) (state : GroupsState α) :
    Prop where
  ticks : state.ticks = (entries.map fun entry => (groups.runOf entry).updatesAlone).foldr max 0
  terminal : ∀ member ∈ state.members, member.progress.phase.isTerminal = true
  failedCount : state.failedCount = (entries.filter fun entry =>
    ((groups.runOf entry).alone (groups.runOf entry).updatesAlone).progress.phase.isFailed).length

section Entries

variable {groups : Groups α} {entries : List (Entry α)} {members : List (Member α)}
  (permuted : members.Perm (entries.map groups.memberOf))
include permuted

theorem playable_of_entries (paid : 0 < groups.budget) (distinct : (entries.map Entry.key).Nodup)
    (answers : ∀ entry ∈ entries, (groups.runOf entry).Answers) : Playable members := by
  have origin : ∀ member ∈ members, ∃ entry ∈ entries, groups.memberOf entry = member :=
    fun member given => List.mem_map.mp (permuted.mem_iff.mp given)
  refine ⟨⟨?_, ?_⟩, ?_, ?_, ?_⟩
  · rw [(permuted.map Member.key).nodup_iff, List.map_map]
    exact distinct
  · intro member given
    obtain ⟨entry, _, rfl⟩ := origin member given
    rfl
  · intro member given
    obtain ⟨entry, _, rfl⟩ := origin member given
    rfl
  · intro member given
    obtain ⟨entry, _, rfl⟩ := origin member given
    exact paid
  · intro member given
    obtain ⟨entry, inside, rfl⟩ := origin member given
    exact answers entry inside

theorem matches_of_shows (playable : Playable members) {store : Store (Slots α)}
    {state : GroupsState α} {ticks : Nat}
    (shown : Shows members store (afterTicks members ticks) state) :
    Matches groups entries ticks state := by
  refine ⟨?_, ?_⟩
  · have keys := permuted.map Member.key
    rw [List.map_map] at keys
    unfold GroupsState.keys
    rw [shown.placed, List.map_map]
    exact keys
  · intro entry inside
    have given : groups.memberOf entry ∈ members :=
      permuted.mem_iff.mpr (List.mem_map.mpr ⟨entry, inside, rfl⟩)
    have same : afterTicks members ticks entry.key = (groups.runOf entry).alone ticks :=
      afterTicks_of_mem playable ticks given
    have apart := shown.apart playable.regular given
    have own := Store.history_congr (shown.own _ given)
    change (groups.runOf entry).Apart _ _ (afterTicks members ticks entry.key) at apart
    change state.store.history (some entry.key) =
      (afterTicks members ticks entry.key).store.history (some entry.key) at own
    have reads := Run.current_apart apart
    rw [same] at reads own
    refine ⟨_, shown.member playable.regular given, rfl, ?_, ?_, reads, own⟩
    · exact congrArg RunState.progress same
    · have counted := Run.iterations_alone (playable.paid _ given) (playable.answers _ given) ticks
      exact (congrArg (fun alone => alone.progress.iterations) same).trans counted

theorem finished_of_ticked (playable : Playable members) {store : Store (Slots α)}
    {state : GroupsState α} {total : Nat} (ticked : Ticked members store total state)
    (ended : longest members ≤ total) :
    Finished groups entries state ∧ Matches groups entries state.ticks state := by
  obtain ⟨shown, _, counted⟩ := ticked
  rw [Nat.min_eq_right ended] at counted
  have last : ∀ member ∈ members, afterTicks members total member.key =
      member.run.alone member.run.updatesAlone := fun member => afterTicks_of_longest playable ended
  refine ⟨⟨?_, ?_, ?_⟩, ?_⟩
  · rw [counted]
    unfold longest
    have updates := permuted.map fun member => member.run.updatesAlone
    rw [List.map_map] at updates
    exact updates.foldr_eq' (f := max)
      (fun first _ second _ third => Nat.max_left_comm second first third) 0
  · intro actual inState
    rw [shown.placed] at inState
    obtain ⟨member, given, rfl⟩ := List.mem_map.mp inState
    change (afterTicks members total member.key).progress.phase.isTerminal = true
    rw [last member given, Run.isTerminal_alone (playable.paid member given)
      (playable.answers member given), decide_eq_true (Nat.le_refl _)]
  · unfold GroupsState.failedCount
    rw [shown.placed, List.filter_map, List.length_map]
    have failing : ∀ member ∈ members,
        ((fun actual : Member α => actual.progress.phase.isFailed) ∘ fun member =>
          member.withProgress (afterTicks members total member.key)) member =
        (member.run.alone member.run.updatesAlone).progress.phase.isFailed := by
      intro member given
      rw [← last member given]
      rfl
    rw [List.filter_congr failing, (permuted.filter _).length_eq, List.filter_map, List.length_map]
    rfl
  · apply matches_of_shows permuted playable
    apply shown.congr
    intro member given
    rw [last member given, afterTicks_of_longest playable (Nat.le_of_eq counted.symm) given]

theorem longest_le_budget (playable : Playable members) : longest members ≤ groups.budget := by
  apply Nat.le_of_not_lt
  intro spent
  obtain ⟨member, given, later⟩ := (lt_longest members groups.budget).mp spent
  obtain ⟨_, _, ended⟩ := Run.toEnd_alone (playable.paid member given)
    (playable.answers member given)
  have bounded := ended.bounded
  obtain ⟨entry, _, rfl⟩ := List.mem_map.mp (permuted.mem_iff.mp given)
  exact Nat.not_lt_of_le bounded later

end Entries

def states (added : GroupsState α) : Nat → GroupsState α
  | 0 => (result start added).2
  | ticks + 1 => (result tick (states added ticks)).2

theorem states_zero {added started : GroupsState α} (starts : start added = .ok () started) :
    states added 0 = started := by
  unfold states result
  rw [starts]

theorem states_succ {added next : GroupsState α} {ticks : Nat} {more : Bool}
    (ticked : tick (states added ticks) = .ok more next) : states added (ticks + 1) = next := by
  rw [states]
  unfold result
  rw [ticked]

theorem states_ticked {members : List (Member α)} (playable : Playable members)
    {store : Store (Slots α)} (notes : List Note)
    (fresh : ∀ member ∈ members, store.history (some member.key) = []) (ticks : Nat) :
    Ticked members store ticks (states ⟨members, false, 0, store, notes⟩ ticks) := by
  induction ticks with
  | zero =>
    obtain ⟨started, starts, ticked⟩ := start_ticked playable notes fresh
    rw [states_zero starts]
    exact ticked
  | succ ticks ih =>
    obtain ⟨next, goes, ticked⟩ := ih.tick playable
    rw [states_succ goes]
    exact ticked

theorem toEnd_of_ticked {groups : Groups α} {members : List (Member α)}
    (playable : Playable members)
    {store : Store (Slots α)} {state : GroupsState α} {ticks : Nat}
    (ticked : Ticked members store ticks state) (enough : longest members ≤ groups.budget) :
    ∃ last total, groups.toEnd state = .ok () last ∧ longest members ≤ total ∧
      Ticked members store total last := by
  obtain ⟨last, total, goes, ended, lastTicked⟩ :=
    ticked.tickUntilDone playable (groups.budget + 1) (by omega)
  have finished : groups.toEnd state = .ok () { last with notes := last.notes ++
      [.info ("Grouped run finished after " ++ toString last.ticks ++ " ticks, "
        ++ toString last.failedCount ++ " of " ++ toString last.members.length
        ++ " groups failed")] } := by
    unfold toEnd
    rw [get_bind, ticked.started]
    exact bind_of_ok goes
  refine ⟨_, total, finished, ended, ?_, lastTicked.started, lastTicked.counted⟩
  exact ⟨lastTicked.shown.placed, lastTicked.shown.own, lastTicked.shown.others⟩

theorem toEnd_of_start {groups : Groups α} {state started : GroupsState α}
    (unstarted : state.started = false) (starts : start state = .ok () started)
    (same : started.started = true) : groups.toEnd state = groups.toEnd started := by
  unfold toEnd
  rw [get_bind, get_bind, unstarted, same]
  exact bind_of_ok starts

/-- The grouped run is the union of the runs of its groups. However the groups are added, after the
    start and any number of ticks each of them is where its run is alone after as many ticks, which
    is as many updates until it has ended; a tick tells whether a group is still under way; and the
    grouped run ends, from wherever it is, after as many ticks as the longest run takes updates. -/
theorem ticks_are_runs_alone (groups : Groups α) (paid : 0 < groups.budget)
    (entries : List (Entry α)) (distinct : (entries.map Entry.key).Nodup)
    (answers : ∀ entry ∈ entries, (groups.runOf entry).Answers) (store : Store (Slots α))
    (notes : List Note) (fresh : ∀ entry ∈ entries, store.history (some entry.key) = []) :
    (∀ entry ∈ entries, (groups.runOf entry).toEnd .start =
      .ok () ((groups.runOf entry).alone (groups.runOf entry).updatesAlone)) ∧
    ∃ (added : GroupsState α) (states : Nat → GroupsState α),
      (∀ other, entries.Perm other →
        groups.addAll other ⟨[], false, 0, store, notes⟩ = .ok () added) ∧
      start added = .ok () (states 0) ∧
      (∀ ticks, Matches groups entries ticks (states ticks) ∧
        ∃ more, tick (states ticks) = .ok more (states (ticks + 1)) ∧
          (more = true ↔ ∃ member ∈ (states (ticks + 1)).members,
            member.progress.phase.isTerminal = false) ∧
          (more = true ↔ ∃ entry ∈ entries, ticks + 1 < (groups.runOf entry).updatesAlone)) ∧
      ∀ state, state = added ∨ (∃ ticks, state = states ticks) →
        ∃ last, groups.toEnd state = .ok () last ∧ Finished groups entries last ∧
          Matches groups entries last.ticks last := by
  refine ⟨fun entry inside => Run.toEnd_eq_alone paid (answers entry inside), ?_⟩
  obtain ⟨members, adds, rising, permuted⟩ := groups.addAll_from_nil paid store notes distinct
  have playable := playable_of_entries permuted paid distinct answers
  have freshMembers : ∀ member ∈ members, store.history (some member.key) = [] := by
    intro member given
    obtain ⟨entry, inside, rfl⟩ := List.mem_map.mp (permuted.mem_iff.mp given)
    exact fresh entry inside
  have enough := longest_le_budget permuted playable
  have ticked := states_ticked playable notes freshMembers
  obtain ⟨started, starts, startTicked⟩ := start_ticked playable notes freshMembers
  refine ⟨⟨members, false, 0, store, notes⟩, states ⟨members, false, 0, store, notes⟩,
    ?_, ?_, ?_, ?_⟩
  · intro other same
    obtain ⟨otherMembers, otherAdds, otherRising, otherPermuted⟩ :=
      groups.addAll_from_nil paid store notes ((same.map Entry.key).nodup_iff.mp distinct)
    rw [otherAdds, otherRising.eq_of_perm rising
      (otherPermuted.trans ((same.map groups.memberOf).symm.trans permuted.symm))]
  · rw [states_zero starts]
    exact starts
  · intro ticks
    obtain ⟨next, goes, nextTicked⟩ := (ticked ticks).tick playable
    rw [states_succ goes]
    refine ⟨matches_of_shows permuted playable (ticked ticks).shown, _, goes,
      exists_pending next, ?_⟩
    rw [isEmpty_pending playable nextTicked.shown, Bool.not_eq_true', decide_eq_false_iff_not,
      Nat.not_le, lt_longest]
    constructor
    · rintro ⟨member, given, later⟩
      obtain ⟨entry, inside, rfl⟩ := List.mem_map.mp (permuted.mem_iff.mp given)
      exact ⟨entry, inside, later⟩
    · rintro ⟨entry, inside, later⟩
      have given := permuted.mem_iff.mpr (List.mem_map.mpr ⟨entry, inside, rfl⟩)
      exact ⟨groups.memberOf entry, given, later⟩
  · rintro state (rfl | ⟨ticks, rfl⟩)
    · obtain ⟨last, total, ends, ended, lastTicked⟩ := toEnd_of_ticked playable startTicked enough
      rw [toEnd_of_start rfl starts startTicked.started]
      exact ⟨last, ends, finished_of_ticked permuted playable lastTicked ended⟩
    · obtain ⟨last, total, ends, ended, lastTicked⟩ :=
        toEnd_of_ticked playable (ticked ticks) enough
      exact ⟨last, ends, finished_of_ticked permuted playable lastTicked ended⟩

def uneven : Groups Float where
  path := ⟨[1], List.cons_ne_nil 1 []⟩
  pass := ⟨Halving.optimizer, .single⟩
  test := ⟨Halving.optimizer, 2, 2⟩
  budget := 5

def unevenEntries : List (Entry Float) :=
  [⟨"full", .default, Halving.lone 4⟩, ⟨"empty", .default, .empty 0⟩]

theorem ticks_of_uneven : ∃ added last,
    uneven.addAll unevenEntries.reverse .start = .ok () added ∧
    uneven.toEnd added = .ok () last ∧ last.ticks = 2 ∧ last.failedCount = 1 := by
  have answers : ∀ entry ∈ unevenEntries, (uneven.runOf entry).Answers :=
    fun entry _ => Halving.answers _ rfl rfl
  obtain ⟨_, added, states, adds, _, _, ends⟩ := ticks_are_runs_alone uneven (by decide)
    unevenEntries (by decide) answers .empty [] fun _ _ => Store.history_empty _
  obtain ⟨last, ended, finished, _⟩ := ends added (.inl rfl)
  have ticks :
      (unevenEntries.map fun entry => (uneven.runOf entry).updatesAlone).foldr max 0 = 2 := by
    decide +kernel
  have failed : (unevenEntries.filter fun entry => ((uneven.runOf entry).alone
      (uneven.runOf entry).updatesAlone).progress.phase.isFailed).length = 1 := by
    decide +kernel
  exact ⟨added, last, adds _ (List.reverse_perm _).symm, ended, finished.ticks.trans ticks,
    finished.failedCount.trans failed⟩

end ElasticNet.Groups
