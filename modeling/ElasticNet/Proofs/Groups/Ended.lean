import ElasticNet.Proofs.Groups.Ticks

namespace ElasticNet.Groups

open Command

variable {α : Type} [Scalar α]

def aloneOf (groups : Groups α) (entry : Entry α) : RunState α :=
  (groups.runOf entry).alone (groups.runOf entry).updatesAlone

def lastOf (groups : Groups α) (entry : Entry α) : Member α :=
  (groups.memberOf entry).withProgress (groups.aloneOf entry)

/-- A grouped run all of whose groups have ended as their runs end alone. -/
structure EndedAlone (groups : Groups α) (entries : List (Entry α)) (state : GroupsState α) :
    Prop where
  members : state.members.Perm (entries.map groups.lastOf)
  member : ∀ entry ∈ entries, state.member entry.key = .ok (groups.lastOf entry)
  current : ∀ entry ∈ entries, (groups.runOf entry).current (state.view (groups.lastOf entry)) =
    (groups.runOf entry).current (groups.aloneOf entry)
  recorded : ∀ entry ∈ entries, ∀ key : StateKey, key.group = some entry.key →
    state.store.lookup key = (groups.aloneOf entry).store.lookup key

theorem endedAlone_of_ticked {groups : Groups α} {entries : List (Entry α)}
    {members : List (Member α)} (permuted : members.Perm (entries.map groups.memberOf))
    (playable : Playable members) {store : Store (Slots α)} {state : GroupsState α} {total : Nat}
    (ticked : Ticked members store total state) (ended : longest members ≤ total) :
    EndedAlone groups entries state := by
  have inside {entry : Entry α} (given : entry ∈ entries) : groups.memberOf entry ∈ members :=
    permuted.mem_iff.mpr (List.mem_map.mpr ⟨entry, given, rfl⟩)
  have last {entry : Entry α} (given : entry ∈ entries) :
      afterTicks members total (groups.memberOf entry).key = groups.aloneOf entry :=
    afterTicks_of_longest playable ended (inside given)
  have shown := ticked.shown
  refine ⟨?_, ?_, ?_, ?_⟩
  · rw [shown.placed]
    refine (permuted.map _).trans ?_
    rw [List.map_map]
    apply List.Perm.of_eq
    apply List.map_congr_left
    intro entry given
    change (groups.memberOf entry).withProgress _ = _
    rw [last given]
    rfl
  · intro entry given
    have found := shown.member playable.regular (inside given)
    rw [last given] at found
    exact found
  · intro entry given
    have apart := shown.apart playable.regular (inside given)
    rw [last given] at apart
    exact Run.current_apart apart
  · intro entry given key own
    have held := shown.own _ (inside given) key own
    rw [last given] at held
    exact Store.lookup_congr held

theorem toEnd_endedAlone (groups : Groups α) (paid : 0 < groups.budget) {entries : List (Entry α)}
    (distinct : (entries.map Entry.key).Nodup)
    (answers : ∀ entry ∈ entries, (groups.runOf entry).Answers) :
    ∃ added last, groups.addAll entries .start = .ok () added ∧
      groups.toEnd added = .ok () last ∧ EndedAlone groups entries last := by
  obtain ⟨members, adds, _, permuted⟩ := groups.addAll_from_nil paid .empty [] distinct
  have playable := playable_of_entries permuted paid distinct answers
  obtain ⟨started, starts, startTicked⟩ :=
    start_ticked playable [] fun member _ => Store.history_empty (some member.key)
  obtain ⟨last, total, ends, ended, lastTicked⟩ :=
    toEnd_of_ticked playable startTicked (longest_le_budget permuted playable)
  refine ⟨_, last, adds, ?_, endedAlone_of_ticked permuted playable lastTicked ended⟩
  rw [toEnd_of_start rfl starts startTicked.started]
  exact ends

end ElasticNet.Groups
