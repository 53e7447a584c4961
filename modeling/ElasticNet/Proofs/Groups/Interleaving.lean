import ElasticNet.Proofs.Groups.Members
import ElasticNet.Proofs.Run.Trajectory

namespace ElasticNet.Groups

open Command

variable {α : Type}

theorem shows_itself {state : GroupsState α} (regular : Regular state.members) :
    Shows state.members state.store (perKey state.members state.view) state := by
  refine ⟨?_, ?_, fun _ _ => rfl⟩
  · rw [List.map_congr_left (g := id), List.map_id]
    intro member given
    rw [perKey_of_mem regular _ given]
    rfl
  · intro member given key _
    rw [perKey_of_mem regular _ given]
    rfl

variable [Scalar α]

theorem advanceAll_perm {state last : GroupsState α} (regular : Regular state.members)
    {commits other : List (Member α × Slots α)} (same : commits.Perm other)
    (given : ∀ commit ∈ commits, commit.1 ∈ state.members)
    (distinct : (commits.map fun commit => commit.1.key).Nodup)
    (ended : advanceAll commits state = .ok () last) :
    ∃ otherLast, advanceAll other state = .ok () otherLast ∧ otherLast.members = last.members ∧
      ∀ group, otherLast.store.history group = last.store.history group := by
  have orders : ∀ list : List (Member α × Slots α), commits.Perm list →
      Orders state.members (perKey state.members state.view)
        (list.map fun commit => (commit.1, commit.1.run.advance (some commit.2))) := by
    intro list permuted
    refine ⟨?_, ?_, ?_⟩
    · intro entry inWork
      obtain ⟨commit, inList, rfl⟩ := List.mem_map.mp inWork
      have inside := given commit (permuted.mem_iff.mpr inList)
      refine ⟨commit.1, inside, ?_⟩
      rw [perKey_of_mem regular _ inside]
      rfl
    · rw [List.map_map]
      exact (permuted.map fun commit => commit.1.key).nodup_iff.mp distinct
    · intro entry inWork
      obtain ⟨commit, _, rfl⟩ := List.mem_map.mp inWork
      exact fun _ => Run.advance_apart _
  have shown := shows_itself regular
  rw [advanceAll_eq_onAll] at ended ⊢
  obtain ⟨final, ends⟩ := shown.ends_of_onAll regular (orders commits (.refl _)) ended
  obtain ⟨again, endedAgain, lastShown, _⟩ := shown.onAll regular (orders commits (.refl _)) ends
  rw [ended] at endedAgain
  cases endedAgain
  have permuted := same.map fun commit => (commit.1, commit.1.run.advance (some commit.2))
  obtain ⟨otherLast, otherEnded, otherShown, _⟩ := shown.onAll regular (orders other same)
    fun entry inWork => ends entry (permuted.mem_iff.mpr inWork)
  refine ⟨otherLast, otherEnded, ?_⟩
  apply (otherShown.congr ?_).unique lastShown
  intro member _
  simp only [(permuted.map fun entry => entry.1.key).mem_iff]

/-- Runs of different groups over one store that has no record of them: whatever is asked of them,
    in whatever order, each of them reports what it would report alone to its own calls, and is as
    far and has the same history. So schedules with the same calls of each run come to the same, and
    so does a tick, in whatever order it takes in the next states. -/
theorem interleaving_immaterial {ι : Type} [DecidableEq ι] (runs : ι → Run α)
    (distinct : Function.Injective fun i => (runs i).group) (store : Store (Slots α))
    (notes : List Note) (fresh : ∀ i, store.history (runs i).group = []) :
    let origin : Run.Shared ι α := ⟨fun _ => .start, store, notes⟩
    (∀ (schedule : List (ι × Run.Call α)) (i : ι),
      let shared := Run.Shared.play runs schedule origin
      let alone := (runs i).play (Run.ownOf i schedule) .start
      Run.ownOf i shared.1 = alone.1 ∧
      shared.2.progress i = alone.2.progress ∧
      shared.2.store.history (runs i).group = alone.2.store.history (runs i).group) ∧
    (∀ schedule other : List (ι × Run.Call α),
      (∀ i, Run.ownOf i schedule = Run.ownOf i other) → ∀ i,
      let shared := Run.Shared.play runs schedule origin
      let otherShared := Run.Shared.play runs other origin
      Run.ownOf i shared.1 = Run.ownOf i otherShared.1 ∧
      shared.2.progress i = otherShared.2.progress i ∧
      shared.2.store.history (runs i).group = otherShared.2.store.history (runs i).group) ∧
    ∀ (state last : GroupsState α) (commits other : List (Member α × Slots α)),
      Regular state.members → (∀ commit ∈ commits, commit.1 ∈ state.members) →
      (commits.map fun commit => commit.1.key).Nodup → commits.Perm other →
      advanceAll commits state = .ok () last →
      ∃ otherLast, advanceAll other state = .ok () otherLast ∧
        otherLast.members = last.members ∧
        ∀ group, otherLast.store.history group = last.store.history group := by
  intro origin
  have solo : ∀ (schedule : List (ι × Run.Call α)) (i : ι),
      let shared := Run.Shared.play runs schedule origin
      let alone := (runs i).play (Run.ownOf i schedule) .start
      Run.ownOf i shared.1 = alone.1 ∧
      shared.2.progress i = alone.2.progress ∧
      shared.2.store.history (runs i).group = alone.2.store.history (runs i).group := by
    intro schedule i
    have agrees : origin.Agrees runs i .start :=
      ⟨rfl, fun key => Store.state?_of_history_nil (fresh i), fun _ _ => rfl⟩
    obtain ⟨reports, apart⟩ := agrees.play distinct schedule
    exact ⟨reports, apart.progress, Store.history_congr apart.own⟩
  refine ⟨solo, ?_, ?_⟩
  · intro schedule other same i
    have first := solo schedule i
    have second := solo other i
    rw [← same i] at second
    exact ⟨first.1.trans second.1.symm, first.2.1.trans second.2.1.symm,
      first.2.2.trans second.2.2.symm⟩
  · intro state last commits other regular given different same ended
    exact advanceAll_perm regular same given different ended

def twins (grouped : Bool) : Run Float :=
  { Run.halfway with group := if grouped then some "" else none }

def pair : GroupsState Float :=
  (result start ⟨["a", "b"].map fun key => ⟨key, { Run.halfway with group := some key }, .start⟩,
    false, 0, .empty, []⟩).2

def pairCommits : List (Member Float × Slots Float) :=
  pair.members.map fun member => (member, [2, 3, 1, 1, 4, 0])

theorem interleaving_twins :
    (let schedule : List (Bool × Run.Call Float) :=
      [(true, .start), (false, .step), (false, .start), (false, .step), (true, .current)]
    let last := (Run.Shared.play twins schedule ⟨fun _ => .start, .empty, []⟩).2
    let alone := ((twins true).play [.start, .current] .start).2
    last.progress true = alone.progress ∧
      last.store.history (some "") = alone.store.history (some "")) ∧
    ∃ last otherLast, advanceAll pairCommits pair = .ok () last ∧
      advanceAll pairCommits.reverse pair = .ok () otherLast ∧
      otherLast.members = last.members := by
  have distinct : Function.Injective fun grouped => (twins grouped).group := by
    intro first second same
    cases first <;> cases second <;> simp [twins] at same ⊢
  obtain ⟨solo, _, ticks⟩ := interleaving_immaterial twins distinct .empty [] fun _ =>
    Store.history_empty _
  refine ⟨(solo _ true).2, ?_⟩
  have regular : Regular pair.members := ⟨by decide +kernel, by decide +kernel⟩
  have given : ∀ commit ∈ pairCommits, commit.1 ∈ pair.members := by
    intro commit inCommits
    obtain ⟨member, inside, rfl⟩ := List.mem_map.mp inCommits
    exact inside
  have ended : advanceAll pairCommits pair = .ok () ((advanceAll pairCommits).result pair).2 :=
    ends_of_isOk (by decide +kernel)
  obtain ⟨otherLast, otherEnded, same, _⟩ := ticks pair _ pairCommits _ regular given
    (by decide +kernel) (List.reverse_perm _).symm ended
  exact ⟨_, otherLast, ended, otherEnded, same⟩

end ElasticNet.Groups
