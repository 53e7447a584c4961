import ElasticNet.Proofs.StateKey
import ElasticNet.Proofs.Store
import Mathlib.Data.List.Nodup

namespace ElasticNet.Store

variable {σ : Type}

inductive Call (σ : Type) where
  | append (key : StateKey) (state? : Option σ)
  | release

namespace Call

/-- What becomes of a store. A call that is refused leaves it as it is. -/
def perform (store : Store σ) : Call σ → Store σ
  | append key state? => (store.append key state?).toOption.getD store
  | release => store.release

/-- What becomes of the list of accepted records: a state is accepted if there is one and its key is
    new. -/
def accept (held : List (StateKey × σ)) : Call σ → List (StateKey × σ)
  | append _ none => held
  | append key (some state) =>
    if key ∈ held.map Prod.fst then held else held ++ [(key, state)]
  | release => []

end Call

def afterCalls (calls : List (Call σ)) : Store σ :=
  calls.foldl Call.perform empty

def accepted (calls : List (Call σ)) : List (StateKey × σ) :=
  calls.foldl Call.accept []

structure Holds (store : Store σ) (held : List (StateKey × σ)) : Prop where
  distinct : (held.map Prod.fst).Nodup
  state? : ∀ key state, store.state? key = some state ↔ (key, state) ∈ held

theorem holds_empty : Holds (empty : Store σ) [] where
  distinct := .nil
  state? key state := by simp [state?_empty]

namespace Holds

variable {store : Store σ} {held : List (StateKey × σ)}

theorem state?_eq_none_iff (holds : Holds store held) (key : StateKey) :
    store.state? key = none ↔ key ∉ held.map Prod.fst := by
  rw [Option.eq_none_iff_forall_ne_some]
  constructor
  · intro none inside
    obtain ⟨⟨_, state⟩, member, rfl⟩ := List.mem_map.mp inside
    exact none state ((holds.state? _ state).mpr member)
  · intro fresh state recorded
    exact fresh (List.mem_map_of_mem ((holds.state? key state).mp recorded))

theorem exists_state (holds : Holds store held) {key : StateKey}
    (taken : key ∈ held.map Prod.fst) : ∃ state, store.state? key = some state := by
  rw [← Option.isSome_iff_exists, ← Option.ne_none_iff_isSome]
  exact fun none => (holds.state?_eq_none_iff key).mp none taken

theorem append_none (key : StateKey) : store.append key none = .error .recordOfNothing := rfl

theorem append_taken (holds : Holds store held) {key : StateKey}
    (taken : key ∈ held.map Prod.fst) (state : σ) :
    store.append key (some state) = .error (.recordedTwice key.text) := by
  obtain ⟨first, recorded⟩ := holds.exists_state taken
  exact append_of_held recorded state

theorem append_fresh (holds : Holds store held) {key : StateKey}
    (fresh : key ∉ held.map Prod.fst) (state : σ) :
    store.append key (some state) = .ok (store.put key state) :=
  append_of_fresh ((holds.state?_eq_none_iff key).mpr fresh) state

theorem put (holds : Holds store held) {key : StateKey} (fresh : key ∉ held.map Prod.fst)
    (state : σ) : Holds (store.put key state) (held ++ [(key, state)]) where
  distinct := by
    rw [List.map_append, List.nodup_append]
    refine ⟨holds.distinct, List.nodup_singleton key, ?_⟩
    intro other inside _ same equal
    obtain rfl := List.mem_singleton.mp same
    exact fresh (equal ▸ inside)
  state? other found := by
    rw [state?_put, List.mem_append, List.mem_singleton, Prod.mk.injEq]
    by_cases same : other = key
    · subst other
      have new : (key, found) ∉ held := fun inside => fresh (List.mem_map_of_mem inside)
      simp [new, eq_comm]
    · simp [same, holds.state? other found]

theorem perform (holds : Holds store held) (call : Call σ) :
    Holds (call.perform store) (call.accept held) := by
  cases call with
  | release => exact holds_empty
  | append key state? =>
    cases state? with
    | none => exact holds
    | some state =>
      unfold Call.perform Call.accept
      dsimp only
      split
      · next taken =>
        rw [holds.append_taken taken]
        exact holds
      · next fresh =>
        rw [holds.append_fresh fresh]
        exact holds.put fresh state

theorem foldl_perform (holds : Holds store held) (calls : List (Call σ)) :
    Holds (calls.foldl Call.perform store) (calls.foldl Call.accept held) := by
  induction calls generalizing store held with
  | nil => exact holds
  | cons call rest ih => exact ih (holds.perform call)

theorem records_perm (holds : Holds store held) : store.records.toList.Perm held := by
  have nodup : store.records.toList.Nodup := by
    apply List.Nodup.of_map Prod.fst
    rw [Std.TreeMap.map_fst_toList_eq_keys]
    exact Std.TreeMap.nodup_keys
  rw [List.perm_ext_iff_of_nodup nodup (List.Nodup.of_map Prod.fst holds.distinct)]
  intro (key, state)
  rw [Std.TreeMap.mem_toList_iff_getElem?_eq_some]
  exact holds.state? key state

theorem contains_iff (holds : Holds store held) (key : StateKey) :
    store.contains key = true ↔ key ∈ held.map Prod.fst := by
  rw [← not_iff_not, ← holds.state?_eq_none_iff, contains,
    Std.TreeMap.contains_eq_isSome_getElem?, Bool.not_eq_true, Option.isSome_eq_false_iff,
    Option.isNone_iff_eq_none]
  rfl

theorem history_perm (holds : Holds store held) (group : Option String) :
    (store.history group).Perm (held.filter fun record => record.1.group = group) :=
  holds.records_perm.filter _

theorem mem_history_iff (holds : Holds store held) (group : Option String)
    (record : StateKey × σ) :
    record ∈ store.history group ↔ record ∈ held ∧ record.1.group = group := by
  rw [(holds.history_perm group).mem_iff, List.mem_filter, decide_eq_true_iff]

end Holds

theorem history_earlier (store : Store σ) (group : Option String) :
    (store.history group).Pairwise fun record later => record.1.Earlier later.1 := by
  apply (history_ordered store group).imp_of_mem
  intro record later inside insideToo before
  rw [StateKey.compare_eq_lt_iff] at before
  have inGroup : record.1.group = group := ((mem_history store group _ _).mp inside).2
  have inGroupToo : later.1.group = group := ((mem_history store group _ _).mp insideToo).2
  rcases before with apart | ⟨_, earlier⟩
  · rw [inGroup, inGroupToo, ← StateKey.compare_group_lt_iff,
      Std.ReflOrd.compare_self] at apart
    cases apart
  · exact earlier

/-- How a store answers that holds the records of a list: every call by what is in the list. -/
structure AnswersFrom (held : List (StateKey × σ)) (store : Store σ) : Prop where
  append_ok : ∀ key state?, (∃ after, store.append key state? = .ok after) ↔
    state?.isSome = true ∧ key ∉ held.map Prod.fst
  append_nothing : ∀ key, ∃ error, store.append key none = .error error ∧
    error.kind = .invalidArgument
  append_twice : ∀ key state, key ∈ held.map Prod.fst →
    ∃ error, store.append key (some state) = .error error ∧ error.kind = .logic
  lookup_ok : ∀ key state, store.lookup key = .ok state ↔ (key, state) ∈ held
  lookup_missing : ∀ key, key ∉ held.map Prod.fst →
    ∃ error, store.lookup key = .error error ∧ error.kind = .outOfRange
  contains : ∀ key, store.contains key = true ↔ key ∈ held.map Prod.fst
  size : store.size = held.length
  history : ∀ group,
    (store.history group).Perm (held.filter fun record => record.1.group = group)
  ordered : ∀ group,
    (store.history group).Pairwise fun record later => record.1.Earlier later.1
  maxIteration_some : ∀ group last, store.maxIteration group = some last ↔
    (∃ record ∈ held, record.1.group = group ∧ record.1.iteration = last) ∧
      ∀ record ∈ held, record.1.group = group → record.1.iteration ≤ last
  maxIteration_none : ∀ group, store.maxIteration group = none ↔
    ∀ record ∈ held, record.1.group ≠ group

theorem Holds.answersFrom {store : Store σ} {held : List (StateKey × σ)}
    (holds : Holds store held) : AnswersFrom held store where
  append_ok key state? := by
    cases state? with
    | none => simp [append_none]
    | some state =>
      by_cases taken : key ∈ held.map Prod.fst
      · rw [holds.append_taken taken]
        simp [taken]
      · rw [holds.append_fresh taken]
        exact iff_of_true ⟨_, rfl⟩ ⟨rfl, taken⟩
  append_nothing key := ⟨_, append_none key, rfl⟩
  append_twice key state taken := ⟨_, holds.append_taken taken state, rfl⟩
  lookup_ok key state := by rw [lookup_eq_ok, holds.state?]
  lookup_missing key fresh :=
    ⟨_, lookup_of_missing ((holds.state?_eq_none_iff key).mpr fresh), rfl⟩
  contains := holds.contains_iff
  size := by
    rw [Store.size, ← Std.TreeMap.length_toList]
    exact holds.records_perm.length_eq
  history := holds.history_perm
  ordered := history_earlier store
  maxIteration_some group last := by
    unfold maxIteration
    rw [List.max?_eq_some_iff, List.mem_map, List.forall_mem_map]
    simp only [holds.mem_history_iff, and_imp, and_assoc]
  maxIteration_none group := by
    unfold maxIteration
    rw [List.max?_eq_none_iff, List.map_eq_nil_iff, List.eq_nil_iff_forall_not_mem]
    simp only [holds.mem_history_iff, not_and]

theorem holds_afterCalls (calls : List (Call σ)) : Holds (afterCalls calls) (accepted calls) :=
  holds_empty.foldl_perform calls

theorem mem_foldl_accept {record : StateKey × σ} {held : List (StateKey × σ)}
    (inside : record ∈ held) {calls : List (Call σ)} (kept : Call.release ∉ calls) :
    record ∈ calls.foldl Call.accept held := by
  induction calls generalizing held with
  | nil => exact inside
  | cons call rest ih =>
    apply ih _ fun later => kept (List.mem_cons_of_mem _ later)
    cases call with
    | release => exact absurd List.mem_cons_self kept
    | append key state? =>
      cases state? with
      | none => exact inside
      | some state =>
        unfold Call.accept
        dsimp only
        split
        · exact inside
        · exact List.mem_append_left _ inside

/-- A store is the list of the records accepted since the last release, whatever calls have filled
    it, refused ones included; a state that can be looked up is the same until the store is
    released. The order behind it is a strict total order of all keys, and keys that it does not
    tell apart are equal. -/
theorem afterCalls_answersFrom :
    (∀ calls : List (Call σ), AnswersFrom (accepted calls) (afterCalls calls)) ∧
    (∀ (calls more : List (Call σ)) key state, Call.release ∉ more →
      (afterCalls calls).lookup key = .ok state →
      (afterCalls (calls ++ more)).lookup key = .ok state) ∧
    IsStrictTotalOrder StateKey (fun key other => key.precedes other = true) ∧
    (∀ key other : StateKey, key.precedes other = true ↔
      StateKey.GroupBefore key.group other.group ∨
        key.group = other.group ∧ key.Earlier other) ∧
    ∀ key other : StateKey,
      ¬ key.precedes other = true ∧ ¬ other.precedes key = true ↔ key = other := by
  refine ⟨fun calls => (holds_afterCalls calls).answersFrom, ?_,
    StateKey.isStrictTotalOrder_precedes, StateKey.precedes_iff, StateKey.not_precedes_iff⟩
  intro calls more key state kept found
  rw [lookup_eq_ok, (holds_afterCalls _).state?] at found ⊢
  unfold accepted
  rw [List.foldl_append]
  exact mem_foldl_accept found kept

end ElasticNet.Store
