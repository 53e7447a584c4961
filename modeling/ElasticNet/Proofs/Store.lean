import ElasticNet.Store

namespace ElasticNet.Store

variable {σ : Type}

def state? (store : Store σ) (key : StateKey) : Option σ :=
  store.records[key]?

def put (store : Store σ) (key : StateKey) (state : σ) : Store σ :=
  ⟨store.records.insert key state⟩

theorem state?_empty (key : StateKey) : (empty : Store σ).state? key = none :=
  Std.TreeMap.getElem?_emptyc

theorem state?_put (store : Store σ) (key other : StateKey) (state : σ) :
    (store.put key state).state? other =
      if other = key then some state else store.state? other := by
  unfold state? put
  rw [Std.TreeMap.getElem?_insert]
  simp only [Std.LawfulEqCmp.compare_eq_iff_eq, eq_comm (a := other)]

theorem lookup_eq_ok (store : Store σ) (key : StateKey) (state : σ) :
    store.lookup key = .ok state ↔ store.state? key = some state := by
  unfold lookup
  cases held : store.records[key]? <;> simp [state?, held]

theorem lookup_of_state? {store : Store σ} {key : StateKey} {state : σ}
    (held : store.state? key = some state) : store.lookup key = .ok state :=
  (lookup_eq_ok store key state).mpr held

theorem lookup_of_missing {store : Store σ} {key : StateKey} (missing : store.state? key = none) :
    store.lookup key = .error (.notRecorded key.text) := by
  unfold lookup
  unfold state? at missing
  rw [missing]

theorem lookup_congr {left right : Store σ} {key : StateKey}
    (same : left.state? key = right.state? key) : left.lookup key = right.lookup key := by
  unfold lookup
  unfold state? at same
  rw [same]

theorem append_of_fresh {store : Store σ} {key : StateKey} (fresh : store.state? key = none)
    (state : σ) : store.append key (some state) = .ok (store.put key state) := by
  have missing : store.records.contains key = false := by
    rw [Std.TreeMap.contains_eq_isSome_getElem?]
    exact congrArg Option.isSome fresh
  simp only [append, missing, Bool.false_eq_true, if_false, put]

theorem append_of_held {store : Store σ} {key : StateKey} {held : σ}
    (taken : store.state? key = some held) (state : σ) :
    store.append key (some state) = .error (.recordedTwice key.text) := by
  have present : store.records.contains key = true := by
    rw [Std.TreeMap.contains_eq_isSome_getElem?]
    exact congrArg Option.isSome taken
  simp only [append, present, if_true]

theorem mem_history (store : Store σ) (group : Option String) (key : StateKey) (state : σ) :
    (key, state) ∈ store.history group ↔ store.state? key = some state ∧ key.group = group := by
  simp only [history, List.mem_filter, Std.TreeMap.mem_toList_iff_getElem?_eq_some,
    decide_eq_true_eq, state?]

theorem history_ordered (store : Store σ) (group : Option String) :
    (store.history group).Pairwise fun a b => StateKey.compare a.1 b.1 = .lt :=
  Std.TreeMap.ordered_keys_toList.filter _

theorem history_nodup (store : Store σ) (group : Option String) : (store.history group).Nodup := by
  apply (history_ordered store group).imp
  intro a b before same
  subst b
  have equal : StateKey.compare a.1 a.1 = .eq := Std.ReflCmp.compare_self
  rw [equal] at before
  cases before

theorem history_congr {left right : Store σ} {group : Option String}
    (same : ∀ key : StateKey, key.group = group → left.state? key = right.state? key) :
    left.history group = right.history group := by
  have members : (left.history group).Perm (right.history group) := by
    rw [List.perm_ext_iff_of_nodup (history_nodup left group) (history_nodup right group)]
    intro (key, state)
    rw [mem_history, mem_history]
    by_cases inGroup : key.group = group
    · rw [same key inGroup]
    · simp only [inGroup, and_false]
  apply members.eq_of_pairwise _ (history_ordered left group) (history_ordered right group)
  intro a b _ _ before after
  exact absurd after (Std.OrientedCmp.not_lt_of_lt before)

theorem history_eq_nil (store : Store σ) (group : Option String) :
    store.history group = [] ↔ ∀ key : StateKey, key.group = group → store.state? key = none := by
  rw [List.eq_nil_iff_forall_not_mem]
  constructor
  · intro none key inGroup
    rw [Option.eq_none_iff_forall_ne_some]
    intro state held
    exact none (key, state) ((mem_history store group key state).mpr ⟨held, inGroup⟩)
  · rintro fresh ⟨key, state⟩ member
    obtain ⟨held, inGroup⟩ := (mem_history store group key state).mp member
    rw [fresh key inGroup] at held
    cases held

theorem history_empty (group : Option String) : (empty : Store σ).history group = [] :=
  (history_eq_nil empty group).mpr fun key _ => state?_empty key

theorem state?_of_history_nil {store : Store σ} {group : Option String} {key : StateKey}
    (fresh : store.history group = []) (inGroup : key.group = group) :
    store.state? key = (empty : Store σ).state? key :=
  ((history_eq_nil store group).mp fresh key inGroup).trans (state?_empty key).symm

theorem length_history_put {store : Store σ} {group : Option String} {key : StateKey}
    (inGroup : key.group = group) (fresh : store.state? key = none) (state : σ) :
    ((store.put key state).history group).length = (store.history group).length + 1 := by
  have members : ((store.put key state).history group).Perm
      ((key, state) :: store.history group) := by
    rw [List.perm_ext_iff_of_nodup (history_nodup _ _)
      (List.nodup_cons.mpr ⟨?_, history_nodup store group⟩)]
    · rintro ⟨other, held⟩
      rw [List.mem_cons, mem_history, mem_history, state?_put, Prod.mk.injEq]
      by_cases same : other = key
      · subst other
        simp [fresh, inGroup, eq_comm]
      · simp [same]
    · rw [mem_history, fresh]
      simp
  simpa using members.length_eq

theorem maxIteration_eq_some {store : Store σ} {group : Option String} {last : Nat}
    {key : StateKey} (held : ∃ state, store.state? key = some state) (inGroup : key.group = group)
    (at_last : key.iteration = last)
    (bound : ∀ other : StateKey, other.group = group → (∃ state, store.state? other = some state) →
      other.iteration ≤ last) : store.maxIteration group = some last := by
  unfold maxIteration
  rw [List.max?_eq_some_iff]
  constructor
  · obtain ⟨state, held⟩ := held
    rw [List.mem_map]
    exact ⟨(key, state), (mem_history store group key state).mpr ⟨held, inGroup⟩, at_last⟩
  · intro iteration member
    obtain ⟨⟨other, state⟩, recorded, rfl⟩ := List.mem_map.mp member
    obtain ⟨held, inGroup⟩ := (mem_history store group other state).mp recorded
    exact bound other inGroup ⟨state, held⟩

end ElasticNet.Store
