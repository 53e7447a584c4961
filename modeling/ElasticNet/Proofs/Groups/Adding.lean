import ElasticNet.Proofs.Groups.Members

namespace ElasticNet.Groups

open Command

variable {α : Type}

structure Entry (α : Type) where
  key : String
  context : StepContext α
  source : Source α

def runOf (groups : Groups α) (entry : Entry α) : Run α where
  group := some entry.key
  path := groups.path
  pass := groups.pass
  test := groups.test
  context := entry.context
  source := entry.source
  budget := groups.budget

def memberOf (groups : Groups α) (entry : Entry α) : Member α :=
  ⟨entry.key, groups.runOf entry, .start⟩

def addAll [Scalar α] (groups : Groups α) : List (Entry α) → GroupsCommand α Unit
  | [] => pure ()
  | entry :: rest => do
    groups.add entry.key entry.context (some entry.source)
    addAll groups rest

def Rising (members : List (Member α)) : Prop :=
  members.Pairwise fun first second => first.key < second.key

theorem insert_perm (member : Member α) (members : List (Member α)) :
    (member.insert members).Perm (member :: members) := by
  induction members with
  | nil => exact .refl _
  | cons first rest ih =>
    unfold Member.insert
    split
    · exact .refl _
    · exact (ih.cons first).trans (.swap member first rest)

theorem insert_rising {member : Member α} {members : List (Member α)} (rising : Rising members)
    (new : member.key ∉ members.map Member.key) : Rising (member.insert members) := by
  induction members with
  | nil => exact List.pairwise_singleton _ _
  | cons first rest ih =>
    rw [List.map_cons, List.mem_cons, not_or] at new
    obtain ⟨different, newer⟩ := new
    have sorted := List.pairwise_cons.mp rising
    unfold Member.insert
    split
    · rename_i before
      refine List.pairwise_cons.mpr ⟨?_, rising⟩
      intro other inside
      rcases List.mem_cons.mp inside with rfl | later
      · exact before
      · exact String.lt_trans before (sorted.1 other later)
    · rename_i behind
      refine List.pairwise_cons.mpr ⟨?_, ih sorted.2 newer⟩
      intro other inside
      rcases List.mem_cons.mp ((insert_perm member rest).mem_iff.mp inside) with rfl | later
      · apply Decidable.byContradiction
        intro above
        exact different (String.le_antisymm (String.not_lt.mp above) (String.not_lt.mp behind))
      · exact sorted.1 other later

theorem Rising.eq_of_perm {members other : List (Member α)} (rising : Rising members)
    (otherRising : Rising other) (same : members.Perm other) : members = other := by
  apply same.eq_of_pairwise _ rising otherRising
  intro first second _ _ before behind
  exact absurd behind (String.lt_asymm before)

theorem add_eq_ok [Scalar α] (groups : Groups α) (paid : 0 < groups.budget)
    {members : List (Member α)} {store : Store (Slots α)} {notes : List Note} {entry : Entry α}
    (new : entry.key ∉ members.map Member.key) :
    groups.add entry.key entry.context (some entry.source) ⟨members, false, 0, store, notes⟩ =
      .ok () ⟨(groups.memberOf entry).insert members, false, 0, store, notes⟩ := by
  have unspent : groups.budget ≠ 0 := by omega
  unfold add
  rw [get_bind]
  simp only [Bool.false_eq_true, if_false, GroupsState.keys, new, Run.create, unspent]
  rfl

theorem addAll_eq_ok [Scalar α] (groups : Groups α) (paid : 0 < groups.budget)
    {members : List (Member α)} {store : Store (Slots α)} {notes : List Note}
    (rising : Rising members) {entries : List (Entry α)}
    (distinct : (entries.map Entry.key ++ members.map Member.key).Nodup) :
    ∃ added : List (Member α),
      groups.addAll entries ⟨members, false, 0, store, notes⟩ =
        .ok () ⟨added, false, 0, store, notes⟩ ∧
      Rising added ∧ added.Perm (entries.map groups.memberOf ++ members) := by
  induction entries generalizing members with
  | nil => exact ⟨members, rfl, rising, .refl _⟩
  | cons entry rest ih =>
    rw [List.map_cons, List.cons_append] at distinct
    have new : entry.key ∉ members.map Member.key :=
      fun taken => (List.nodup_cons.mp distinct).1 (List.mem_append_right _ taken)
    have moved := insert_perm (groups.memberOf entry) members
    have keys : (rest.map Entry.key ++ ((groups.memberOf entry).insert members).map Member.key).Perm
        (entry.key :: (rest.map Entry.key ++ members.map Member.key)) :=
      ((moved.map Member.key).append_left _).trans List.perm_middle
    obtain ⟨added, ends, sorted, permuted⟩ :=
      ih (insert_rising rising new) (keys.nodup_iff.mpr distinct)
    refine ⟨added, (bind_of_ok (groups.add_eq_ok paid new)).trans ends, sorted, ?_⟩
    exact permuted.trans ((moved.append_left _).trans List.perm_middle)

theorem addAll_from_nil [Scalar α] (groups : Groups α) (paid : 0 < groups.budget)
    (store : Store (Slots α)) (notes : List Note) {entries : List (Entry α)}
    (distinct : (entries.map Entry.key).Nodup) :
    ∃ added : List (Member α),
      groups.addAll entries ⟨[], false, 0, store, notes⟩ = .ok () ⟨added, false, 0, store, notes⟩ ∧
      Rising added ∧ added.Perm (entries.map groups.memberOf) := by
  have rising : Rising ([] : List (Member α)) := .nil
  have keys : (entries.map Entry.key ++ ([] : List (Member α)).map Member.key).Nodup := by
    simpa using distinct
  obtain ⟨added, adds, sorted, permuted⟩ := groups.addAll_eq_ok paid rising keys
  rw [List.append_nil] at permuted
  exact ⟨added, adds, sorted, permuted⟩

end ElasticNet.Groups
