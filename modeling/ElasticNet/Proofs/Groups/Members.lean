import ElasticNet.Proofs.Run.Shared
import ElasticNet.Run.Groups
import Mathlib.Data.List.Nodup

namespace ElasticNet

open Command

variable {α : Type}

def Member.withProgress (member : Member α) (alone : RunState α) : Member α :=
  { member with progress := alone.progress }

namespace Groups

structure Regular (members : List (Member α)) : Prop where
  distinct : (members.map Member.key).Nodup
  grouped : ∀ member ∈ members, member.run.group = some member.key

/-- Each member has the progress and the records that it has alone; all other records are those from
    outside. -/
structure Shows (members : List (Member α)) (outside : Store (Slots α))
    (alone : String → RunState α) (state : GroupsState α) : Prop where
  placed : state.members = members.map fun member => member.withProgress (alone member.key)
  own : ∀ member ∈ members, ∀ key : StateKey, key.group = some member.key →
    state.store.state? key = (alone member.key).store.state? key
  others : ∀ key : StateKey, (∀ member ∈ members, key.group ≠ some member.key) →
    state.store.state? key = outside.state? key

theorem Regular.find {members : List (Member α)} (regular : Regular members) {member : Member α}
    (given : member ∈ members) :
    members.find? (fun other => other.key = member.key) = some member := by
  cases found : members.find? fun other => other.key = member.key with
  | none =>
    have missing := List.find?_eq_none.mp found member given
    simp at missing
  | some other =>
    have same : other.key = member.key := by simpa using List.find?_some found
    rw [List.inj_on_of_nodup_map regular.distinct (List.mem_of_find?_eq_some found) given same]

def perKey (members : List (Member α)) (given : Member α → RunState α) (key : String) :
    RunState α :=
  match members.find? fun member => member.key = key with
  | some member => given member
  | none => .start

theorem perKey_of_mem {members : List (Member α)} (regular : Regular members)
    (given : Member α → RunState α) {member : Member α} (inside : member ∈ members) :
    perKey members given member.key = given member := by
  unfold perKey
  rw [regular.find inside]

theorem Shows.congr {members : List (Member α)} {outside : Store (Slots α)}
    {alone other : String → RunState α} {state : GroupsState α}
    (shown : Shows members outside alone state)
    (same : ∀ member ∈ members, alone member.key = other member.key) :
    Shows members outside other state := by
  refine ⟨?_, ?_, shown.others⟩
  · rw [shown.placed]
    apply List.map_congr_left
    intro member given
    rw [same member given]
  · intro member given key inGroup
    rw [← same member given]
    exact shown.own member given key inGroup

theorem Shows.member {members : List (Member α)} (regular : Regular members)
    {outside : Store (Slots α)} {alone : String → RunState α} {state : GroupsState α}
    (shown : Shows members outside alone state) {member : Member α} (given : member ∈ members) :
    state.member member.key = .ok (member.withProgress (alone member.key)) := by
  unfold GroupsState.member
  rw [shown.placed, List.find?_map]
  have found : members.find? ((fun other : Member α => decide (other.key = member.key)) ∘
      fun member => member.withProgress (alone member.key)) = some member := regular.find given
  rw [found]
  rfl

theorem Shows.unique {members : List (Member α)} {outside : Store (Slots α)}
    {alone : String → RunState α} {state other : GroupsState α}
    (shown : Shows members outside alone state) (otherShown : Shows members outside alone other) :
    state.members = other.members ∧
      ∀ group, state.store.history group = other.store.history group := by
  refine ⟨shown.placed.trans otherShown.placed.symm, ?_⟩
  intro group
  apply Store.history_congr
  intro key _
  by_cases own : ∃ member ∈ members, key.group = some member.key
  · obtain ⟨member, given, inGroup⟩ := own
    rw [shown.own member given key inGroup, otherShown.own member given key inGroup]
  · have outer : ∀ member ∈ members, key.group ≠ some member.key :=
      fun member given inGroup => own ⟨member, given, inGroup⟩
    rw [shown.others key outer, otherShown.others key outer]

theorem Shows.apart {members : List (Member α)} (regular : Regular members)
    {outside : Store (Slots α)} {alone : String → RunState α} {state : GroupsState α}
    (shown : Shows members outside alone state) {member : Member α} (given : member ∈ members) :
    member.run.Apart state.store (state.view (member.withProgress (alone member.key)))
      (alone member.key) := by
  refine ⟨rfl, ?_, fun _ _ => rfl⟩
  intro key inGroup
  rw [regular.grouped member given] at inGroup
  exact shown.own member given key inGroup

theorem Shows.put {members : List (Member α)} (regular : Regular members)
    {outside : Store (Slots α)} {alone : String → RunState α} {state : GroupsState α}
    (shown : Shows members outside alone state) {member : Member α} (given : member ∈ members)
    {part after : RunState α} (apart : member.run.Apart state.store part after) :
    Shows members outside (fun key => if key = member.key then after else alone key)
      (GroupsState.put member.key state part) := by
  have group := regular.grouped member given
  refine ⟨?_, ?_, ?_⟩
  · unfold GroupsState.put Member.setProgress
    rw [shown.placed, List.map_map]
    apply List.map_congr_left
    intro other _
    by_cases own : other.key = member.key
    · simp [Member.withProgress, own, apart.progress]
    · simp [Member.withProgress, own]
  · intro other otherGiven key inGroup
    by_cases own : other.key = member.key
    · rw [if_pos own]
      exact apart.own key (by rw [inGroup, group, own])
    · rw [if_neg own]
      refine (apart.others key ?_).trans (shown.own other otherGiven key inGroup)
      rw [inGroup, group]
      simpa using own
  · intro key outer
    refine (apart.others key ?_).trans (shown.others key outer)
    rw [group]
    exact outer member given

/-- A command that a run does not notice others of. -/
def Private (run : Run α) (command : RunCommand α Unit) : Prop :=
  ∀ outside, Same (run.Apart outside) command command

def onAll : List (Member α × RunCommand α Unit) → GroupsCommand α Unit
  | [] => pure ()
  | (member, command) :: rest => do
    onMember member command
    onAll rest

theorem startAll_eq_onAll (members : List (Member α)) :
    startAll members = onAll (members.map fun member => (member, member.run.start)) := by
  induction members with
  | nil => rfl
  | cons member rest ih =>
    unfold startAll
    rw [ih]
    rfl

theorem advanceAll_eq_onAll [Scalar α] (commits : List (Member α × Slots α)) :
    advanceAll commits =
      onAll (commits.map fun commit => (commit.1, commit.1.run.advance (some commit.2))) := by
  induction commits with
  | nil => rfl
  | cons commit rest ih =>
    unfold advanceAll
    rw [ih]
    rfl

section Members

variable {members : List (Member α)} {outside : Store (Slots α)}
  {alone : String → RunState α} {state : GroupsState α}

theorem Shows.onMember (regular : Regular members) (shown : Shows members outside alone state)
    {member : Member α} (given : member ∈ members) {command : RunCommand α Unit}
    (own : Private member.run command) :
    (∀ after, command (alone member.key) = .ok () after →
      ∃ last, Groups.onMember (member.withProgress (alone member.key)) command state = .ok () last ∧
        Shows members outside (fun key => if key = member.key then after else alone key) last ∧
        last.started = state.started ∧ last.ticks = state.ticks) ∧
    ∀ last, Groups.onMember (member.withProgress (alone member.key)) command state = .ok () last →
      ∃ after, command (alone member.key) = .ok () after := by
  have same := own state.store _ _ (shown.apart regular given)
  unfold Groups.onMember onPart
  cases outcome : command (state.view (member.withProgress (alone member.key))) <;>
    cases otherOutcome : command (alone member.key) <;>
    rw [outcome, otherOutcome] at same <;> cases same
  · rename_i part after apart
    refine ⟨?_, fun last _ => ⟨after, rfl⟩⟩
    rintro _ ⟨⟩
    exact ⟨_, rfl, shown.put regular given apart, rfl, rfl⟩
  · refine ⟨?_, ?_⟩
    · rintro after ⟨⟩
    · rintro last ⟨⟩

structure Orders (members : List (Member α)) (alone : String → RunState α)
    (work : List (Member α × RunCommand α Unit)) : Prop where
  given : ∀ entry ∈ work, ∃ member ∈ members, entry.1 = member.withProgress (alone member.key)
  distinct : (work.map fun entry => entry.1.key).Nodup
  own : ∀ entry ∈ work, Private entry.1.run entry.2

theorem Orders.elsewhere {entry other : Member α × RunCommand α Unit}
    {rest : List (Member α × RunCommand α Unit)} (orders : Orders members alone (entry :: rest))
    (later : other ∈ rest) : other.1.key ≠ entry.1.key := by
  intro same
  have distinct := orders.distinct
  rw [List.map_cons, List.nodup_cons] at distinct
  exact distinct.1 (List.mem_map.mpr ⟨other, later, same⟩)

theorem Orders.tail {entry : Member α × RunCommand α Unit}
    {rest : List (Member α × RunCommand α Unit)} (orders : Orders members alone (entry :: rest))
    (after : RunState α) :
    Orders members (fun key => if key = entry.1.key then after else alone key) rest := by
  refine ⟨?_, ?_, fun other later => orders.own other (List.mem_cons_of_mem entry later)⟩
  · intro other later
    have elsewhere := orders.elsewhere later
    obtain ⟨member, inside, same⟩ := orders.given other (List.mem_cons_of_mem entry later)
    refine ⟨member, inside, ?_⟩
    rw [same] at elsewhere
    change member.key ≠ entry.1.key at elsewhere
    rw [if_neg elsewhere]
    exact same
  · have distinct := orders.distinct
    rw [List.map_cons, List.nodup_cons] at distinct
    exact distinct.2

theorem Shows.onAll (regular : Regular members) (shown : Shows members outside alone state)
    {work : List (Member α × RunCommand α Unit)} (orders : Orders members alone work)
    {final : String → RunState α}
    (ends : ∀ entry ∈ work, entry.2 (alone entry.1.key) = .ok () (final entry.1.key)) :
    ∃ last, Groups.onAll work state = .ok () last ∧
      Shows members outside
        (fun key => if key ∈ work.map (fun entry => entry.1.key) then final key else alone key)
        last ∧
      last.started = state.started ∧ last.ticks = state.ticks := by
  -- the first command only moves its own member, so the rest still stands as the orders say
  induction work generalizing state alone with
  | nil => exact ⟨state, rfl, by simpa using shown, rfl, rfl⟩
  | cons entry rest ih =>
    have others := orders.tail (final entry.1.key)
    have kept : ∀ other ∈ rest, other.2 (if other.1.key = entry.1.key then final entry.1.key
        else alone other.1.key) = .ok () (final other.1.key) := by
      intro other later
      rw [if_neg (orders.elsewhere later)]
      exact ends other (List.mem_cons_of_mem entry later)
    obtain ⟨actual, command⟩ := entry
    obtain ⟨member, inside, rfl⟩ := orders.given _ List.mem_cons_self
    obtain ⟨next, moved, nextShown, nextStarted, nextTicks⟩ :=
      (shown.onMember regular inside (orders.own _ List.mem_cons_self)).1 _
        (ends _ List.mem_cons_self)
    obtain ⟨last, ended, lastShown, lastStarted, lastTicks⟩ := ih nextShown others kept
    refine ⟨last, (bind_of_ok moved).trans ended, lastShown.congr ?_, lastStarted.trans nextStarted,
      lastTicks.trans nextTicks⟩
    intro other _
    change _ = if other.key ∈ member.key :: rest.map (fun entry => entry.1.key) then _ else _
    by_cases later : other.key ∈ rest.map fun entry => entry.1.key
    · rw [if_pos later, if_pos (List.mem_cons_of_mem _ later)]
    · rw [if_neg later]
      by_cases same : other.key = member.key
      · rw [if_pos same, same, if_pos List.mem_cons_self]
        rfl
      · rw [if_neg same, if_neg (by simp [same, later])]

theorem Shows.each (regular : Regular members) (shown : Shows members outside alone state)
    {list : List (Member α)} (inside : list.Sublist members)
    {command : Member α → RunCommand α Unit} (own : ∀ member, Private member.run (command member))
    {final : String → RunState α}
    (ends : ∀ member ∈ list, command member (alone member.key) = .ok () (final member.key))
    (stays : ∀ member ∈ members, member ∉ list → final member.key = alone member.key) :
    ∃ last, Groups.onAll (list.map fun member =>
        (member.withProgress (alone member.key), command member)) state = .ok () last ∧
      Shows members outside final last ∧ last.started = state.started ∧
      last.ticks = state.ticks := by
  have orders : Orders members alone
      (list.map fun member => (member.withProgress (alone member.key), command member)) := by
    refine ⟨?_, ?_, ?_⟩
    · intro entry inWork
      obtain ⟨member, given, rfl⟩ := List.mem_map.mp inWork
      exact ⟨member, inside.subset given, rfl⟩
    · rw [List.map_map]
      exact regular.distinct.sublist (inside.map Member.key)
    · intro entry inWork
      obtain ⟨member, _, rfl⟩ := List.mem_map.mp inWork
      exact own member
  have keys (member : Member α) (given : member ∈ members) :
      member.key ∈ (list.map fun member =>
        (member.withProgress (alone member.key), command member)).map (fun entry => entry.1.key) ↔
      member ∈ list := by
    rw [List.map_map, List.mem_map]
    constructor
    · rintro ⟨other, inList, same⟩
      rw [← List.inj_on_of_nodup_map regular.distinct (inside.subset inList) given same]
      exact inList
    · intro inList
      exact ⟨member, inList, rfl⟩
  have all : ∀ entry ∈ list.map fun member =>
      (member.withProgress (alone member.key), command member),
      entry.2 (alone entry.1.key) = .ok () (final entry.1.key) := by
    intro entry inWork
    obtain ⟨member, given, rfl⟩ := List.mem_map.mp inWork
    exact ends member given
  obtain ⟨last, ended, lastShown, same⟩ := shown.onAll regular orders all
  refine ⟨last, ended, lastShown.congr ?_, same⟩
  intro member given
  by_cases inList : member ∈ list
  · rw [if_pos ((keys member given).mpr inList)]
  · rw [if_neg (fun inKeys => inList ((keys member given).mp inKeys)), stays member given inList]

theorem Shows.ends_of_onAll (regular : Regular members) (shown : Shows members outside alone state)
    {work : List (Member α × RunCommand α Unit)} (orders : Orders members alone work)
    {last : GroupsState α} (ended : Groups.onAll work state = .ok () last) :
    ∃ final : String → RunState α,
      ∀ entry ∈ work, entry.2 (alone entry.1.key) = .ok () (final entry.1.key) := by
  induction work generalizing state alone with
  | nil => exact ⟨alone, by simp⟩
  | cons entry rest ih =>
    have tail := orders.tail
    have elsewhere : ∀ other ∈ rest, other.1.key ≠ entry.1.key := fun _ => orders.elsewhere
    obtain ⟨actual, command⟩ := entry
    obtain ⟨member, inside, rfl⟩ := orders.given _ List.mem_cons_self
    obtain ⟨_, next, moved, rest_ended⟩ := bind_eq_ok ended
    have moves := shown.onMember regular inside (orders.own _ List.mem_cons_self)
    obtain ⟨after, moves_alone⟩ := moves.2 next moved
    obtain ⟨same, moved_again, nextShown, _⟩ := moves.1 after moves_alone
    rw [moved] at moved_again
    cases moved_again
    obtain ⟨final, others⟩ := ih nextShown (tail after) rest_ended
    refine ⟨fun key => if key = member.key then after else final key, ?_⟩
    intro other inWork
    rcases List.mem_cons.mp inWork with rfl | later
    · exact moves_alone.trans (congrArg _ (if_pos rfl).symm)
    · have apart : other.1.key ≠ member.key := elsewhere other later
      have ends := others other later
      rw [if_neg apart] at ends
      exact ends.trans (congrArg _ (if_neg apart).symm)

end Members

end Groups

end ElasticNet
