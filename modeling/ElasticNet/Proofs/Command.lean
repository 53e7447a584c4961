import ElasticNet.Command

namespace ElasticNet.Command

variable {σ τ β γ : Type}

theorem ok_bind (given : γ) (second : γ → Except Error β) :
    (Except.ok given >>= second) = second given := rfl

theorem of_bind_eq_ok {first : Except Error γ} {second : γ → Except Error β} {answer : β}
    (ends : first >>= second = .ok answer) :
    ∃ given, first = .ok given ∧ second given = .ok answer := by
  cases first with
  | ok given => exact ⟨given, rfl, ends⟩
  | error error => cases ends

theorem bind_mapError (change : Error → Error) (first : Except Error γ)
    (second : γ → Except Error β) :
    (first >>= second).mapError change =
      first.mapError change >>= fun given => (second given).mapError change := by
  cases first with
  | ok given => rfl
  | error error => rfl

theorem get_bind (second : σ → Command σ β) (state : σ) :
    (get >>= second) state = second state state := rfl

theorem lift_ok_bind (given : γ) (second : γ → Command σ β) (state : σ) :
    (lift (.ok given) >>= second) state = second given state := rfl

theorem lift_error_bind (error : Error) (second : γ → Command σ β) (state : σ) :
    (lift (.error error) >>= second) state = .error error state := rfl

theorem bind_of_ok {first : Command σ β} {second : β → Command σ γ} {state after : σ} {answer : β}
    (ends : first state = .ok answer after) : (first >>= second) state = second answer after := by
  show EStateM.bind first second state = second answer after
  unfold EStateM.bind
  rw [ends]

theorem bind_of_error {first : Command σ β} {second : β → Command σ γ} {state after : σ}
    {error : Error} (ends : first state = .error error after) :
    (first >>= second) state = .error error after := by
  show EStateM.bind first second state = .error error after
  unfold EStateM.bind
  rw [ends]

theorem bind_eq_ok {first : Command σ β} {second : β → Command σ γ} {state last : σ} {answer : γ}
    (ends : (first >>= second) state = .ok answer last) :
    ∃ given after, first state = .ok given after ∧ second given after = .ok answer last := by
  cases started : first state with
  | ok given after => exact ⟨given, after, rfl, (bind_of_ok started).symm.trans ends⟩
  | error error after =>
    rw [bind_of_error started] at ends
    cases ends

theorem lift_bind_of_ok {result : Except Error γ} {given : γ} (ends : result = .ok given)
    (second : γ → Command σ β) (state : σ) :
    (lift result >>= second) state = second given state := by
  rw [ends]
  rfl

theorem lift_bind_eq_ok {result : Except Error γ} {second : γ → Command σ β} {state last : σ}
    {answer : β} (ends : (lift result >>= second) state = .ok answer last) :
    ∃ given, result = .ok given ∧ second given state = .ok answer last := by
  cases result with
  | ok given => exact ⟨given, rfl, ends⟩
  | error error => cases ends

theorem apply_of_ok {command : Command σ Unit} {state after : σ}
    (ends : command state = .ok () after) : command.apply state = .ok after := by
  unfold apply
  rw [ends]

theorem ends_of_isOk {command : Command σ Unit} {state : σ}
    (succeeds : (command.apply state).isOk = true) :
    command state = .ok () (command.result state).2 := by
  unfold apply at succeeds
  unfold result
  cases ended : command state with
  | ok answer after => rfl
  | error error after =>
    rw [ended] at succeeds
    cases succeeds

theorem exists_of_isOk {result : Except Error β} (succeeds : result.isOk = true) :
    ∃ answer, result = .ok answer := by
  cases result with
  | ok answer => exact ⟨answer, rfl⟩
  | error error => cases succeeds

theorem exists_of_result_isOk {command : Command σ β} {state : σ}
    (succeeds : (command.result state).1.isOk = true) :
    ∃ answer after, command state = .ok answer after := by
  unfold result at succeeds
  cases ended : command state with
  | ok answer after => exact ⟨answer, after, rfl⟩
  | error error after =>
    rw [ended] at succeeds
    cases succeeds

theorem mapM_eq_ok {first : β → Except Error γ} {given : β → γ} {list : List β}
    (ends : ∀ element ∈ list, first element = .ok (given element)) :
    list.mapM first = .ok (list.map given) := by
  induction list with
  | nil => rfl
  | cons head tail ih =>
    rw [List.mapM_cons, ends head List.mem_cons_self,
      ih fun element member => ends element (List.mem_cons_of_mem head member)]
    rfl

def Succeeds (Holds : σ → Prop) (command : Command σ β) : Prop :=
  ∀ state, Holds state → ∃ answer after, command state = .ok answer after ∧ Holds after

section Succeeds

variable {Holds : σ → Prop}

theorem Succeeds.pure (answer : β) : Succeeds Holds (Pure.pure answer : Command σ β) :=
  fun state holds => ⟨answer, state, rfl, holds⟩

theorem Succeeds.bind {first : Command σ β} {second : β → Command σ γ}
    (starts : Succeeds Holds first) (goesOn : ∀ answer, Succeeds Holds (second answer)) :
    Succeeds Holds (first >>= second) := by
  intro state holds
  obtain ⟨answer, after, ends, kept⟩ := starts state holds
  rw [bind_of_ok ends]
  exact goesOn answer after kept

theorem Succeeds.ite {condition : Prop} [Decidable condition] {first second : Command σ β}
    (holds : Succeeds Holds first) (fails : Succeeds Holds second) :
    Succeeds Holds (if condition then first else second) :=
  iteInduction (fun _ => holds) fun _ => fails

theorem Succeeds.apply_eq_ok {command : Command σ Unit} (succeeds : Succeeds Holds command)
    {state : σ} (holds : Holds state) : ∃ after, command.apply state = .ok after ∧ Holds after := by
  obtain ⟨answer, after, ends, kept⟩ := succeeds state holds
  refine ⟨after, ?_, kept⟩
  unfold apply
  rw [ends]

end Succeeds

def Keeps (Holds : σ → Prop) (command : Command σ β) : Prop :=
  ∀ state, Holds state → Holds (command.result state).2

section Keeps

variable {Holds : σ → Prop}

theorem Keeps.pure (answer : β) : Keeps Holds (Pure.pure answer : Command σ β) :=
  fun _ holds => holds

theorem Keeps.get : Keeps Holds (MonadState.get : Command σ σ) :=
  fun _ holds => holds

theorem Keeps.lift (given : Except Error β) : Keeps Holds (Command.lift given : Command σ β) := by
  intro state holds
  cases given with
  | ok answer => exact holds
  | error error => exact holds

theorem Keeps.bind {first : Command σ β} {second : β → Command σ γ} (starts : Keeps Holds first)
    (goesOn : ∀ answer, Keeps Holds (second answer)) : Keeps Holds (first >>= second) := by
  intro state holds
  have kept := starts state holds
  cases started : first state with
  | ok answer after =>
    have ends := goesOn answer after
    unfold result at kept ends ⊢
    rw [started] at kept
    rw [bind_of_ok started]
    exact ends kept
  | error error after =>
    unfold result at kept ⊢
    rw [started] at kept
    rw [bind_of_error started]
    exact kept

theorem Keeps.ite {condition : Prop} [Decidable condition] {first second : Command σ β}
    (holds : Keeps Holds first) (fails : Keeps Holds second) :
    Keeps Holds (if condition then first else second) :=
  iteInduction (fun _ => holds) fun _ => fails

end Keeps

inductive SameOutcome (Related : σ → τ → Prop) :
    EStateM.Result Error σ β → EStateM.Result Error τ β → Prop
  | ok {left : σ} {right : τ} (answer : β) (related : Related left right) :
    SameOutcome Related (.ok answer left) (.ok answer right)
  | error {left : σ} {right : τ} (error : Error) (related : Related left right) :
    SameOutcome Related (.error error left) (.error error right)

def Same (Related : σ → τ → Prop) (first : Command σ β) (second : Command τ β) : Prop :=
  ∀ left right, Related left right → SameOutcome Related (first left) (second right)

variable {Related : σ → τ → Prop}

theorem Same.pure (answer : β) :
    Same Related (Pure.pure answer : Command σ β) (Pure.pure answer : Command τ β) :=
  fun _ _ related => .ok answer related

theorem Same.lift (result : Except Error β) :
    Same Related (Command.lift result : Command σ β) (Command.lift result : Command τ β) := by
  intro left right related
  cases result with
  | ok answer => exact .ok answer related
  | error error => exact .error error related

theorem Same.ite {condition : Prop} [Decidable condition] {first otherFirst : Command σ β}
    {second otherSecond : Command τ β} (holds : Same Related first second)
    (fails : Same Related otherFirst otherSecond) :
    Same Related (if condition then first else otherFirst)
      (if condition then second else otherSecond) := by
  by_cases decided : condition
  · simpa only [decided, if_true] using holds
  · simpa only [decided, if_false] using fails

theorem Same.get_bind {first : σ → Command σ β} {second : τ → Command τ β}
    (goesOn : ∀ left right, Related left right →
      SameOutcome Related (first left left) (second right right)) :
    Same Related (get >>= first) (get >>= second) := goesOn

theorem Same.bind {first : Command σ β} {other : Command τ β} {second : β → Command σ γ}
    {otherSecond : β → Command τ γ} (starts : Same Related first other)
    (goesOn : ∀ answer, Same Related (second answer) (otherSecond answer)) :
    Same Related (first >>= second) (other >>= otherSecond) := by
  intro left right related
  cases outcome : first left <;> cases otherOutcome : other right <;>
    have same := starts left right related <;> rw [outcome, otherOutcome] at same <;> cases same
  · rename_i related
    rw [bind_of_ok outcome, bind_of_ok otherOutcome]
    exact goesOn _ _ _ related
  · rename_i related
    rw [bind_of_error outcome, bind_of_error otherOutcome]
    exact .error _ related

inductive EndAlike (Answers : β → γ → Prop) : Except Error β → Except Error γ → Prop
  | ok {answer : β} {other : γ} (related : Answers answer other) :
    EndAlike Answers (.ok answer) (.ok other)
  | error {error other : Error} (kind : other.kind = error.kind) :
    EndAlike Answers (.error error) (.error other)

theorem EndAlike.of_eq {result other : Except Error β} (same : other = result) :
    EndAlike Eq result other := by
  subst same
  cases other with
  | ok answer => exact .ok rfl
  | error error => exact .error rfl

theorem EndAlike.mono {Answers Others : β → γ → Prop} {result : Except Error β}
    {other : Except Error γ} (alike : EndAlike Answers result other)
    (further : ∀ answer given, Answers answer given → Others answer given) :
    EndAlike Others result other := by
  cases alike with
  | ok related => exact .ok (further _ _ related)
  | error kind => exact .error kind

theorem EndAlike.of_map (result : Except Error β) (change : β → γ) :
    EndAlike (fun answer other => other = change answer) result (result.map change) := by
  cases result with
  | ok answer => exact .ok rfl
  | error error => exact .error rfl

theorem EndAlike.given {Answers : β → γ → Prop} {result : Except Error β} {other : Except Error γ}
    (alike : EndAlike Answers result other) :
    EndAlike (fun answer given => Answers answer given ∧ result = .ok answer) result other := by
  cases alike with
  | ok related => exact .ok ⟨related, rfl⟩
  | error kind => exact .error kind

def Alike (Answers : β → γ → Prop) (first : Command σ β) (other : Command τ γ) : Prop :=
  ∀ left right, EndAlike Answers (result first left).1 (result other right).1

namespace Alike

variable {δ ε : Type} {Answers : β → γ → Prop}

theorem pure {answer : β} {other : γ} (related : Answers answer other) :
    Alike Answers (Pure.pure answer : Command σ β) (Pure.pure other : Command τ γ) :=
  fun _ _ => .ok related

theorem lift {given : Except Error β} {other : Except Error γ}
    (alike : EndAlike Answers given other) :
    Alike Answers (Command.lift given : Command σ β) (Command.lift other : Command τ γ) := by
  intro left right
  cases alike with
  | ok related => exact .ok related
  | error kind => exact .error kind

theorem bind {first : Command σ β} {other : Command τ γ} {second : β → Command σ δ}
    {otherSecond : γ → Command τ ε} {Last : δ → ε → Prop} (starts : Alike Answers first other)
    (goesOn : ∀ answer given, Answers answer given →
      Alike Last (second answer) (otherSecond given)) :
    Alike Last (first >>= second) (other >>= otherSecond) := by
  intro left right
  have alike := starts left right
  unfold result at alike
  cases outcome : first left with
  | ok answer after =>
    cases otherOutcome : other right with
    | ok given otherAfter =>
      rw [outcome, otherOutcome] at alike
      cases alike with
      | ok related =>
        have rest := goesOn answer given related after otherAfter
        unfold result at rest ⊢
        rwa [bind_of_ok outcome, bind_of_ok otherOutcome]
    | error error otherAfter =>
      rw [outcome, otherOutcome] at alike
      cases alike
  | error error after =>
    cases otherOutcome : other right with
    | ok given otherAfter =>
      rw [outcome, otherOutcome] at alike
      cases alike
    | error otherError otherAfter =>
      rw [outcome, otherOutcome] at alike
      cases alike with
      | error kind =>
        unfold result
        rw [bind_of_error outcome, bind_of_error otherOutcome]
        exact .error kind

end Alike

end ElasticNet.Command
