import ElasticNet.Proofs.Command

namespace ElasticNet

variable {β γ : Type}

def RaisesOnly (kinds : List ErrorKind) (result : Except Error β) : Prop :=
  ∀ error, result = .error error → error.kind ∈ kinds

namespace RaisesOnly

variable {kinds : List ErrorKind}

theorem ok (answer : β) : RaisesOnly kinds (.ok answer) := nofun

theorem error {error : Error} (among : error.kind ∈ kinds) :
    RaisesOnly kinds (.error error : Except Error β) := by
  rintro _ ⟨⟩
  exact among

theorem bind {first : Except Error β} {second : β → Except Error γ}
    (starts : RaisesOnly kinds first) (goesOn : ∀ answer, RaisesOnly kinds (second answer)) :
    RaisesOnly kinds (first >>= second) := by
  cases first with
  | ok answer => exact goesOn answer
  | error error =>
    rintro _ ⟨⟩
    exact starts error rfl

theorem map {result : Except Error β} (raises : RaisesOnly kinds result) (change : β → γ) :
    RaisesOnly kinds (result.map change) := by
  cases result with
  | ok answer => exact ok _
  | error error =>
    rintro _ ⟨⟩
    exact raises error rfl

theorem ite {condition : Prop} [Decidable condition] {first second : Except Error β}
    (holds : RaisesOnly kinds first) (fails : RaisesOnly kinds second) :
    RaisesOnly kinds (if condition then first else second) :=
  iteInduction (fun _ => holds) fun _ => fails

theorem mono {more : List ErrorKind} {result : Except Error β} (raises : RaisesOnly kinds result)
    (further : ∀ kind ∈ kinds, kind ∈ more) : RaisesOnly more result :=
  fun given same => further _ (raises given same)

end RaisesOnly

namespace Command

variable {σ τ : Type}

/-- A command that leaves what can be observed of the state, and raises errors of some kinds
    only. -/
structure Leaves (kinds : List ErrorKind) (observe : σ → τ) (command : Command σ β) : Prop where
  of_ok : ∀ {state after : σ} {answer : β}, command state = .ok answer after →
    observe after = observe state
  of_error : ∀ {state after : σ} {error : Error}, command state = .error error after →
    error.kind ∈ kinds ∧ observe after = observe state

namespace Leaves

variable {kinds : List ErrorKind} {observe : σ → τ}

theorem pure (answer : β) : Leaves kinds observe (Pure.pure answer : Command σ β) where
  of_ok := by
    rintro _ _ _ ⟨⟩
    rfl
  of_error := nofun

theorem throw {error : Error} (among : error.kind ∈ kinds) :
    Leaves kinds observe (MonadExcept.throw error : Command σ β) where
  of_ok := nofun
  of_error := by
    rintro _ _ _ ⟨⟩
    exact ⟨among, rfl⟩

theorem lift {result : Except Error β} (raises : RaisesOnly kinds result) :
    Leaves kinds observe (Command.lift result) := by
  cases result with
  | ok answer => exact .pure answer
  | error error => exact .throw (raises error rfl)

theorem bind {first : Command σ β} {second : β → Command σ γ} (starts : Leaves kinds observe first)
    (goesOn : ∀ answer, Leaves kinds observe (second answer)) :
    Leaves kinds observe (first >>= second) where
  of_ok := by
    intro state last answer ends
    obtain ⟨given, after, started, ended⟩ := bind_eq_ok ends
    exact ((goesOn given).of_ok ended).trans (starts.of_ok started)
  of_error := by
    intro state last error ends
    cases started : first state with
    | ok given after =>
      rw [bind_of_ok started] at ends
      obtain ⟨among, kept⟩ := (goesOn given).of_error ends
      exact ⟨among, kept.trans (starts.of_ok started)⟩
    | error given after =>
      rw [bind_of_error started] at ends
      cases ends
      exact starts.of_error started

end Leaves

end Command

end ElasticNet
