import ElasticNet.Error
import Std.Data.TreeMap

namespace ElasticNet

structure StateKey where
  group : Option String
  position : Nat
  iteration : Nat
deriving DecidableEq

namespace StateKey

/-- The order of keys: by group, then by position, then by iteration. No group comes first. -/
def compare : StateKey → StateKey → Ordering :=
  compareLex (compareOn StateKey.group)
    (compareLex (compareOn StateKey.position) (compareOn StateKey.iteration))

instance : Std.TransCmp compare :=
  inferInstanceAs (Std.TransCmp (compareLex (compareOn StateKey.group)
    (compareLex (compareOn StateKey.position) (compareOn StateKey.iteration))))

instance : Std.LawfulEqCmp compare where
  eq_of_compare {a b} h := by
    obtain ⟨_, _, _⟩ := a
    obtain ⟨_, _, _⟩ := b
    simp only [compare, compareLex, compareOn, Ordering.then_eq_eq,
      Std.LawfulEqOrd.compare_eq_iff_eq] at h
    simp only [mk.injEq]
    exact h

def precedes (a b : StateKey) : Bool :=
  compare a b = .lt

def text (key : StateKey) : String :=
  let group := match key.group with
    | some name => "\"" ++ name ++ "\""
    | none => "none"
  "(" ++ group ++ ", " ++ toString key.position ++ ", " ++ toString key.iteration ++ ")"

end StateKey

structure Store (σ : Type) where
  records : Std.TreeMap StateKey σ StateKey.compare

namespace Store

variable {σ : Type}

def empty : Store σ := ⟨∅⟩

/-- Records a state. There has to be one, and its key has to be new. -/
def append (store : Store σ) (key : StateKey) (state? : Option σ) : Except Error (Store σ) :=
  match state? with
  | none => .error .recordOfNothing
  | some state =>
    if store.records.contains key then .error (.recordedTwice key.text)
    else .ok ⟨store.records.insert key state⟩

def lookup (store : Store σ) (key : StateKey) : Except Error σ :=
  match store.records[key]? with
  | some state => .ok state
  | none => .error (.notRecorded key.text)

def contains (store : Store σ) (key : StateKey) : Bool :=
  store.records.contains key

def size (store : Store σ) : Nat :=
  store.records.size

def history (store : Store σ) (group : Option String) : List (StateKey × σ) :=
  store.records.toList.filter fun record => record.1.group = group

def maxIteration (store : Store σ) (group : Option String) : Option Nat :=
  ((store.history group).map fun record => record.1.iteration).max?

def release (_ : Store σ) : Store σ := empty

end Store

end ElasticNet
