import ElasticNet.Proofs.Exact
import ElasticNet.Vector
import Mathlib.Data.Matrix.Mul

namespace ElasticNet.Exact

open Matrix

variable {n : ℕ}

def ofVector (w : Fin n → ℝ) : List Exact :=
  List.ofFn fun j => number (w j)

@[simp]
theorem length_ofVector (w : Fin n → ℝ) : (ofVector w).length = n :=
  List.length_ofFn

theorem ofVector_injective : Function.Injective (ofVector : (Fin n → ℝ) → List Exact) := by
  intro u w same
  funext j
  exact number.inj (congrFun (List.ofFn_injective same) j)

theorem ofVector_succ (w : Fin (n + 1) → ℝ) :
    ofVector w = number (w 0) :: ofVector fun j => w j.succ :=
  List.ofFn_succ

theorem allFinite_ofVector (w : Fin n → ℝ) : Scalar.allFinite (ofVector w) = true := by
  rw [Scalar.allFinite, List.all_eq_true]
  intro x inside
  obtain ⟨j, rfl⟩ := List.mem_ofFn.mp inside
  rfl

theorem exists_ofFn {xs : List Exact} (sized : xs.length = n) :
    ∃ w : Fin n → Exact, xs = List.ofFn w := by
  subst sized
  exact ⟨xs.get, (List.ofFn_get xs).symm⟩

theorem allFinite_congr {xs ys : List Exact}
    (same : ys.map Scalar.isFinite = xs.map Scalar.isFinite) :
    Scalar.allFinite ys = Scalar.allFinite xs := by
  have read (zs : List Exact) : Scalar.allFinite zs = (zs.map Scalar.isFinite).all id := by
    rw [List.all_map]
    rfl
  rw [read, read, same]

theorem exists_ofVector {xs : List Exact} (finite : Scalar.allFinite xs = true)
    (sized : xs.length = n) : ∃ w : Fin n → ℝ, xs = ofVector w := by
  refine ⟨fun j => xs[j].value, ?_⟩
  apply List.ext_getElem
  · rw [length_ofVector, sized]
  · intro i inside _
    obtain ⟨r, number⟩ := exists_number (List.all_eq_true.mp finite xs[i] (List.getElem_mem inside))
    simp only [ofVector, List.getElem_ofFn, Fin.getElem_fin, number, value]

theorem zeros_eq : Vector.zeros n = ofVector (0 : Fin n → ℝ) :=
  (List.ofFn_const n (number 0)).symm

theorem map_ofVector (f : Exact → Exact) (g : ℝ → ℝ) (same : ∀ r, f (number r) = number (g r))
    (w : Fin n → ℝ) : (ofVector w).map f = ofVector fun j => g (w j) := by
  rw [ofVector, List.map_ofFn]
  exact congrArg List.ofFn (funext fun j => same (w j))

theorem zipWith_ofVector (u w : Fin n → ℝ) {f : Exact → Exact → Exact} {g : ℝ → ℝ → ℝ}
    (same : ∀ a b, f (number a) (number b) = number (g a b)) :
    List.zipWith f (ofVector u) (ofVector w) = ofVector fun j => g (u j) (w j) := by
  induction n with
  | zero => rfl
  | succ n ih =>
    rw [ofVector_succ, ofVector_succ w, ofVector_succ, List.zipWith_cons_cons, same, ih]

theorem add_ofVector (u w : Fin n → ℝ) : Vector.add (ofVector u) (ofVector w) = ofVector (u + w) :=
  zipWith_ofVector u w number_add

theorem sub_ofVector (u w : Fin n → ℝ) : Vector.sub (ofVector u) (ofVector w) = ofVector (u - w) :=
  zipWith_ofVector u w number_sub

theorem foldl_ofVector (w : Fin n → ℝ) (start : ℝ) :
    (ofVector w).foldl (· + ·) (number start) = number (start + ∑ j, w j) := by
  induction n generalizing start with
  | zero =>
    rw [Finset.univ_eq_empty, Finset.sum_empty, add_zero]
    rfl
  | succ n ih =>
    rw [ofVector_succ, List.foldl_cons, number_add, ih, Fin.sum_univ_succ, add_assoc]

theorem sum_ofVector (w : Fin n → ℝ) : Vector.sum (ofVector w) = number (∑ j, w j) := by
  rw [Vector.sum, zero_eq, foldl_ofVector, zero_add]

theorem dot_ofVector (u w : Fin n → ℝ) :
    Vector.dot (ofVector u) (ofVector w) = number (u ⬝ᵥ w) := by
  rw [Vector.dot, zipWith_ofVector u w number_mul, sum_ofVector, dotProduct]

/-- In exact arithmetic the entries that are skipped would have added nothing. -/
theorem foldl_sparse_ofVector (u w : Fin n → ℝ) (start : ℝ) :
    ((ofVector u).zip (ofVector w)).foldl
      (fun total (c, x) => if c != 0 then total + c * x else total) (number start) =
      number (start + u ⬝ᵥ w) := by
  induction n generalizing start with
  | zero =>
    rw [dotProduct, Finset.univ_eq_empty, Finset.sum_empty, add_zero]
    rfl
  | succ n ih =>
    have next : (if number (u 0) != 0 then number start + number (u 0) * number (w 0)
        else number start) = number (start + u 0 * w 0) := by
      rw [zero_eq, number_bne]
      split
      · rfl
      · next zero =>
        rw [decide_eq_true_eq, not_not] at zero
        rw [zero, zero_mul, add_zero]
    rw [ofVector_succ, ofVector_succ w, List.zip_cons_cons, List.foldl_cons]
    dsimp only
    rw [next, ih, dotProduct, dotProduct, Fin.sum_univ_succ, add_assoc]

theorem sparseDot_ofVector (u w : Fin n → ℝ) :
    Vector.sparseDot (ofVector u) (ofVector w) = number (u ⬝ᵥ w) := by
  have whole := foldl_sparse_ofVector u w 0
  rw [zero_add] at whole
  exact whole

end ElasticNet.Exact
