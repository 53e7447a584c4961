import ElasticNet.Fista
import ElasticNet.Igd
import ElasticNet.Method

namespace ElasticNet.Optimizer

variable {α : Type} [Scalar α]

def ofMethod (family : Family) : Method → Optimizer α
  | .igd => Igd.optimizer family
  | .fista => Fista.optimizer family

def ofNames (family method : String) : Except Error (Optimizer α) :=
  match Family.ofName? family, Method.ofName? method with
  | none, _ => .error (.unknownFamily family)
  | some _, none => .error (.unknownOptimizer method)
  | some family, some method => .ok (ofMethod family method)

end ElasticNet.Optimizer
