import ElasticNet.Text

namespace ElasticNet

inductive Method where
  | igd
  | fista
deriving DecidableEq

namespace Method

def ofName? (name : String) : Option Method :=
  let name := Text.normalized name
  if name = "igd" then some .igd
  else if name = "fista" then some .fista
  else none

def name : Method → String
  | igd => "igd"
  | fista => "fista"

end Method

end ElasticNet
