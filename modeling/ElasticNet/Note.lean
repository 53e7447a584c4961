namespace ElasticNet

inductive Severity where
  | info
  | warning
deriving DecidableEq

structure Note where
  severity : Severity
  text : String
deriving DecidableEq

namespace Note

def info (text : String) : Note := ⟨.info, text⟩

def warning (text : String) : Note := ⟨.warning, text⟩

end Note

end ElasticNet
