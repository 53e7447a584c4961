namespace ElasticNet.Text

/-- A space, or one of the five control characters from tab to carriage return. -/
def isBlank (c : Char) : Bool :=
  c = ' ' || (9 ≤ c.toNat && c.toNat ≤ 13)

def trim (text : List Char) : List Char :=
  ((text.dropWhile isBlank).reverse.dropWhile isBlank).reverse

def lower (text : List Char) : List Char :=
  text.map Char.toLower

def pieces (separator : Char) : List Char → List (List Char)
  | [] => [[]]
  | c :: rest =>
    if c = separator then [] :: pieces separator rest
    else
      match pieces separator rest with
      | [] => [[c]]
      | piece :: more => (c :: piece) :: more

def join (separator : List Char) : List (List Char) → List Char
  | [] => []
  | [piece] => piece
  | piece :: more => piece ++ separator ++ join separator more

def trimmed (text : String) : String :=
  String.ofList (trim text.toList)

def lowered (text : String) : String :=
  String.ofList (lower text.toList)

def normalized (name : String) : String :=
  lowered (trimmed name)

end ElasticNet.Text
