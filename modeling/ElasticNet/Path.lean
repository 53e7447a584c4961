import ElasticNet.Error
import ElasticNet.Note
import ElasticNet.Scalar
import ElasticNet.Text

namespace ElasticNet

/-- Strengths in the order in which they are fitted; the last one is the target. -/
structure Path (α : Type) where
  strengths : List α
  nonempty : strengths ≠ []

namespace Path

variable {α : Type} [Scalar α]

abbrev Shown (α : Type) := α × String

def checkFrom (position : Nat) (previous? : Option (Shown α)) : List (Shown α) → Except Error Unit
  | [] => .ok ()
  | (strength, text) :: rest =>
    if !Scalar.isFinite strength || strength < 0 then .error (.badStrength text position)
    else
      match previous? with
      | some (previous, previousText) =>
        if previous < strength then .error (.increasingPath text previousText)
        else checkFrom (position + 1) (some (strength, text)) rest
      | none => checkFrom (position + 1) (some (strength, text)) rest

def ofShown (strengths : List (Shown α)) : Except Error (Path α) :=
  match strengths with
  | [] => .error .emptyPath
  | first :: rest =>
    (checkFrom 1 none (first :: rest)).map fun _ => ⟨(first :: rest).map Prod.fst, by simp⟩

def ofList (strengths : List α) : Except Error (Path α) :=
  ofShown (strengths.map fun strength => (strength, Scalar.text strength))

def single (target : α) : Except Error (Path α) :=
  ofList [target]

/-- A count of points with equal ratios between two strengths, both exact; the first alone if only
    one is asked for. -/
def geometric (first last : α) (count : Nat) : List α :=
  if count ≤ 1 then [first]
  else
    let logRatio := Scalar.log (last / first) / ((count - 1 : Nat) : α)
    let inner := (List.range (count - 2)).map fun i =>
      first * Scalar.exp (logRatio * ((i + 1 : Nat) : α))
    first :: inner ++ [last]

def negligible : α := 1e-6

def lowestShare : α := 1e-3

/-- A path from the largest strength down to the target. The target stands alone if nothing larger
    is known or if one point is asked for. A negligible target follows points that end at a fixed
    share of the largest strength. -/
def generate (largest target : α) (count : Nat) : Except Error (Path α) :=
  if count < 1 then .error .noWarmupStrengths
  else if !Scalar.isFinite largest then single target
  else if largest ≤ target ∨ count = 1 then single target
  else if target < negligible then
    let points := geometric largest (largest * lowestShare) (count - 1)
    ofShown (points.map (fun point => (point, Scalar.resultText point))
      ++ [(target, Scalar.text target)])
  else ofList (geometric largest target count)

def generateNotes (largest : Shown α) (count : Nat) : List Note :=
  if 1 ≤ count && !Scalar.isFinite largest.1 then
    [.warning ("Maximum regularization strength is " ++ largest.2
      ++ ", using the target strength only.")]
  else []

def largestOf (first : α) (rest : List α) : α :=
  rest.foldl Scalar.max first

/-- A strength at which every coefficient is zero, from the second moments of the features, the
    spread of the response and the mixing weight. -/
def largestStrength (moments : List α) (responseScale mixing : α) : Except Error α :=
  match moments with
  | [] => .error .noMoments
  | first :: rest =>
    .ok (Scalar.sqrt (largestOf first rest) * responseScale / Scalar.max mixing 1e-3)

def target (path : Path α) : α :=
  path.strengths.getLast path.nonempty

def size (path : Path α) : Nat :=
  path.strengths.length

/-- The strength at a position; positions count from one. -/
def get (path : Path α) (position : Nat) : Except Error α :=
  if position = 0 then .error .positionOutOfBounds
  else
    match path.strengths[position - 1]? with
    | some strength => .ok strength
    | none => .error .positionOutOfBounds

def explicitNotes (path : Path α) : Option α → List Note
  | some asked =>
    if asked != path.target then
      [.warning ("Target regularization strength " ++ Scalar.text asked
        ++ " differs from the last warm-up strength " ++ Scalar.text path.target
        ++ ", using " ++ Scalar.text path.target ++ ".")]
    else []
  | none => []

/-- The inside of a path text: the trimmed text, less the square brackets around it. A bracket that
    opens has to be closed by the last character, which is another one than the first. -/
def inside? (text : List Char) : Option (List Char) :=
  match Text.trim text with
  | '[' :: rest => if rest.getLast? = some ']' then some rest.dropLast else none
  | trimmed => some trimmed

def readStrength? (token : List Char) : Option (Shown α) := do
  let literal ← Decimal.Literal.read? token
  let strength : α ← Scalar.ofLiteral? literal
  return (strength, Scalar.writtenText literal strength)

def readPieces (text : String) : List (List Char) → Except Error (List (Shown α))
  | [] => .ok []
  | piece :: more => do
    let token := Text.trim piece
    match readStrength? token with
    | none => .error (.unreadableStrength (String.ofList token) text)
    | some strength => return strength :: (← readPieces text more)

def parse (text : String) : Except Error (Path α) := do
  match inside? text.toList with
  | none => .error (.unbalancedPath text)
  | some inside => ofShown (← readPieces text (Text.pieces ',' inside))

def text (path : Path α) : String :=
  Scalar.listText path.strengths

end Path

end ElasticNet
