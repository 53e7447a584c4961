import ElasticNet.Proofs.Params.Fields
import ElasticNet.Proofs.Raises

namespace ElasticNet

variable {α : Type} [Scalar α]

namespace Path

theorem checkFrom_raises (position : Nat) (previous? : Option (Shown α))
    (strengths : List (Shown α)) :
    RaisesOnly [.parameter] (checkFrom position previous? strengths) := by
  induction strengths generalizing position previous? with
  | nil => exact .ok ()
  | cons first rest ih =>
    unfold checkFrom
    split
    · exact .error (List.mem_singleton.mpr rfl)
    · split
      · split
        · exact .error (List.mem_singleton.mpr rfl)
        · exact ih _ _
      · exact ih _ _

theorem ofShown_raises (strengths : List (Shown α)) :
    RaisesOnly [.parameter] (ofShown strengths) := by
  unfold ofShown
  split
  · exact .error (List.mem_singleton.mpr rfl)
  · exact (checkFrom_raises 1 none _).map _

theorem ofList_raises (strengths : List α) : RaisesOnly [.parameter] (ofList strengths) :=
  ofShown_raises _

theorem generate_raises (largest target : α) (count : Nat) :
    RaisesOnly [.parameter] (generate largest target count) := by
  unfold generate
  refine .ite (.error (List.mem_singleton.mpr rfl)) (.ite (ofList_raises _) (.ite (ofList_raises _)
    (.ite (ofShown_raises _) (ofList_raises _))))

theorem readPieces_raises (text : String) (pieces : List (List Char)) :
    RaisesOnly [.parameter] (readPieces text pieces : Except Error (List (Shown α))) := by
  induction pieces with
  | nil => exact .ok []
  | cons piece more ih =>
    unfold readPieces
    dsimp only
    split
    · exact .error (List.mem_singleton.mpr rfl)
    · exact ih.bind fun _ => .ok _

theorem parse_raises (text : String) :
    RaisesOnly [.parameter] (parse text : Except Error (Path α)) := by
  unfold parse
  split
  · exact .error (List.mem_singleton.mpr rfl)
  · exact (readPieces_raises text _).bind fun _ => ofShown_raises _

end Path

namespace Params

theorem split_raises (text : String) : RaisesOnly [.parameter] (split text) := by
  unfold split
  split
  · exact .error (List.mem_singleton.mpr rfl)
  · exact .ok _

theorem readBool_raises (key value : String) : RaisesOnly [.parameter] (readBool key value) :=
  .ite (.ok true) (.ite (.ok false) (.error (List.mem_singleton.mpr rfl)))

theorem readNumber_raises (key value : String) :
    RaisesOnly [.parameter] (readNumber key value : Except Error α) := by
  unfold readNumber
  split
  · exact .error (List.mem_singleton.mpr rfl)
  · exact .ite (.ok _) (.error (List.mem_singleton.mpr rfl))

theorem readBounded_raises (key value bounds : String) (meets : α → Bool) :
    RaisesOnly [.parameter] (readBounded key value bounds meets) :=
  (readNumber_raises key value).bind fun _ =>
    .ite (.ok _) (.error (List.mem_singleton.mpr rfl))

theorem readCount_raises (key value : String) : RaisesOnly [.parameter] (readCount key value) := by
  unfold readCount
  split
  · exact .error (List.mem_singleton.mpr rfl)
  · exact .ite (.error (List.mem_singleton.mpr rfl))
      (.ite (.error (List.mem_singleton.mpr rfl)) (.ok _))

theorem readEntry_raises (entry : String) : RaisesOnly [.parameter] (readEntry entry) :=
  .ite (.error (List.mem_singleton.mpr rfl)) (.ok _)

theorem Field.read_raises (field : Field) (value : String) :
    RaisesOnly [.parameter] (field.read value : Except Error (field.Value α)) := by
  have number (key bounds : String) (meets : α → Bool) :
      RaisesOnly [.parameter] (readBounded key value bounds meets) :=
    readBounded_raises key value bounds meets
  cases field with
  | stepSize | stepDecay | threshold | maxStepSize | eta | warmupTolerance => exact number _ _ _
  | parallel | warmup => exact readBool_raises _ value
  | warmupPath => exact Path.parse_raises value
  | warmupCount => exact readCount_raises _ value

theorem set_raises (method : Method) (params : Params α) (key value : String) :
    RaisesOnly [.parameter] (set method params key value) := by
  by_cases known : ∃ field : Field, field.isOf method = true ∧ field.key = key
  · obtain ⟨field, own, rfl⟩ := known
    rw [Field.set_of_field own]
    exact (field.read_raises value).map _
  · rw [Field.set_of_unknown fun field own same => known ⟨field, own, same⟩]
    exact .error (List.mem_singleton.mpr rfl)

theorem setAll_raises (method : Method) (seen : List String) (params : Params α)
    (entries : List String) : RaisesOnly [.parameter] (setAll method seen params entries) := by
  induction entries generalizing seen params with
  | nil => exact .ok params
  | cons entry more ih =>
    unfold setAll
    refine (readEntry_raises entry).bind fun given => ?_
    exact .ite (.error (List.mem_singleton.mpr rfl))
      ((set_raises method params given.1 given.2).bind fun _ => ih _ _)

theorem parse_raises (text method : String) :
    RaisesOnly [.parameter] (parse text method : Except Error (Params α)) := by
  unfold parse
  split
  · exact .error (List.mem_singleton.mpr rfl)
  · exact (split_raises text).bind fun _ => setAll_raises _ _ _ _

end Params

end ElasticNet
