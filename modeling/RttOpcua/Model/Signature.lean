import RttOpcua.Model.Lemmas.Describe
import RttOpcua.Model.Theorems

/-!
# Operation schemas
-/

namespace RttOpcua.Model

/-! ## Outputs and arguments -/

/-- A supported schema has for each output the value it should have, with its type, exactly if no argument spelled
`T const&` comes before a non-const reference argument: such an argument is read as a mutable one. -/
theorem describe_mapsOutputs_iff (registry : TypeRegistry) (operation : Operation) (passing : List Passing)
    (returnsValue : Bool) (h : Reports registry operation passing returnsValue)
    (hs : (describe registry operation).supported = true) :
    MapsOutputs registry operation passing returnsValue (describe registry operation) ↔
      passing.Pairwise fun a b => a = .constLast → b ≠ .reference :=
  mapsOutputs_iff h hs

/-- `bool f(T, U&)`, with a text for `T`. -/
def twoArguments (text : Str) : Operation where
  description := lit "two arguments"
  argumentList := some [⟨lit "in", [], text⟩, ⟨lit "out", [], lit "Bool &"⟩]
  returnType := some 0
  types := [some 1, some 0]
  collect := [some 0, some 0]

theorem isType_sample : IsType (lit "Bool") ∧ IsType (lit "TaskState") := by
  constructor <;> exact ⟨by decide, fun c hc => by cases hc; decide, fun c hc => by cases hc; decide, by decide⟩

theorem spells_out : Spells (lit "Bool &") .reference :=
  @Spells.reference (lit "Bool") [] (lit " ") [] isType_sample.1 nofun (by decide) nofun

theorem twoArguments_reports {text : Str} {p : Passing} (hp : Spells text p) (hread : p ≠ .reference) :
    Reports sampleRegistry (twoArguments text) [p, .reference] true where
  arguments := ⟨_, rfl, .cons hp (.cons spells_out .nil)⟩
  types := rfl
  returns t codec ht hcodec := by
    cases ht
    cases hcodec
    rfl
  collect := by cases p <;> first | rfl | exact absurd rfl hread

theorem describe_mapsOutputs_iff_constFirst :
    MapsOutputs sampleRegistry (twoArguments (lit "const TaskState &")) [.constFirst, .reference] true
      (describe sampleRegistry (twoArguments (lit "const TaskState &"))) := by
  have hspells : Spells (lit "const TaskState &") .constFirst :=
    @Spells.constFirst (lit "TaskState") [] [] (lit " ") [] isType_sample.2 nofun nofun (by decide) nofun
  exact (describe_mapsOutputs_iff sampleRegistry _ _ true (twoArguments_reports hspells nofun) (by decide +kernel)).2
    (by decide)

/-- `T const&` takes the place of the reference behind it: the second output has the source 0. -/
theorem constLast_shifts_outputs :
    Reports sampleRegistry (twoArguments (lit "TaskState const&")) [.constLast, .reference] true ∧
      (describe sampleRegistry (twoArguments (lit "TaskState const&"))).supported = true ∧
      (describe sampleRegistry (twoArguments (lit "TaskState const&"))).outputSources = [-1, 0] ∧
      ¬ MapsOutputs sampleRegistry (twoArguments (lit "TaskState const&")) [.constLast, .reference] true
        (describe sampleRegistry (twoArguments (lit "TaskState const&"))) := by
  have hspells : Spells (lit "TaskState const&") .constLast :=
    @Spells.constLast (lit "TaskState") [] (lit " ") [] [] isType_sample.2 nofun (by decide) (by decide) nofun nofun
  have hsources : (describe sampleRegistry (twoArguments (lit "TaskState const&"))).outputSources = [-1, 0] := by
    decide +kernel
  refine ⟨twoArguments_reports hspells nofun, by decide +kernel, hsources, fun hmaps => ?_⟩
  have hright := hmaps.sources
  rw [hsources] at hright
  revert hright
  decide

end RttOpcua.Model
