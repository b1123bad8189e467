import FunctionAdapters.Codec.Plan
import FunctionAdapters.Proofs.Adapter.Marks
import FunctionAdapters.Proofs.Json.Value
import FunctionAdapters.Proofs.Plan.Fates

/-!
# Plans in print

What is printed of a plan keeps to the limits of a reader.  It is nested no more than six deep, and
its only numbers are the arities of adapters; of these planning makes none above nine
(`fits_of_plan`).
-/

namespace FunctionAdapters

open Json

/-! ## Arities -/

namespace AdapterArity

/-- The arity has adapter types of its own, or those for any number of arguments. -/
def Supported : AdapterArity → Prop
  | fixed count => count ≤ maxFixed
  | variadic => True

theorem supported_ofCount (count : Nat) : (ofCount count).Supported := by
  unfold ofCount
  split
  · trivial
  · next h => exact Nat.le_of_not_lt h

end AdapterArity

theorem Operation.supported_adapterArity (op : Operation) : op.adapterArity.Supported := by
  unfold adapterArity
  split
  · have hone : 1 ≤ AdapterArity.maxFixed := by decide
    exact hone
  · exact AdapterArity.supported_ofCount op.arity

namespace ClassMetadata

variable {cls : ClassMetadata} {options : ClassOptions}

theorem arity_of_planOperation {op : Operation} {name : String} {plan : OperationPlan}
    (h : cls.planOperation op name = .ok plan) : plan.adapter.arity = op.adapterArity := by
  obtain ⟨m, -, rfl⟩ := planOperation_eq_ok_iff.1 h
  rfl

theorem arity_of_kept {fate : Fate} (htext : fate.Texted cls) {p : OperationPlan}
    (hp : p ∈ fate.kept?) : p.adapter.arity = fate.operation.adapterArity := by
  cases fate with
  | dropped op cause => cases hp
  | kept op plan =>
    obtain rfl := Option.some.inj hp
    exact arity_of_planOperation htext
  | renamed op plan =>
    obtain rfl := Option.some.inj hp
    have harity : plan.adapter.arity = op.adapterArity := arity_of_planOperation htext
    exact harity
  | excluded op plan => cases hp

theorem supported_of_plan {plan : ClassPlan} (h : cls.plan options = .ok plan) :
    ∀ p ∈ plan.operations, p.adapter.arity.Supported := by
  obtain ⟨owner, r, -, hrun, rfl⟩ := plan_eq_ok_iff.1 h
  obtain ⟨fates, hfates, -, hkept, -⟩ := fates_of_pushAll hrun
  have hkept : r.kept = fates.filterMap Fate.kept? := hkept
  simp only [finish]
  rw [hkept]
  intro p hp
  obtain ⟨fate, hfate, hp⟩ := List.mem_filterMap.1 hp
  rw [arity_of_kept (hfates.texted fate hfate) hp]
  exact fate.operation.supported_adapterArity

end ClassMetadata

/-! ## Printed values -/

theorem AdapterArity.fits_toJson {a : AdapterArity} (h : a.Supported) : Fits 1 a.toJson := by
  cases a with
  | fixed count =>
    have hcount : count < 2 ^ 64 := lt_of_le_of_lt h (by decide)
    exact fits_object (by simp [fits_string, fits_ofNat 0 hcount])
  | variadic => exact fits_object (by simp [fits_string])

theorem AdapterType.fits_toJson {a : AdapterType} (h : a.arity.Supported) : Fits 2 a.toJson := by
  have hfamily : Fits 1 a.family.toJson := by cases a.family <;> exact fits_string 1 _
  exact fits_object (by simp [fits_string, hfamily, AdapterArity.fits_toJson h])

theorem RenderedParameter.fits_toJson (p : RenderedParameter) : Fits 1 p.toJson :=
  fits_object (by simp [fits_string])

theorem ParameterList.fits_toJson (parameters : ParameterList) : Fits 3 parameters.toJson := by
  have hlist : Fits 2 (.array (parameters.toList.map RenderedParameter.toJson)) :=
    fits_array (List.forall_mem_map.2 fun p _ => p.fits_toJson)
  exact fits_object (by simp [fits_string, hlist])

theorem Diagnostic.fits_toJson (d : Diagnostic) : Fits 1 d.toJson := by
  have hoperation : Fits 0 (.ofOption .string d.operation) := fits_ofOption fun s _ => fits_string 0 s
  exact fits_object (by simp [fits_string, hoperation, Severity.toJson])

theorem OperationPlan.fits_toJson {plan : OperationPlan} (h : plan.adapter.arity.Supported) :
    Fits 4 plan.toJson := by
  have htext : ∀ o : Option String, Fits 3 (.ofOption .string o) :=
    fun o => fits_ofOption fun s _ => fits_string 3 s
  have hadapter : Fits 3 plan.adapter.toJson := (AdapterType.fits_toJson h).mono (by decide)
  exact fits_object (by simp [fits_string, fits_strings, htext, hadapter, OperationKind.toJson,
    ParameterList.fits_toJson])

theorem ClassPlan.fits_toJson {plan : ClassPlan}
    (h : ∀ p ∈ plan.operations, p.adapter.arity.Supported) : Fits 6 plan.toJson := by
  have hoperations : Fits 5 (.array (plan.operations.map OperationPlan.toJson)) :=
    fits_array (List.forall_mem_map.2 fun p hp => OperationPlan.fits_toJson (h p hp))
  have hdiagnostics : Fits 5 (.array (plan.diagnostics.map Diagnostic.toJson)) :=
    fits_array (List.forall_mem_map.2 fun d _ => d.fits_toJson.mono (by decide))
  exact fits_object (by simp [fits_string, hoperations, hdiagnostics])

/-- **Every plan can be read back** as JSON, once it is printed. -/
theorem ClassMetadata.fits_of_plan {cls : ClassMetadata} {options : ClassOptions} {plan : ClassPlan}
    (h : cls.plan options = .ok plan) : Fits 6 plan.toJson :=
  ClassPlan.fits_toJson (supported_of_plan h)

end FunctionAdapters
