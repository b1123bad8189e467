import FunctionAdapters.Adapter.Operation

/-!
Plans by name, in the order in which the names came first.  A name is held once: inserting under a
name that is held replaces the plan there, in its place (`place`); a new name comes last
(`entries_insert`).
-/

namespace FunctionAdapters

structure Roster where
  entries : List (String × OperationPlan)
  /-- No name is held twice. -/
  nodup : (entries.map Prod.fst).Nodup
  deriving Repr

namespace Roster

/-- No names yet. -/
def empty : Roster := ⟨[], List.nodup_nil⟩

@[simp] theorem entries_empty : empty.entries = [] := rfl

instance : Inhabited Roster := ⟨empty⟩

/-- The names, in order. -/
def names (r : Roster) : List String := r.entries.map Prod.fst

/-- The plans, in the order of their names. -/
def plans (r : Roster) : List OperationPlan := r.entries.map Prod.snd

/-- Whether a name is taken. -/
def holds (r : Roster) (name : String) : Bool := r.names.contains name

/-- The entries with a plan under a name: in the place of the name, or at the end. -/
def place (name : String) (plan : OperationPlan) :
    List (String × OperationPlan) → List (String × OperationPlan)
  | [] => [(name, plan)]
  | (key, old) :: rest =>
    if key = name then (key, plan) :: rest else (key, old) :: place name plan rest

theorem fst_place_of_mem {name : String} {entries : List (String × OperationPlan)}
    (h : name ∈ entries.map Prod.fst) (plan : OperationPlan) :
    (place name plan entries).map Prod.fst = entries.map Prod.fst := by
  induction entries with
  | nil => simp at h
  | cons e rest ih =>
    obtain ⟨key, old⟩ := e
    by_cases hk : key = name
    · simp [place, hk]
    · have : name ∈ rest.map Prod.fst := by
        rw [List.map_cons, List.mem_cons] at h
        exact h.resolve_left (Ne.symm hk)
      simp [place, hk, ih this]

theorem place_of_not_mem {name : String} {entries : List (String × OperationPlan)}
    (h : name ∉ entries.map Prod.fst) (plan : OperationPlan) :
    place name plan entries = entries ++ [(name, plan)] := by
  induction entries with
  | nil => rfl
  | cons e rest ih =>
    obtain ⟨key, old⟩ := e
    rw [List.map_cons, List.mem_cons, not_or] at h
    simp [place, Ne.symm h.1, ih h.2]

theorem nodup_place {entries : List (String × OperationPlan)} (h : (entries.map Prod.fst).Nodup)
    (name : String) (plan : OperationPlan) : ((place name plan entries).map Prod.fst).Nodup := by
  by_cases hm : name ∈ entries.map Prod.fst
  · rw [fst_place_of_mem hm]; exact h
  · rw [place_of_not_mem hm, List.map_append]
    exact List.nodup_append.2 ⟨h, by simp, fun a ha b hb hab => hm (by simp_all)⟩

/-- Puts a plan under a name. -/
def insert (r : Roster) (name : String) (plan : OperationPlan) : Roster :=
  ⟨place name plan r.entries, nodup_place r.nodup name plan⟩

theorem holds_iff {r : Roster} {name : String} : r.holds name = true ↔ name ∈ r.names := by
  simp [holds]

theorem entries_insert {r : Roster} {name : String} (h : r.holds name = false)
    (plan : OperationPlan) : (r.insert name plan).entries = r.entries ++ [(name, plan)] := by
  refine place_of_not_mem (fun hm => ?_) plan
  rw [holds_iff.2 hm] at h
  exact absurd h (by decide)

end Roster

end FunctionAdapters
