import FunctionAdapters.Erasure
import Mathlib.Logic.Relation

/-!
# Erasure as a loop

An erasure goes from a shape to the next one (`followed?`): along a chain of bounds (`chained?`), and
from an array on to its component.  A loop that does so in rounds (`erasureWithin`) has to remember
the variables of the chain that it is on, lest it goes round for ever.  It forgets them at an array,
where a new chain begins; so a variable that leads back to itself through an array keeps it busy for
ever, and nothing else does (`exists_erasureWithin_iff`).  The sizes of a shape and of all bounds give
rounds enough for every loop that ends (`erased?_eq_some_iff`).

The main statement is `erasure_laws`: where the loop ends it gives the erasure, and erasure is what
its rules say, whatever was seen on the way.
-/

namespace FunctionAdapters

namespace TypeVarTable

variable {table : TypeVarTable} {s t u : Shape} {id : TypeVarId} {param : TypeParam}

theorem rootName_eq : rootName = "java.lang.Object" := by decide

/-! ## The way of an erasure -/

/-- The next shape in a chain of bounds: the upper bound of a variable, the first component of an
intersection, what a wildcard extends. -/
def chained? (table : TypeVarTable) : Shape → Option Shape
  | .typeVar id => (table.get? id).map TypeParam.upper
  | .declared _ args bounds => if Shape.standsForBounds args bounds then bounds.head? else none
  | .wildcardExtends bound => some bound
  | _ => none

/-- The next shape on the way of an erasure, which goes on from an array to its component. -/
def followed? (table : TypeVarTable) : Shape → Option Shape
  | .array component => some component
  | s => table.chained? s

/-- A chain of bounds leads from one shape to another. -/
def Chain (table : TypeVarTable) : Shape → Shape → Prop :=
  Relation.ReflTransGen fun s t => table.chained? s = some t

/-- The way of an erasure leads from one shape to another. -/
def Follows (table : TypeVarTable) : Shape → Shape → Prop :=
  Relation.ReflTransGen fun s t => table.followed? s = some t

/-- The way from one shape to another passes through an array. -/
def ThroughArray (table : TypeVarTable) (s t : Shape) : Prop :=
  ∃ component, table.Follows s (.array component) ∧ table.Follows component t

/-- No variable on the way from a shape leads back to itself through an array. -/
def Founded (table : TypeVarTable) (s : Shape) : Prop :=
  ∀ id, table.Follows s (.typeVar id) → ¬ table.ThroughArray (.typeVar id) (.typeVar id)

/-- A chain of bounds that comes back to where it began. -/
def Loops (table : TypeVarTable) (s : Shape) : Prop :=
  Relation.TransGen (fun s t => table.chained? s = some t) s s

/-- The chain of bounds from a shape returns to a variable that is on it. -/
def Returns (table : TypeVarTable) (s : Shape) : Prop :=
  ∃ id, table.Chain s (.typeVar id) ∧ table.Loops (.typeVar id)

theorem chained?_of_get? (h : table.get? id = some param) :
    table.chained? (.typeVar id) = some param.upper := congrArg (Option.map TypeParam.upper) h

theorem followed?_of_get?_eq_none (h : table.get? id = none) :
    table.followed? (.typeVar id) = none := congrArg (Option.map TypeParam.upper) h

theorem followed?_of_chained? (h : table.chained? s = some t) : table.followed? s = some t := by
  cases s with
  | array component => cases h
  | _ => exact h

/-- A declared type is an intersection, which goes on to its first component, or a class. -/
theorem intersection_or_class (table : TypeVarTable) (name : ClassName) (args bounds : List Shape) :
    (∃ first second more, args = [] ∧ bounds = first :: second :: more ∧
        table.chained? (.declared name args bounds) = some first) ∨
      Shape.standsForBounds args bounds = false ∧
        table.chained? (.declared name args bounds) = none := by
  obtain _ | ⟨arg, args⟩ := args
  · obtain _ | ⟨first, _ | ⟨second, more⟩⟩ := bounds
    · exact .inr ⟨rfl, rfl⟩
    · exact .inr ⟨rfl, rfl⟩
    · exact .inl ⟨first, second, more, rfl, rfl, rfl⟩
  · exact .inr ⟨rfl, rfl⟩

/-- A step that does not start at a variable goes from an intersection to its first component or
from a wildcard to what it extends. -/
theorem chained?_cases (hs : s.typeVar? = none) (h : table.chained? s = some t) :
    (∃ name second more, s = .declared name [] (t :: second :: more)) ∨
      s = .wildcardExtends t := by
  cases s with
  | declared name args bounds =>
    rcases intersection_or_class table name args bounds with
      ⟨first, second, more, rfl, rfl, hfirst⟩ | ⟨-, hnone⟩
    · obtain rfl : t = first := Option.some.inj (h.symm.trans hfirst)
      exact .inl ⟨name, second, more, rfl⟩
    · cases h.symm.trans hnone
  | wildcardExtends bound =>
    obtain rfl := Option.some.inj h
    exact .inr rfl
  | typeVar id => cases hs
  | primitive | array | wildcard | wildcardSuper | void | top => cases h

theorem ThroughArray.head (hst : table.Follows s t) (h : table.ThroughArray t u) :
    table.ThroughArray s u := by
  obtain ⟨component, hcomponent, hu⟩ := h
  exact ⟨component, hst.trans hcomponent, hu⟩

theorem ThroughArray.tail (h : table.ThroughArray s t) (htu : table.Follows t u) :
    table.ThroughArray s u := by
  obtain ⟨component, hcomponent, ht⟩ := h
  exact ⟨component, hcomponent, ht.trans htu⟩

theorem Follows.chain_or_throughArray (h : table.Follows s t) :
    table.Chain s t ∨ table.ThroughArray s t := by
  induction h with
  | refl => exact .inl .refl
  | @tail t u hst htu ih =>
    cases t with
    | array component =>
      obtain rfl := Option.some.inj htu
      exact .inr ⟨_, hst, .refl⟩
    | _ => exact ih.imp (·.tail htu) (·.tail (.single htu))

theorem founded_iff_of_followed? (h : table.followed? s = some t) :
    table.Founded s ↔ table.Founded t := by
  constructor
  · exact fun hs id ht => hs id (ht.head h)
  · intro ht id hs harray
    rcases Relation.ReflTransGen.cases_head hs with rfl | ⟨t', ht', hid⟩
    · -- The way from the variable to the array begins with the same step.
      obtain ⟨component, hcomponent, hback⟩ := harray
      rcases Relation.ReflTransGen.cases_head hcomponent with heq | ⟨t', ht', hrest⟩
      · cases heq
      · obtain rfl : t' = t := Option.some.inj (ht'.symm.trans h)
        have hid : table.Follows t' (.typeVar id) :=
          hrest.trans (hback.head (rfl : table.followed? (.array component) = some component))
        exact ht id hid ⟨component, hcomponent, hback⟩
    · obtain rfl : t' = t := Option.some.inj (ht'.symm.trans h)
      exact ht id hid harray

theorem size_lt_of_chained? (hs : s.typeVar? = none) (h : table.chained? s = some t) :
    t.size < s.size := by
  obtain ⟨name, second, more, rfl⟩ | rfl := chained?_cases hs h
  · simp only [Shape.size, Shape.sizes]
    omega
  · simp only [Shape.size]
    omega

theorem founded_of_followed?_eq_none (h : table.followed? s = none) : table.Founded s := by
  have hend : ∀ t, table.Follows s t → s = t := by
    intro t hst
    rcases Relation.ReflTransGen.cases_head hst with rfl | ⟨u, hu, -⟩
    · rfl
    · cases h.symm.trans hu
  intro id hid
  obtain rfl := hend _ hid
  rintro ⟨component, hcomponent, -⟩
  cases hend _ hcomponent

theorem not_founded_of_array (hparam : table.get? id = some param)
    (hupper : param.upper = .array (.typeVar id)) : ¬ table.Founded (.typeVar id) := by
  have hstep : table.followed? (.typeVar id) = some (.array (.typeVar id)) := by
    rw [← hupper]
    exact followed?_of_chained? (chained?_of_get? hparam)
  exact fun hfounded => hfounded id .refl ⟨.typeVar id, .single hstep, .refl⟩

/-! ## Chains that return -/

theorem Loops.next (h : table.Loops s) : ∃ t, table.chained? s = some t ∧ table.Chain t s := by
  obtain ⟨t, hst, hts⟩ := Relation.TransGen.head'_iff.1 h
  exact ⟨t, hst, hts⟩

theorem Loops.follows (h : table.Loops s) (hst : table.Follows s t) : table.Loops t := by
  induction hst with
  | refl => exact h
  | @tail t u _ htu ih =>
    obtain ⟨u', htu', hchain⟩ := ih.next
    obtain rfl : u' = u := Option.some.inj ((followed?_of_chained? htu').symm.trans htu)
    exact Relation.TransGen.tail' hchain htu'

theorem Loops.founded (h : table.Loops s) : table.Founded s := by
  rintro id hid ⟨component, hcomponent, -⟩
  obtain ⟨t, ht, -⟩ := ((h.follows hid).follows hcomponent).next
  cases ht

theorem Returns.next (h : table.Returns s) :
    ∃ t, table.chained? s = some t ∧ table.Returns t := by
  obtain ⟨id, hchain, hloop⟩ := h
  rcases Relation.ReflTransGen.cases_head hchain with rfl | ⟨t, hst, ht⟩
  · obtain ⟨t, hst, ht⟩ := hloop.next
    exact ⟨t, hst, id, ht, hloop⟩
  · exact ⟨t, hst, id, ht, hloop⟩

/-! ## Stages

A variable leads to its upper bound, an array to its component.  Any other shape goes on to the next
one of its chain, or the way ends there. -/

inductive Stage (table : TypeVarTable) : Shape → Prop where
  | typeVar (id : TypeVarId) : Stage table (.typeVar id)
  | array (component : Shape) : Stage table (.array component)
  | along {s t : Shape} (hs : s.typeVar? = none) (h : table.chained? s = some t) : Stage table s
  | ends {s : Shape} (hs : s.typeVar? = none) (h : table.followed? s = none) : Stage table s

theorem stage (table : TypeVarTable) (s : Shape) : Stage table s := by
  cases s with
  | typeVar id => exact .typeVar id
  | array component => exact .array component
  | declared name args bounds =>
    cases h : table.chained? (.declared name args bounds) with
    | some t => exact .along rfl h
    | none => exact .ends rfl h
  | wildcardExtends bound => exact .along rfl rfl
  | primitive | wildcard | wildcardSuper | void | top => exact .ends rfl rfl

section Erasure

variable {seen : List TypeVarId}

theorem erasureFrom_of_chained? (hs : s.typeVar? = none) (h : table.chained? s = some t) :
    table.erasureFrom seen s = table.erasureFrom seen t := by
  obtain ⟨name, second, more, rfl⟩ | rfl := chained?_cases hs h
  · rw [erasureFrom]
  · rw [erasureFrom]

/-- Where the way ends, it does not matter which variables were seen on it. -/
theorem erasureFrom_of_followed?_eq_none (seen' : List TypeVarId) (hs : s.typeVar? = none)
    (h : table.followed? s = none) : table.erasureFrom seen s = table.erasureFrom seen' s := by
  cases s with
  | declared name args bounds =>
    rcases intersection_or_class table name args bounds with
      ⟨first, second, more, rfl, rfl, hfirst⟩ | ⟨hclass, -⟩
    · cases h.symm.trans hfirst
    · rw [erasureFrom_class name hclass, erasureFrom_class name hclass]
  | typeVar id => cases hs
  | array | wildcardExtends => cases h
  | primitive | wildcard | wildcardSuper | void | top => rw [erasureFrom, erasureFrom]

end Erasure

theorem erasure_induction (table : TypeVarTable) {motive : List TypeVarId → Shape → Prop}
    (met : ∀ seen id, id ∈ seen → motive seen (.typeVar id))
    (unknown : ∀ seen id, id ∉ seen → table.get? id = none → motive seen (.typeVar id))
    (upper : ∀ seen id param, id ∉ seen → table.get? id = some param →
      motive (seen ++ [id]) param.upper → motive seen (.typeVar id))
    (along : ∀ seen s t, s.typeVar? = none → table.chained? s = some t → motive seen t →
      motive seen s)
    (array : ∀ seen component, motive seen component → motive seen (.array component))
    (ends : ∀ seen s, s.typeVar? = none → table.followed? s = none → motive seen s)
    (seen : List TypeVarId) (s : Shape) : motive seen s := by
  fun_induction table.erasureFrom seen s with
  | case1 seen id hid => exact met seen id hid
  | case2 seen id hid param hparam ih => exact upper seen id param hid hparam ih
  | case3 seen id hid hparam => exact unknown seen id hid hparam
  | case4 seen name first second more ih => exact along seen _ first rfl rfl ih
  | case5 seen name args bounds hshape =>
    rcases intersection_or_class table name args bounds with
      ⟨first, second, more, hargs, hbounds, -⟩ | ⟨-, hnone⟩
    · exact absurd hbounds fun hbounds => hshape first second more hargs hbounds
    · exact ends seen _ rfl hnone
  | case6 seen component ih => exact array seen component ih
  | case9 seen bound ih => exact along seen _ bound rfl rfl ih
  | case7 | case8 | case10 | case11 | case12 => exact ends _ _ rfl rfl

/-! ## Rounds of the loop -/

section Round

variable {n : Nat} {seen : List TypeVarId}

theorem erasureWithin_of_get?_eq_none (h : table.get? id = none) :
    table.erasureWithin (n + 1) seen (.typeVar id) = some rootName := by
  rw [erasureWithin, h]

theorem erasureWithin_of_mem (h : id ∈ seen) :
    table.erasureWithin (n + 1) seen (.typeVar id) = some rootName := by
  rw [erasureWithin]
  split
  · exact if_pos h
  · rfl

theorem erasureWithin_of_get? (hparam : table.get? id = some param) (h : id ∉ seen) :
    table.erasureWithin (n + 1) seen (.typeVar id) =
      table.erasureWithin n (id :: seen) param.upper := by
  rw [erasureWithin, hparam]
  exact if_neg h

theorem erasureWithin_of_chained? (hs : s.typeVar? = none) (h : table.chained? s = some t) :
    table.erasureWithin (n + 1) seen s = table.erasureWithin n seen t := by
  obtain ⟨name, second, more, rfl⟩ | rfl := chained?_cases hs h <;> rfl

theorem erasureWithin_of_followed?_eq_none (hs : s.typeVar? = none)
    (h : table.followed? s = none) :
    table.erasureWithin (n + 1) seen s = some (table.erasure s) := by
  cases s with
  | declared name args bounds =>
    rcases intersection_or_class table name args bounds with
      ⟨first, second, more, rfl, rfl, hfirst⟩ | ⟨hclass, -⟩
    · cases h.symm.trans hfirst
    · rw [erasure, erasureFrom_class name hclass, erasureWithin]
      rintro first second more rfl rfl
      cases hclass
  | typeVar id => cases hs
  | array | wildcardExtends => cases h
  | primitive | wildcard | wildcardSuper | void | top => rw [erasureWithin, erasure, erasureFrom]

end Round

theorem erasureWithin_mono {n m : Nat} (hnm : n ≤ m) {seen : List TypeVarId} {text : String}
    (h : table.erasureWithin n seen s = some text) : table.erasureWithin m seen s = some text := by
  -- the first round is the same in both, the induction is on those that are left
  induction n generalizing m seen s text with
  | zero => cases h
  | succ n ih =>
    obtain ⟨m, rfl⟩ : ∃ k, m = k + 1 := ⟨m - 1, by omega⟩
    have hle : n ≤ m := by omega
    cases table.stage s with
    | typeVar id =>
      cases hparam : table.get? id with
      | none => rwa [erasureWithin_of_get?_eq_none hparam] at h ⊢
      | some param =>
        by_cases hid : id ∈ seen
        · rwa [erasureWithin_of_mem hid] at h ⊢
        · rw [erasureWithin_of_get? hparam hid] at h ⊢
          exact ih hle h
    | array component =>
      rw [erasureWithin] at h ⊢
      obtain ⟨inner, hinner, rfl⟩ := Option.map_eq_some_iff.1 h
      rw [ih hle hinner]
      rfl
    | along hs hst =>
      rw [erasureWithin_of_chained? hs hst] at h ⊢
      exact ih hle h
    | ends hs hend => rwa [erasureWithin_of_followed?_eq_none hs hend] at h ⊢

/-! ## When the loop ends -/

/-- Where a shape is reached: all variables that were seen on the way there, and those that the loop
still knows.  The others were seen before an array. -/
structure Trail (table : TypeVarTable) (seen known : List TypeVarId) (s : Shape) : Prop where
  subset : known ⊆ seen
  follows : ∀ x ∈ seen, table.Follows (.typeVar x) s
  forgotten : ∀ x ∈ seen, x ∉ known → table.ThroughArray (.typeVar x) s

namespace Trail

variable {seen known : List TypeVarId}

theorem start (table : TypeVarTable) (s : Shape) : Trail table [] [] s :=
  ⟨List.Subset.refl [], by simp, by simp⟩

theorem along (h : Trail table seen known s) (hst : table.chained? s = some t) :
    Trail table seen known t := by
  have hstep : table.Follows s t := .single (followed?_of_chained? hst)
  exact ⟨h.subset, fun x hx => (h.follows x hx).trans hstep,
    fun x hx hknown => (h.forgotten x hx hknown).tail hstep⟩

theorem array {component : Shape} (h : Trail table seen known (.array component)) :
    Trail table seen [] component := by
  refine ⟨List.nil_subset seen, fun x hx => ?_, fun x hx _ => ⟨component, h.follows x hx, .refl⟩⟩
  exact (h.follows x hx).tail rfl

theorem upper (h : Trail table seen known (.typeVar id)) (hparam : table.get? id = some param) :
    Trail table (seen ++ [id]) (id :: known) param.upper := by
  have hchained := chained?_of_get? hparam
  have hlater := h.along hchained
  refine ⟨?_, fun x hx => ?_, fun x hx hknown => ?_⟩
  · exact List.cons_subset.2 ⟨List.mem_append_right seen List.mem_cons_self,
      List.subset_append_of_subset_left [id] h.subset⟩
  · -- every variable seen before leads on to the bound, and so does the one just met
    rcases List.mem_append.1 hx with hx | hx
    · exact hlater.follows x hx
    · obtain rfl := List.mem_singleton.1 hx
      exact .single (followed?_of_chained? hchained)
  · -- what is forgotten was forgotten before; the variable just met is known
    rcases List.mem_append.1 hx with hx | hx
    · exact hlater.forgotten x hx fun hmem => hknown (List.mem_cons_of_mem id hmem)
    · exact absurd (List.mem_singleton.1 hx ▸ List.mem_cons_self) hknown

end Trail

/-- On a founded way the loop ends with the erasure: no variable that it forgot is met again.  Each
round takes something off the shape or off the bounds that are still to be seen. -/
theorem erasureWithin_of_founded (seen : List TypeVarId) (s : Shape) {known : List TypeVarId}
    (htrail : Trail table seen known s) (hs : table.Founded s) :
    ∃ n ≤ s.size + table.weight seen,
      table.erasureWithin n known s = some (table.erasureFrom seen s) := by
  have hsize := s.size_pos
  induction seen, s using erasure_induction table generalizing known with
  -- a variable met again but not known would lead back to itself through an array
  | met seen id hid =>
    have hknown : id ∈ known := Decidable.byContradiction fun hnot =>
      hs id .refl (htrail.forgotten id hid hnot)
    exact ⟨1, by omega, by rw [erasureWithin_of_mem hknown, erasureFrom_of_mem hid]⟩
  | unknown seen id hid hparam =>
    refine ⟨1, by omega, ?_⟩
    rw [erasureWithin_of_get?_eq_none hparam, erasureFrom_of_get?_eq_none hparam]
  | upper seen id param hid hparam ih =>
    have hnot : id ∉ known := fun hmem => hid (htrail.subset hmem)
    have hfounded :=
      (founded_iff_of_followed? (followed?_of_chained? (chained?_of_get? hparam))).1 hs
    obtain ⟨n, hle, hn⟩ := ih (htrail.upper hparam) hfounded param.upper.size_pos
    -- the bounds of the variable are no longer ahead, which pays for its upper bound
    have hweight := table.weight_found hid hparam
    simp only [TypeParam.allBounds, Shape.sizes_append, Shape.sizes] at hweight
    refine ⟨n + 1, by omega, ?_⟩
    rw [erasureWithin_of_get? hparam hnot, hn, erasureFrom_of_get? hid hparam]
  | along seen s t hvar hst ih =>
    have hfounded := (founded_iff_of_followed? (followed?_of_chained? hst)).1 hs
    obtain ⟨n, hle, hn⟩ := ih (htrail.along hst) hfounded t.size_pos
    have hlt := size_lt_of_chained? hvar hst
    refine ⟨n + 1, by omega, ?_⟩
    rw [erasureWithin_of_chained? hvar hst, hn, erasureFrom_of_chained? hvar hst]
  | array seen component ih =>
    have hfounded : table.Founded component := (founded_iff_of_followed? rfl).1 hs
    obtain ⟨n, hle, hn⟩ := ih htrail.array hfounded component.size_pos
    refine ⟨n + 1, by rw [Shape.size]; omega, ?_⟩
    rw [erasureWithin, hn, erasureFrom]
    rfl
  | ends seen s hvar hend =>
    refine ⟨1, by omega, ?_⟩
    rw [erasureWithin_of_followed?_eq_none hvar hend, erasure,
      erasureFrom_of_followed?_eq_none seen hvar hend]

/-- A way on which the loop ends is founded: the variables that it still knows lie on its chain, so
that meeting one of them again closes a loop without an array. -/
theorem founded_of_erasureWithin {n : Nat} {known : List TypeVarId} {text : String}
    (hknown : ∀ x ∈ known, Relation.TransGen (fun s t => table.chained? s = some t) (.typeVar x) s)
    (h : table.erasureWithin n known s = some text) : table.Founded s := by
  -- the known variables stay on the chain, except that an array forgets them all
  induction n generalizing known s text with
  | zero => cases h
  | succ n ih =>
    cases table.stage s with
    | typeVar id =>
      by_cases hid : id ∈ known
      · -- the variable is met again, and its chain comes back without an array
        exact Loops.founded (hknown id hid)
      · cases hparam : table.get? id with
        | none => exact founded_of_followed?_eq_none (followed?_of_get?_eq_none hparam)
        | some param =>
          have hchained := chained?_of_get? hparam
          rw [erasureWithin_of_get? hparam hid] at h
          refine (founded_iff_of_followed? (followed?_of_chained? hchained)).2 (ih ?_ h)
          intro x hx
          rcases List.mem_cons.1 hx with rfl | hx
          · exact .single hchained
          · exact (hknown x hx).tail hchained
    | array component =>
      rw [erasureWithin] at h
      obtain ⟨inner, hinner, -⟩ := Option.map_eq_some_iff.1 h
      exact (founded_iff_of_followed? rfl).2 (ih (by simp) hinner)
    | along hs hst =>
      rw [erasureWithin_of_chained? hs hst] at h
      exact (founded_iff_of_followed? (followed?_of_chained? hst)).2
        (ih (fun x hx => (hknown x hx).tail hst) h)
    | ends hs hend => exact founded_of_followed?_eq_none hend

/-- **Where the loop ends.**  It ends exactly on founded ways, and then with the erasure. -/
theorem exists_erasureWithin_iff {text : String} :
    (∃ n, table.erasureWithin n [] s = some text) ↔ table.Founded s ∧ text = table.erasure s := by
  constructor
  · rintro ⟨n, hn⟩
    have hfounded : table.Founded s := founded_of_erasureWithin (by simp) hn
    obtain ⟨m, -, hm⟩ := erasureWithin_of_founded [] s (.start table s) hfounded
    have hn' := erasureWithin_mono (Nat.le_max_left n m) hn
    have hm' := erasureWithin_mono (Nat.le_max_right n m) hm
    exact ⟨hfounded, Option.some.inj (hn'.symm.trans hm')⟩
  · rintro ⟨hfounded, rfl⟩
    obtain ⟨n, -, hn⟩ := erasureWithin_of_founded [] s (.start table s) hfounded
    exact ⟨n, hn⟩

/-- **What the loop finds.**  A loop that ends does so in the rounds that it is given. -/
theorem erased?_eq_some_iff {text : String} :
    table.erased? s = some text ↔ table.Founded s ∧ text = table.erasure s := by
  constructor
  · exact fun h => exists_erasureWithin_iff.1 ⟨_, h⟩
  · rintro ⟨hfounded, rfl⟩
    obtain ⟨n, hle, hn⟩ := erasureWithin_of_founded [] s (.start table s) hfounded
    exact erasureWithin_mono hle hn

/-- Nothing is found where `T extends T[]`. -/
example : (⟨[⟨"T", .array (.typeVar ⟨0⟩), none⟩]⟩ : TypeVarTable).erased? (.typeVar ⟨0⟩) = none := by
  decide

/-! ## The erasure of a variable -/

theorem erasureFrom_of_returns (seen : List TypeVarId) (s : Shape) (h : table.Returns s) :
    table.erasureFrom seen s = rootName := by
  induction seen, s using erasure_induction table with
  | met seen id hid => exact erasureFrom_of_mem hid
  | unknown seen id hid hparam => exact erasureFrom_of_get?_eq_none hparam
  | upper seen id param hid hparam ih =>
    obtain ⟨t, ht, hreturns⟩ := h.next
    obtain rfl : param.upper = t := Option.some.inj ((chained?_of_get? hparam).symm.trans ht)
    rw [erasureFrom_of_get? hid hparam, ih hreturns]
  | along seen s t hvar hst ih =>
    obtain ⟨t', ht', hreturns⟩ := h.next
    obtain rfl : t = t' := Option.some.inj (hst.symm.trans ht')
    rw [erasureFrom_of_chained? hvar hst, ih hreturns]
  | array seen component ih =>
    obtain ⟨t, ht, -⟩ := h.next
    cases ht
  | ends seen s hvar hend =>
    obtain ⟨t, ht, -⟩ := h.next
    cases hend.symm.trans (followed?_of_chained? ht)

/-- Of the variables that were seen, only those count that lie ahead. -/
theorem erasureFrom_congr (seen : List TypeVarId) (s : Shape) {seen' : List TypeVarId}
    (h : ∀ x, table.Follows s (.typeVar x) → (x ∈ seen ↔ x ∈ seen')) :
    table.erasureFrom seen s = table.erasureFrom seen' s := by
  induction seen, s using erasure_induction table generalizing seen' with
  | met seen id hid => rw [erasureFrom_of_mem hid, erasureFrom_of_mem ((h id .refl).1 hid)]
  | unknown seen id hid hparam =>
    rw [erasureFrom_of_get?_eq_none hparam, erasureFrom_of_get?_eq_none hparam]
  | upper seen id param hid hparam ih =>
    have hstep := followed?_of_chained? (chained?_of_get? hparam)
    -- the variable lies ahead of itself, so the two sets agree about it
    have hid' : id ∉ seen' := fun hmem => hid ((h id .refl).2 hmem)
    rw [erasureFrom_of_get? hid hparam, erasureFrom_of_get? hid' hparam]
    refine ih fun x hx => ?_
    rw [List.mem_append, List.mem_append, h x (hx.head hstep)]
  | along seen s t hvar hst ih =>
    rw [erasureFrom_of_chained? hvar hst, erasureFrom_of_chained? hvar hst]
    exact ih fun x hx => h x (hx.head (followed?_of_chained? hst))
  | array seen component ih =>
    rw [erasureFrom, erasureFrom, ih fun x hx => h x (hx.head rfl)]
  | ends seen s hvar hend => exact erasureFrom_of_followed?_eq_none seen' hvar hend

/-- A variable on a founded way erases to the erasure of its upper bound: that it was seen does not
show, as the chain returns to it or never comes back. -/
theorem erasure_typeVar (hparam : table.get? id = some param)
    (h : table.Founded (.typeVar id)) :
    table.erasure (.typeVar id) = table.erasure param.upper := by
  -- it comes back without an array, so both chains return
  have hchained := chained?_of_get? hparam
  have hstep : table.Follows (.typeVar id) param.upper := .single (followed?_of_chained? hchained)
  rw [erasure, erasureFrom_of_get? List.not_mem_nil hparam]
  -- does the way from the bound come back to the variable?
  by_cases hback : table.Follows param.upper (.typeVar id)
  · have hchain : table.Chain param.upper (.typeVar id) :=
      hback.chain_or_throughArray.resolve_right fun harray => h id .refl (harray.head hstep)
    have hreturns : table.Returns param.upper :=
      ⟨id, hchain, Relation.TransGen.head' hchained hchain⟩
    rw [erasure, erasureFrom_of_returns _ _ hreturns, erasureFrom_of_returns _ _ hreturns]
  · -- the variable does not lie ahead, so that it was seen makes no difference
    refine erasureFrom_congr _ _ fun x hx => ?_
    have hne : x ≠ id := fun heq => hback (heq ▸ hx)
    simp [hne]

/-! ## Rules -/

/-- What a shape erases to, in terms of what the next shape on its way erases to. -/
structure ErasureRules (table : TypeVarTable) (erase : Shape → String) : Prop where
  ofClass : ∀ name args bounds, Shape.standsForBounds args bounds = false →
    erase (.declared name args bounds) = name.qualified
  ofIntersection : ∀ name args first more, Shape.standsForBounds args (first :: more) = true →
    erase (.declared name args (first :: more)) = erase first
  ofArray : ∀ component, erase (.array component) = erase component ++ "[]"
  ofExtends : ∀ bound, erase (.wildcardExtends bound) = erase bound
  ofSuper : ∀ bound, erase (.wildcardSuper bound) = "java.lang.Object"
  ofWildcard : erase .wildcard = "java.lang.Object"
  ofTop : erase .top = "java.lang.Object"
  ofPrimitive : ∀ p, erase (.primitive p) = p.keyword
  ofVoid : erase .void = "void"
  ofUnknown : ∀ id, table.get? id = none → erase (.typeVar id) = "java.lang.Object"
  ofVariable : ∀ id param, table.get? id = some param → table.Founded (.typeVar id) →
    erase (.typeVar id) = erase param.upper
  ofReturning : ∀ id, table.Returns (.typeVar id) → erase (.typeVar id) = "java.lang.Object"

theorem erasureRules (table : TypeVarTable) : ErasureRules table table.erasure where
  ofClass name _ _ h := erasureFrom_class name h
  ofIntersection name args first more h := by
    refine erasureFrom_of_chained? rfl ?_
    rw [chained?, if_pos h]
    rfl
  ofArray component := by rw [erasure, erasureFrom]; rfl
  ofExtends bound := erasureFrom_of_chained? rfl rfl
  ofSuper bound := by rw [erasure, erasureFrom, rootName_eq]
  ofWildcard := by rw [erasure, erasureFrom, rootName_eq]
  ofTop := by rw [erasure, erasureFrom, rootName_eq]
  ofPrimitive p := by rw [erasure, erasureFrom]
  ofVoid := by rw [erasure, erasureFrom]
  ofUnknown id h := by rw [erasure, erasureFrom_of_get?_eq_none h, rootName_eq]
  ofVariable id param := erasure_typeVar
  ofReturning id h := by rw [erasure, erasureFrom_of_returns [] _ h, rootName_eq]

namespace ErasureRules

variable {erase : Shape → String}

theorem eq_of_chained? (hrules : ErasureRules table erase) (hs : s.typeVar? = none)
    (h : table.chained? s = some t) : erase s = erase t := by
  obtain ⟨name, second, more, rfl⟩ | rfl := chained?_cases hs h
  · exact hrules.ofIntersection name [] t (second :: more) rfl
  · exact hrules.ofExtends t

theorem eq_of_followed?_eq_none {erase' : Shape → String} (hrules : ErasureRules table erase)
    (hrules' : ErasureRules table erase') (hs : s.typeVar? = none)
    (h : table.followed? s = none) : erase s = erase' s := by
  cases s with
  | declared name args bounds =>
    rcases intersection_or_class table name args bounds with
      ⟨first, second, more, rfl, rfl, hfirst⟩ | ⟨hclass, -⟩
    · cases h.symm.trans hfirst
    · rw [hrules.ofClass name args bounds hclass, hrules'.ofClass name args bounds hclass]
  | typeVar id => cases hs
  | array | wildcardExtends => cases h
  | primitive p => rw [hrules.ofPrimitive, hrules'.ofPrimitive]
  | wildcard => rw [hrules.ofWildcard, hrules'.ofWildcard]
  | wildcardSuper bound => rw [hrules.ofSuper, hrules'.ofSuper]
  | void => rw [hrules.ofVoid, hrules'.ofVoid]
  | top => rw [hrules.ofTop, hrules'.ofTop]

/-- The rules leave no choice on founded ways.  The variables that were seen lead to the shape at
hand in one step or more, so that one that is met again lies on a loop. -/
theorem unique {erase' : Shape → String} (hrules : ErasureRules table erase)
    (hrules' : ErasureRules table erase') (seen : List TypeVarId) (s : Shape)
    (hseen : ∀ x ∈ seen, ∃ t, table.chained? (.typeVar x) = some t ∧ table.Follows t s)
    (hs : table.Founded s) : erase s = erase' s := by
  induction seen, s using erasure_induction table with
  | met seen id hid =>
    -- the variable led here, and on a founded way only through a chain of bounds
    obtain ⟨t, hchained, hback⟩ := hseen id hid
    have hstep : table.Follows (.typeVar id) t := .single (followed?_of_chained? hchained)
    have hchain : table.Chain t (.typeVar id) :=
      hback.chain_or_throughArray.resolve_right fun harray => hs id .refl (harray.head hstep)
    have hreturns : table.Returns (.typeVar id) :=
      ⟨id, .refl, Relation.TransGen.head' hchained hchain⟩
    rw [hrules.ofReturning id hreturns, hrules'.ofReturning id hreturns]
  | unknown seen id hid hparam => rw [hrules.ofUnknown id hparam, hrules'.ofUnknown id hparam]
  -- the variable just met joins those that lead here in one step or more
  | upper seen id param hid hparam ih =>
    have hchained := chained?_of_get? hparam
    have hstep := followed?_of_chained? hchained
    rw [hrules.ofVariable id param hparam hs, hrules'.ofVariable id param hparam hs]
    refine ih (fun x hx => ?_) ((founded_iff_of_followed? hstep).1 hs)
    rcases List.mem_append.1 hx with hx | hx
    · obtain ⟨t, ht, hfollows⟩ := hseen x hx
      exact ⟨t, ht, hfollows.tail hstep⟩
    · obtain rfl := List.mem_singleton.1 hx
      exact ⟨param.upper, hchained, .refl⟩
  | along seen s t hvar hst ih =>
    have hstep := followed?_of_chained? hst
    rw [hrules.eq_of_chained? hvar hst, hrules'.eq_of_chained? hvar hst]
    refine ih (fun x hx => ?_) ((founded_iff_of_followed? hstep).1 hs)
    obtain ⟨u, hu, hfollows⟩ := hseen x hx
    exact ⟨u, hu, hfollows.tail hstep⟩
  | array seen component ih =>
    rw [hrules.ofArray, hrules'.ofArray, ih (fun x hx => ?_) ((founded_iff_of_followed? rfl).1 hs)]
    obtain ⟨u, hu, hfollows⟩ := hseen x hx
    exact ⟨u, hu, hfollows.tail rfl⟩
  | ends seen s hvar hend => exact hrules.eq_of_followed?_eq_none hrules' hvar hend

end ErasureRules

end TypeVarTable

/-- **Laws of erasure.**  The loop ends for a shape if and only if no variable on its way leads back
to itself through an array, and then it gives the erasure, in so many rounds and in any more.
Erasure follows the rules, and no other function does, where the loop ends. -/
theorem erasure_laws (table : TypeVarTable) :
    (∀ s, (∃ n text, table.erasureWithin n [] s = some text) ↔ table.Founded s) ∧
    (∀ s n text, table.erasureWithin n [] s = some text →
      text = table.erasure s ∧ ∀ m, n ≤ m → table.erasureWithin m [] s = some text) ∧
    table.ErasureRules table.erasure ∧
    ∀ erase, table.ErasureRules erase → ∀ s, table.Founded s → erase s = table.erasure s := by
  refine ⟨fun s => ⟨?_, fun hs => ?_⟩, fun s n text hn => ⟨?_, fun m hnm => ?_⟩,
    table.erasureRules, fun erase hrules s hs => ?_⟩
  · rintro ⟨n, text, hn⟩
    exact (TypeVarTable.exists_erasureWithin_iff.1 ⟨n, hn⟩).1
  · obtain ⟨n, hn⟩ := TypeVarTable.exists_erasureWithin_iff.2 ⟨hs, rfl⟩
    exact ⟨n, _, hn⟩
  · exact (TypeVarTable.exists_erasureWithin_iff.1 ⟨n, hn⟩).2
  · exact TypeVarTable.erasureWithin_mono hnm hn
  · exact hrules.unique table.erasureRules [] s (by simp) hs

/-- Where `T extends U[]`, `U extends V` and `V extends U`, the chain that returns lies behind the
array and passes through none, so the loop ends. -/
example : (⟨[⟨"T", .array (.typeVar ⟨1⟩), none⟩, ⟨"U", .typeVar ⟨2⟩, none⟩,
    ⟨"V", .typeVar ⟨1⟩, none⟩]⟩ : TypeVarTable).erasureWithin 5 [] (.typeVar ⟨0⟩) =
      some "java.lang.Object[]" := by decide

end FunctionAdapters
