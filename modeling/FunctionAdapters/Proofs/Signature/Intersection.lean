import FunctionAdapters.Proofs.Erasure
import FunctionAdapters.Proofs.Signature.History

/-!
# How intersections are written

An intersection is a declared type under the name of its leading class (`Shape.leadingName`).  In the
bound of a variable it is written as its components, anywhere else by this name.  Both ways of
writing agree with what an intersection is only in part:

* `intersection_bound_iff` — a bound lists all components, unless there is only one: that is no
  intersection to the writer, and it is cut down to its name (`single_component_cut`);
* `intersection_usage_iff` — elsewhere an intersection is written as its erasure if its first
  component is a class.  The leading class is the first that there is among the components, and the
  erasure is that of the first component whatever it is (`leading_class_not_erasure`).
-/

namespace FunctionAdapters

/-! ## Erasure as a type -/

/-- What is left of a type when it is erased. -/
inductive ErasedType where
  | ofClass (name : ClassName)
  | primitive (type : Primitive)
  | void
  | array (component : ErasedType)
  deriving DecidableEq, Repr

namespace ErasedType

def text (write : ClassName → String) : ErasedType → String
  | ofClass name => write name
  | primitive p => p.keyword
  | void => "void"
  | array component => component.text write ++ "[]"

/-- The text in generated source, where classes of the language package are written without it. -/
def sourceText (e : ErasedType) : String := e.text ClassName.sourceName

end ErasedType

namespace TypeVarTable

/-- What is left of a shape that was reached through the variables in `seen`. -/
def erasedFrom (table : TypeVarTable) (seen : List TypeVarId) (s : Shape) : ErasedType :=
  match s with
  | .typeVar id =>
    if id ∈ seen then .ofClass .object
    else
      match _hp : table.get? id with
      | some param => table.erasedFrom (seen ++ [id]) param.upper
      | none => .ofClass .object
  | .declared _ [] (first :: _ :: _) => table.erasedFrom seen first
  | .declared name _ _ => .ofClass name
  | .array component => .array (table.erasedFrom seen component)
  | .primitive p => .primitive p
  | .void => .void
  | .wildcardExtends bound => table.erasedFrom seen bound
  | .wildcard | .wildcardSuper _ | .top => .ofClass .object
termination_by s.size + table.weight seen
decreasing_by
  · next hs =>
    have := table.weight_found hs _hp
    simp only [TypeParam.allBounds, Shape.sizes_append, Shape.sizes] at this
    simp only [Shape.size]; omega
  all_goals simp only [Shape.size, Shape.sizes]; omega

def erased (table : TypeVarTable) (s : Shape) : ErasedType := table.erasedFrom [] s

theorem erasureFrom_eq_text (table : TypeVarTable) (seen : List TypeVarId) (s : Shape) :
    table.erasureFrom seen s = (table.erasedFrom seen s).text ClassName.qualified := by
  fun_induction table.erasedFrom seen s with
  | case1 seen id hid => exact erasureFrom_of_mem hid
  | case2 seen id hid param hparam ih => rw [erasureFrom_of_get? hid hparam, ih]
  | case3 seen id hid hparam => exact erasureFrom_of_get?_eq_none hparam
  | case4 seen name first second more ih => rw [erasureFrom, ih]
  | case5 seen name args bounds hshape =>
    rcases intersection_or_class table name args bounds with
      ⟨first, second, more, hargs, hbounds, -⟩ | ⟨hclass, -⟩
    · exact absurd hbounds fun hbounds => hshape first second more hargs hbounds
    · exact erasureFrom_class name hclass
  | case6 seen component ih => rw [erasureFrom, ih]; rfl
  | case9 seen bound ih => rw [erasureFrom, ih]
  | case7 | case8 | case10 | case11 | case12 => rw [erasureFrom]; rfl

/-- **Erasure as a type.**  The erasure of a shape is the text of its erased type. -/
theorem erasure_eq_text (table : TypeVarTable) (s : Shape) :
    table.erasure s = (table.erased s).text ClassName.qualified := erasureFrom_eq_text table [] s

theorem erased_class (table : TypeVarTable) (name : ClassName) {args bounds : List Shape}
    (h : Shape.standsForBounds args bounds = false) :
    table.erased (.declared name args bounds) = .ofClass name := by
  rw [erased, erasedFrom]
  rintro first second more rfl rfl
  cases h

theorem erased_intersection (table : TypeVarTable) (name : ClassName) (first second : Shape)
    (more : List Shape) :
    table.erased (.declared name [] (first :: second :: more)) = table.erased first := by
  rw [erased, erasedFrom, erased]

end TypeVarTable

/-! ## The leading class -/

namespace Shape

variable {v : Vocabulary} {bounds : List Shape}

/-- The name of an intersection: that of the first class among its components. -/
def leadingName (bounds : List Shape) : ClassName := (bounds.findSome? className?).getD .object

theorem leadingName_cons_of_className? {first : Shape} {name : ClassName} {more : List Shape}
    (h : first.className? = some name) : leadingName (first :: more) = name := by
  rw [leadingName, List.findSome?_cons_of_isSome (by rw [h]; rfl), h]
  rfl

theorem usages_eq_ok_iff {position : Position} {shapes : List Shape} {texts : List String} :
    usages v position shapes = .ok texts ↔
      List.Forall₂ (fun s text => s.usage v position = .ok text) shapes texts := by
  induction shapes generalizing texts with
  | nil =>
    rw [usages, Except.ok.injEq, List.forall₂_nil_left_iff]
    exact eq_comm
  | cons s rest ih =>
    rw [usages, Except.bind_eq_ok, List.forall₂_cons_left_iff]
    constructor
    · rintro ⟨text, htext, h⟩
      obtain ⟨others, hothers, h⟩ := Except.bind_eq_ok.1 h
      exact ⟨text, others, htext, ih.1 hothers, (Except.ok.inj h).symm⟩
    · rintro ⟨text, others, htext, hothers, rfl⟩
      exact ⟨text, htext, Except.bind_eq_ok.2 ⟨others, ih.2 hothers, rfl⟩⟩

/-- Outside a bound an intersection is written by the name of its leading class. -/
theorem usage_intersection {position : Position} (h : position ≠ .bound) (bounds : List Shape) :
    (intersection bounds).usage v position = .ok (leadingName bounds).sourceName := by
  rw [intersection, usage, if_neg fun hb => h hb.1]
  exact congrArg Except.ok (String.append_empty (s := (leadingName bounds).sourceName))

theorem usage_bound_of_single (h : ¬ 1 < bounds.length) :
    (intersection bounds).usage v .bound = .ok (leadingName bounds).sourceName := by
  rw [intersection, usage, if_neg fun hb => h (of_decide_eq_true hb.2)]
  exact congrArg Except.ok (String.append_empty (s := (leadingName bounds).sourceName))

theorem usage_bound_intersection (h : 1 < bounds.length) {texts : List String}
    (htexts : List.Forall₂ (fun s text => s.usage v .nested = .ok text) bounds texts) :
    (intersection bounds).usage v .bound = .ok (" & ".intercalate texts) := by
  rw [intersection, usage, if_pos ⟨rfl, decide_eq_true h⟩, usages_eq_ok_iff.2 htexts]
  rfl

theorem usage_class_eq_sourceName_iff {name : ClassName} {args inner : List Shape} {text : String}
    (h : (Shape.declared name args inner).usage v .nested = .ok text) :
    text = name.sourceName ↔ args = [] := by
  rw [usage, if_neg fun hb => Position.noConfusion hb.1] at h
  obtain ⟨texts, htexts, h⟩ := Except.bind_eq_ok.1 h
  obtain rfl := Except.ok.inj h
  rw [String.append_eq_left_iff]
  have hlength := (usages_eq_ok_iff.1 htexts).length_eq
  cases args with
  | nil =>
    obtain rfl := List.eq_nil_of_length_eq_zero hlength.symm
    exact iff_of_true rfl rfl
  | cons arg args =>
    cases texts with
    | nil => cases hlength
    | cons text texts => simp [angled]

/-- A shape that begins with a class: a class, or an intersection whose first component does. -/
inductive HeadedByClass : Shape → Prop where
  | ofClass {name : ClassName} {args bounds : List Shape}
      (h : standsForBounds args bounds = false) : HeadedByClass (.declared name args bounds)
  | ofIntersection {first : Shape} {more : List Shape} (h : HeadedByClass first) :
      HeadedByClass (intersection (first :: more))

/-- Erasing a shape that begins with a class leaves that class, and the shape bears its name. -/
theorem HeadedByClass.exists_name (table : TypeVarTable) {s : Shape} (h : s.HeadedByClass) :
    ∃ name, s.className? = some name ∧ table.erased s = .ofClass name := by
  induction h with
  | @ofClass name args bounds h => exact ⟨name, rfl, table.erased_class name h⟩
  | @ofIntersection first more h ih =>
    obtain ⟨name, hname, herased⟩ := ih
    have hlead : leadingName (first :: more) = name := leadingName_cons_of_className? hname
    refine ⟨name, congrArg some hlead, ?_⟩
    cases more with
    | nil => rw [← hlead]; exact table.erased_class _ rfl
    | cons second more => rw [← herased]; exact table.erased_intersection _ first second more

end Shape

/-! ## In the bound of a variable -/

namespace Renderer

variable {table : TypeVarTable} {names : TypeVarNames} {id : TypeVarId} {param : TypeParam}
  {bounds : List Shape} {texts : List String}

theorem declare_of_upper {text : String} (hparam : table.get? id = some param)
    (hupper : param.upper.isTop = false)
    (htext : param.upper.usage ⟨table, names⟩ .bound = .ok text) :
    ((start table names).declare id).1 =
      .ok ((start table names).write id param ++ " extends " ++ text) := by
  have hclause : param.boundClause ⟨table, names⟩ = .ok (" extends " ++ text) := by
    rw [TypeParam.boundClause, hupper, htext]
    rfl
  rw [declare_of_new hparam List.not_mem_nil]
  show (param.boundClause ⟨table, names⟩).map _ = _
  rw [hclause, String.append_assoc]
  rfl

end Renderer

/-- **Intersections as bounds.**  The bound of a variable lists all components of an intersection, in
order, if and only if there are several, or the only one is written by its bare name.  An only
component is cut down to this name: a class without arguments remains, one with arguments loses
them. -/
theorem intersection_bound_iff {table : TypeVarTable} {names : TypeVarNames} {id : TypeVarId}
    {param : TypeParam} {bounds : List Shape} {texts : List String}
    (hparam : table.get? id = some param) (hupper : param.upper = .intersection bounds)
    (htexts : List.Forall₂ (fun s text => s.usage ⟨table, names⟩ .nested = .ok text) bounds texts) :
    (((Renderer.start table names).declare id).1 =
        .ok ((Renderer.start table names).write id param ++ " extends " ++
          " & ".intercalate texts) ↔
      1 < bounds.length ∨ texts = [(Shape.leadingName bounds).sourceName]) ∧
    (bounds.length ≤ 1 → ((Renderer.start table names).declare id).1 =
      .ok ((Renderer.start table names).write id param ++ " extends " ++
        (Shape.leadingName bounds).sourceName)) ∧
    ∀ name args inner, bounds = [.declared name args inner] →
      (texts = [(Shape.leadingName bounds).sourceName] ↔ args = []) := by
  have hdeclare : ∀ text, (Shape.intersection bounds).usage ⟨table, names⟩ .bound = .ok text →
      ((Renderer.start table names).declare id).1 =
        .ok ((Renderer.start table names).write id param ++ " extends " ++ text) :=
    fun text htext =>
      Renderer.declare_of_upper hparam (by rw [hupper]; rfl) (by rw [hupper]; exact htext)
  refine ⟨?_, fun hsingle => hdeclare _ (Shape.usage_bound_of_single (by omega)), ?_⟩
  · -- one component or none is written by the leading name
    by_cases hseveral : 1 < bounds.length
    · exact iff_of_true (hdeclare _ (Shape.usage_bound_intersection hseveral htexts)) (.inl hseveral)
    · rw [hdeclare _ (Shape.usage_bound_of_single hseveral), Except.ok.injEq,
        String.append_right_inj, or_iff_right hseveral]
      cases htexts with
      | nil => exact iff_of_false (by decide) (by simp)
      | cons _ hrest =>
        cases hrest with
        | nil => rw [String.intercalate_singleton, List.singleton_inj, eq_comm]
        | cons => simp at hseveral
  · rintro name args inner rfl
    cases htexts with
    | cons htext hrest =>
      cases hrest
      rw [List.singleton_inj, Shape.leadingName_cons_of_className? rfl]
      exact Shape.usage_class_eq_sourceName_iff htext

/-- A variable `T`, called `M0`, that extends an intersection. -/
def boundedBy (bounds : List Shape) : Vocabulary where
  table := ⟨[⟨"T", .intersection bounds, none⟩]⟩
  names := ⟨[(⟨0⟩, ⟨"M0", .ofOperation⟩)]⟩

def comparableToVariable : Shape := .ofClass ⟨"java.lang", "Comparable"⟩ [.typeVar ⟨0⟩]

/-- Both components of `Number & Comparable<T>` are listed. -/
theorem number_and_comparable_listed :
    let v := boundedBy [.ofClass ⟨"java.lang", "Number"⟩ [], comparableToVariable]
    ((Renderer.start v.table v.names).declare ⟨0⟩).1 =
      .ok "M0 extends Number & Comparable<M0>" := by
  intro v
  have htexts : List.Forall₂ (fun s text => s.usage ⟨v.table, v.names⟩ .nested = .ok text)
      [.ofClass ⟨"java.lang", "Number"⟩ [], comparableToVariable] ["Number", "Comparable<M0>"] :=
    .cons rfl (.cons rfl .nil)
  have hparam : v.table.get? ⟨0⟩ = some ⟨"T", .intersection _, none⟩ := rfl
  exact (intersection_bound_iff hparam rfl htexts).1.2 (.inl (by decide))

/-- **An only component is cut down.**  Of the bound `Comparable<T>`, as an intersection of one, the
argument is lost. -/
theorem single_component_cut :
    let v := boundedBy [comparableToVariable]
    comparableToVariable.usage v .nested = .ok "Comparable<M0>" ∧
      ((Renderer.start v.table v.names).declare ⟨0⟩).1 = .ok "M0 extends Comparable" := by
  intro v
  exact ⟨rfl, rfl⟩

/-! ## Elsewhere -/

/-- **Intersections elsewhere.**  Outside a bound an intersection is written by the name of its
leading class.  This is its erasure, if and only if it has one component, or the first component
erases to something that is written alike; so it is, if the first component begins with a class. -/
theorem intersection_usage_iff (table : TypeVarTable) (names : TypeVarNames)
    (bounds : List Shape) :
    (Renderer.start table names).usage (.intersection bounds) =
        .ok (Shape.leadingName bounds).sourceName ∧
      table.erasure (.intersection bounds) =
        (table.erased (.intersection bounds)).text ClassName.qualified ∧
      ((Renderer.start table names).usage (.intersection bounds) =
          .ok (table.erased (.intersection bounds)).sourceText ↔
        bounds.length = 1 ∨ ∀ first ∈ bounds.head?,
          (table.erased first).sourceText = (Shape.leadingName bounds).sourceName) ∧
      ∀ first ∈ bounds.head?, first.HeadedByClass →
        (Renderer.start table names).usage (.intersection bounds) =
          .ok (table.erased (.intersection bounds)).sourceText := by
  have husage : (Renderer.start table names).usage (.intersection bounds) =
      .ok (Shape.leadingName bounds).sourceName :=
    Shape.usage_intersection (fun h => Position.noConfusion h) bounds
  refine ⟨husage, table.erasure_eq_text _, ?_, fun first hfirst hheaded => ?_⟩
  · rw [husage, Except.ok.injEq]
    -- several components erase like the first; one or none like the class that leads
    by_cases hseveral : 1 < bounds.length
    · obtain _ | ⟨first, _ | ⟨second, more⟩⟩ := bounds
      · cases hseveral
      · simp at hseveral
      · have hfirst : table.erased (.intersection (first :: second :: more)) = table.erased first :=
          table.erased_intersection _ first second more
        rw [hfirst, eq_comm]
        simp
    · have hclass : Shape.standsForBounds [] bounds = false := decide_eq_false hseveral
      have hone : (table.erased (.intersection bounds)).sourceText =
          (Shape.leadingName bounds).sourceName :=
        congrArg ErasedType.sourceText (table.erased_class (Shape.leadingName bounds) hclass)
      refine iff_of_true hone.symm ?_
      cases bounds with
      | nil => exact .inr (by simp)
      | cons first more => exact .inl (by simp at hseveral; simp [hseveral])
  · obtain ⟨more, rfl⟩ := List.head?_eq_some_iff.1 hfirst
    have hwhole : (Shape.intersection (first :: more)).HeadedByClass := .ofIntersection hheaded
    obtain ⟨name, hname, herased⟩ := hwhole.exists_name table
    obtain rfl : Shape.leadingName (first :: more) = name := Option.some.inj hname
    rw [husage, herased]
    rfl

/-- **The leading class is not the erasure.**  Of the components `T` and `Comparable<T>`, where `T`
extends `Number`, the second is the first class, and the erasure is that of the first. -/
theorem leading_class_not_erasure :
    let table : TypeVarTable := ⟨[⟨"T", .ofClass ⟨"java.lang", "Number"⟩ [], none⟩]⟩
    let s := Shape.intersection [.typeVar ⟨0⟩, comparableToVariable]
    table.erasure s = "java.lang.Number" ∧ (table.erased s).sourceText = "Number" ∧
      (Renderer.start table {}).usage s = .ok "Comparable" := by
  intro table s
  refine ⟨by with_unfolding_all rfl, by with_unfolding_all rfl, rfl⟩

end FunctionAdapters
