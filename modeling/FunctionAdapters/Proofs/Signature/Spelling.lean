import FunctionAdapters.Proofs.Signature.Placement

/-!
# Texts can be read back

A text shows the names of classes and variables, but not which is which: a primitive is written by
the name of a class, an intersection by that of one component.  `Shape.term` is what a text shows of a
shape: names with arguments, arrays and wildcards, nested as they are written.

Where no name contains a character that is written between names, a text shows this without
ambiguity (`texts_unambiguous`).  Terms are compared from the left, with what follows each of them
in a longer text (`eq_of_spelled`).  Only the brackets of an array come after what they belong to, so
that they are counted along on the way into a term.
-/

namespace FunctionAdapters

/-- The characters that are written between names. -/
def punctuation : List Char := ['<', '>', ',', '[', ']', '?', '&', ' ']

/-- A name without punctuation. -/
def Plain (name : String) : Prop := ∀ c ∈ name.toList, c ∉ punctuation

instance : DecidablePred Plain := fun name =>
  decidable_of_iff (name.toList.all fun c => !punctuation.contains c) (by simp [Plain])

/-- Which side of a wildcard is bounded. -/
inductive Side where
  | upper
  | lower
  deriving Repr

def Side.words : Side → List Char
  | upper => ['?', ' ', 'e', 'x', 't', 'e', 'n', 'd', 's', ' ']
  | lower => ['?', ' ', 's', 'u', 'p', 'e', 'r', ' ']

/-- What a type text shows. -/
inductive TypeTerm where
  | named (name : String) (args : List TypeTerm)
  | array (component : TypeTerm)
  | wildcard
  | bounded (side : Side) (bound : TypeTerm)
  deriving Repr

namespace TypeTerm

def isWildcard : TypeTerm → Bool
  | wildcard | bounded .. => true
  | named .. | array _ => false

def isArray : TypeTerm → Bool
  | array _ => true
  | _ => false

mutual
def spelled : TypeTerm → List Char
  | named name args => name.toList ++ spelledArgs args
  | array component => component.spelled ++ ['[', ']']
  | wildcard => ['?']
  | bounded side bound => side.words ++ bound.spelled
def spelledArgs : List TypeTerm → List Char
  | [] => []
  | first :: rest => '<' :: (first.spelled ++ spelledRest rest)
/-- The arguments after the first one, and the end of the list. -/
def spelledRest : List TypeTerm → List Char
  | [] => ['>']
  | next :: rest => ',' :: ' ' :: (next.spelled ++ spelledRest rest)
end

mutual
/-- A term with plain names in which no array is one of wildcards. -/
def Proper : TypeTerm → Prop
  | named name args => Plain name ∧ ProperAll args
  | array component => component.Proper ∧ component.isWildcard = false
  | wildcard => True
  | bounded _ bound => bound.Proper
def ProperAll : List TypeTerm → Prop
  | [] => True
  | t :: rest => t.Proper ∧ ProperAll rest
end

/-! ## Brackets -/

def brackets : Nat → List Char
  | 0 => []
  | n + 1 => '[' :: ']' :: brackets n

def arrays : Nat → TypeTerm → TypeTerm
  | 0, t => t
  | n + 1, t => arrays n (array t)

theorem arrays_array (n : Nat) (t : TypeTerm) : arrays n (array t) = array (arrays n t) := by
  induction n generalizing t with
  | zero => rfl
  | succ n ih => exact ih (array t)

theorem spelled_arrays (n : Nat) (t : TypeTerm) :
    (arrays n t).spelled = t.spelled ++ brackets n := by
  induction n generalizing t with
  | zero => exact (List.append_nil _).symm
  | succ n ih =>
    rw [arrays, ih, spelled, List.append_assoc]
    rfl

/-- Every term is an array of something that is none, with no dimension if it is no array. -/
theorem exists_arrays (t : TypeTerm) : ∃ n core, t = arrays n core ∧ core.isArray = false := by
  cases t with
  | array component =>
    obtain ⟨n, core, hcomponent, hcore⟩ := exists_arrays component
    refine ⟨n + 1, core, ?_, hcore⟩
    rw [hcomponent, arrays, arrays_array]
  | named | wildcard | bounded => exact ⟨0, _, rfl, rfl⟩

theorem proper_of_arrays {n : Nat} {t : TypeTerm} (h : (arrays n t).Proper) : t.Proper := by
  induction n generalizing t with
  | zero => exact h
  | succ n ih => exact (ih h).1

theorem eq_zero_of_wildcards {n : Nat} {t : TypeTerm} (h : (arrays n t).Proper)
    (ht : t.isWildcard = true) : n = 0 := by
  cases n with
  | zero => rfl
  | succ n =>
    have hno : t.isWildcard = false := (proper_of_arrays (n := n) h).2
    rw [ht] at hno
    cases hno

/-! ## What follows a term -/

/-- What can follow a term: nothing, or what comes after a type argument. -/
def Ends (k : List Char) : Prop := ∀ c ∈ k.head?, c = ',' ∨ c = '>'

theorem ends_nil : Ends [] := by simp [Ends]

theorem ends_spelledRest (rest : List TypeTerm) (k : List Char) : Ends (spelledRest rest ++ k) := by
  cases rest <;> simp [Ends, spelledRest]

theorem not_ends_cons {c : Char} {k : List Char} (h : c ≠ ',' ∧ c ≠ '>') : ¬ Ends (c :: k) := by
  simp [Ends, h]

/-- Brackets, or what follows without them, show how many there are. -/
theorem brackets_inj {m n : Nat} {k l : List Char} (hk : Ends k) (hl : Ends l)
    (h : brackets m ++ k = brackets n ++ l) : m = n ∧ k = l := by
  induction m generalizing n with
  | zero =>
    cases n with
    | zero => exact ⟨rfl, h⟩
    | succ n =>
      obtain rfl : k = _ := h
      exact absurd hk (not_ends_cons (by decide))
  | succ m ih =>
    cases n with
    | zero =>
      obtain rfl : _ = l := h
      exact absurd hl (not_ends_cons (by decide))
    | succ n =>
      obtain ⟨rfl, hrest⟩ := ih (List.cons.inj (List.cons.inj h).2).2
      exact ⟨rfl, hrest⟩

/-- What follows a name begins with punctuation that is not a question mark. -/
def Stops (k : List Char) : Prop := ∀ c ∈ k.head?, c ∈ punctuation ∧ c ≠ '?'

theorem stops_after_name (args : List TypeTerm) (n : Nat) {k : List Char} (hk : Ends k) :
    Stops (spelledArgs args ++ (brackets n ++ k)) := by
  cases args with
  | cons first rest => simp [Stops, spelledArgs, punctuation]
  | nil =>
    cases n with
    | succ n => simp [Stops, spelledArgs, brackets, punctuation]
    | zero =>
      intro c hc
      rcases hk c hc with rfl | rfl <;> decide

/-- A name ends where punctuation begins. -/
theorem append_inj_of_plain {xs ys k l : List Char} (hx : ∀ c ∈ xs, c ∉ punctuation)
    (hy : ∀ c ∈ ys, c ∉ punctuation) (hk : Stops k) (hl : Stops l) (h : xs ++ k = ys ++ l) :
    xs = ys ∧ k = l := by
  induction xs generalizing ys with
  | nil =>
    cases ys with
    | nil => exact ⟨rfl, h⟩
    | cons c ys =>
      -- the rest begins with punctuation, and the name does not contain any
      obtain rfl : k = _ := h
      exact absurd (hk c rfl).1 (hy c List.mem_cons_self)
  | cons c xs ih =>
    cases ys with
    | nil =>
      obtain rfl : _ = l := h
      exact absurd (hl c rfl).1 (hx c List.mem_cons_self)
    | cons d ys =>
      obtain ⟨rfl, htail⟩ := List.cons.inj h
      obtain ⟨rfl, hrest⟩ := ih (fun c hc => hx c (List.mem_cons_of_mem _ hc))
        (fun c hc => hy c (List.mem_cons_of_mem _ hc)) htail
      exact ⟨rfl, hrest⟩

theorem question_not_first {a : String} {k l : List Char} (ha : Plain a) (hk : Stops k) :
    a.toList ++ k ≠ '?' :: l := by
  intro h
  cases hlist : a.toList with
  | nil =>
    rw [hlist, List.nil_append] at h
    exact (hk '?' (by rw [h]; rfl)).2 rfl
  | cons c rest =>
    rw [hlist] at h
    obtain rfl := (List.cons.inj h).1
    exact ha '?' (by rw [hlist]; exact List.mem_cons_self) (by decide)

theorem angle_not_first {n : Nat} {k l : List Char} (hk : Ends k) : brackets n ++ k ≠ '<' :: l := by
  cases n with
  | zero =>
    rintro rfl
    exact not_ends_cons (by decide) hk
  | succ n => simp [brackets]

theorem isWildcard_of_question {t : TypeTerm} {k l : List Char} (ht : t.Proper) (hk : Ends k)
    (h : t.spelled ++ k = '?' :: l) : t.isWildcard = true := by
  obtain ⟨n, core, rfl, hcore⟩ := exists_arrays t
  cases core with
  | array component => cases hcore
  | named name args =>
    obtain ⟨hname, -⟩ : Plain name ∧ ProperAll args := proper_of_arrays ht
    rw [spelled_arrays, spelled, List.append_assoc, List.append_assoc] at h
    exact absurd h (question_not_first hname (stops_after_name args n hk))
  | wildcard | bounded =>
    obtain rfl := eq_zero_of_wildcards ht rfl
    rfl

/-! ## The words of wildcards -/

theorem words_eq_question (side : Side) : ∃ tail, side.words = '?' :: tail := by
  cases side <;> exact ⟨_, rfl⟩

theorem words_append_inj {side otherSide : Side} {k l : List Char}
    (h : side.words ++ k = otherSide.words ++ l) : side = otherSide ∧ k = l := by
  cases side with
  | upper =>
    cases otherSide with
    | upper => exact ⟨rfl, List.append_cancel_left h⟩
    | lower => simp [Side.words] at h
  | lower =>
    cases otherSide with
    | upper => simp [Side.words] at h
    | lower => exact ⟨rfl, List.append_cancel_left h⟩

/-- Where a wildcard has no bound, no words go on after the question mark. -/
theorem not_ends_of_words {side : Side} {bound : TypeTerm} {k l : List Char}
    (h : wildcard.spelled ++ (brackets 0 ++ k) = (bounded side bound).spelled ++ l) : ¬ Ends k := by
  cases side <;>
  · obtain rfl : k = _ := (List.cons.inj h).2
    exact not_ends_cons (by decide)

/-! ## Reading a term back -/

mutual
/-- **Reading back.**  Where a term with some dimensions ends in a text, another one ends as well,
and the two are the same. -/
theorem eq_of_spelled (x : TypeTerm) {y : TypeTerm} {m : Nat} {k l : List Char}
    (hx : (arrays m x).Proper) (hy : y.Proper) (hk : Ends k) (hl : Ends l)
    (h : x.spelled ++ (brackets m ++ k) = y.spelled ++ l) : arrays m x = y ∧ k = l := by
  cases x with
  | array component =>
    rw [spelled, List.append_assoc] at h
    -- Its brackets join those that are counted already.
    exact eq_of_spelled component (m := m + 1) hx hy hk hl h
  | named a xs =>
    obtain ⟨ha, hxs⟩ : Plain a ∧ ProperAll xs := proper_of_arrays hx
    -- the other term is taken apart into its brackets and what stands in front of them
    obtain ⟨n, core, rfl, hcore⟩ := exists_arrays y
    rw [spelled, List.append_assoc, spelled_arrays, List.append_assoc] at h
    cases core with
    | array d => cases hcore
    | named b ys =>
      obtain ⟨hb, hys⟩ : Plain b ∧ ProperAll ys := proper_of_arrays hy
      rw [spelled, List.append_assoc] at h
      -- the names end where punctuation begins, the arguments where they are closed
      obtain ⟨hname, hargs⟩ := append_inj_of_plain ha hb (stops_after_name xs m hk)
        (stops_after_name ys n hl) h
      obtain ⟨rfl, hbrackets⟩ := eq_of_spelledArgs xs hxs hys hk hl hargs
      obtain ⟨rfl, hrest⟩ := brackets_inj hk hl hbrackets
      rw [String.toList_inj.1 hname]
      exact ⟨rfl, hrest⟩
    | wildcard =>
      rw [spelled] at h
      exact absurd h (question_not_first ha (stops_after_name xs m hk))
    | bounded side other =>
      obtain ⟨tail, hwords⟩ := words_eq_question side
      rw [spelled, hwords] at h
      exact absurd h (question_not_first ha (stops_after_name xs m hk))
  -- a wildcard takes no brackets, and another term that begins with its mark is one too
  | wildcard =>
    obtain rfl := eq_zero_of_wildcards hx rfl
    have hy' := isWildcard_of_question hy hl h.symm
    cases y with
    | named | array => cases hy'
    | wildcard => exact ⟨rfl, (List.cons.inj h).2⟩
    | bounded side other =>
      -- words after the mark would have to follow a whole term
      exact absurd hk (not_ends_of_words h)
  | bounded side bound =>
    obtain rfl := eq_zero_of_wildcards hx rfl
    obtain ⟨tail, hwords⟩ := words_eq_question side
    have hy' : y.isWildcard = true := by
      rw [spelled, hwords] at h
      exact isWildcard_of_question hy hl h.symm
    cases y with
    | named | array => cases hy'
    | wildcard => exact absurd hl (not_ends_of_words h.symm)
    | bounded otherSide other =>
      rw [spelled, spelled, List.append_assoc, List.append_assoc] at h
      -- the same side, so the bounds are spelled alike, and they end together
      obtain ⟨rfl, hbounds⟩ := words_append_inj h
      obtain ⟨hbound, hrest⟩ := eq_of_spelled bound (m := 0) hx
        (show other.Proper from hy) hk hl hbounds
      obtain rfl : bound = other := hbound
      exact ⟨rfl, hrest⟩
theorem eq_of_spelledArgs (xs : List TypeTerm) {ys : List TypeTerm} {m n : Nat} {k l : List Char}
    (hx : ProperAll xs) (hy : ProperAll ys) (hk : Ends k) (hl : Ends l)
    (h : spelledArgs xs ++ (brackets m ++ k) = spelledArgs ys ++ (brackets n ++ l)) :
    xs = ys ∧ brackets m ++ k = brackets n ++ l := by
  cases xs with
  | nil =>
    cases ys with
    | nil => exact ⟨rfl, h⟩
    | cons u us => exact absurd h (angle_not_first hk)
  | cons t ts =>
    cases ys with
    | nil => exact absurd h.symm (angle_not_first hl)
    | cons u us =>
      rw [spelledArgs, spelledArgs, List.cons_append, List.cons_append, List.append_assoc,
        List.append_assoc] at h
      obtain ⟨hfirst, hrest⟩ := eq_of_spelled t (m := 0) hx.1 hy.1 (ends_spelledRest ts _)
        (ends_spelledRest us _) (List.cons.inj h).2
      obtain ⟨rfl, hafter⟩ := eq_of_spelledRest ts hx.2 hy.2 hrest
      obtain rfl : t = u := hfirst
      exact ⟨rfl, hafter⟩
theorem eq_of_spelledRest (xs : List TypeTerm) {ys : List TypeTerm} {k l : List Char}
    (hx : ProperAll xs) (hy : ProperAll ys) (h : spelledRest xs ++ k = spelledRest ys ++ l) :
    xs = ys ∧ k = l := by
  cases xs with
  | nil =>
    cases ys with
    | nil => exact ⟨rfl, (List.cons.inj h).2⟩
    | cons u us => simp [spelledRest] at h
  | cons t ts =>
    cases ys with
    | nil => simp [spelledRest] at h
    | cons u us =>
      rw [spelledRest, spelledRest, List.cons_append, List.cons_append, List.cons_append,
        List.cons_append, List.append_assoc, List.append_assoc] at h
      obtain ⟨hnext, hrest⟩ := eq_of_spelled t (m := 0) hx.1 hy.1 (ends_spelledRest ts k)
        (ends_spelledRest us l) (List.cons.inj (List.cons.inj h).2).2
      obtain ⟨rfl, hafter⟩ := eq_of_spelledRest ts hx.2 hy.2 hrest
      obtain rfl : t = u := hnext
      exact ⟨rfl, hafter⟩
end

/-! ## Argument lists -/

theorem intercalate_spelled (first : TypeTerm) (rest : List TypeTerm) :
    [',', ' '].intercalate ((first :: rest).map spelled) ++ ['>'] =
      first.spelled ++ spelledRest rest := by
  induction rest generalizing first with
  | nil => simp [spelledRest]
  | cons next rest ih =>
    rw [List.map_cons, List.map_cons, List.intercalate_cons_cons, List.append_assoc,
      ← List.map_cons, ih, spelledRest]
    simp

theorem toList_angled {texts : List String} {ts : List TypeTerm}
    (h : texts.map String.toList = ts.map spelled) :
    (angled ", " texts).toList = spelledArgs ts := by
  cases ts with
  | nil =>
    obtain rfl := List.map_eq_nil_iff.1 h
    rfl
  | cons first rest =>
    have hne : texts.isEmpty = false := by
      cases texts with
      | nil => cases h
      | cons => rfl
    have hseparator : ", ".toList = [',', ' '] := by decide
    unfold angled
    rw [hne, if_neg Bool.false_ne_true, String.toList_append, String.toList_append,
      String.toList_intercalate, h, hseparator, List.append_assoc]
    exact congrArg ('<' :: ·) (intercalate_spelled first rest)

end TypeTerm

namespace Shape

variable (v : Vocabulary)

mutual
/-- What the text of a shape shows.  A keyword is shown like a name.  The root bound, which has no
text, goes by its class. -/
def term (position : Position) : Shape → TypeTerm
  | .primitive p => .named (if position = .component then p.keyword else p.boxed.sourceName) []
  | .declared name args _ => .named name.sourceName (terms .argument args)
  | .array component => .array (component.term .component)
  | .wildcard => .wildcard
  | .wildcardExtends bound => .bounded .upper (bound.term .nested)
  | .wildcardSuper bound => .bounded .lower (bound.term .nested)
  | .typeVar id => .named (v.called id) []
  | .void => .named "void" []
  | .top => .named ClassName.object.sourceName []
def terms (position : Position) : List Shape → List TypeTerm
  | [] => []
  | s :: rest => s.term position :: terms position rest
end

variable {v}

mutual
/-- The text of a shape is the text of its term.  Only a bound may be written as its components
instead. -/
theorem toList_of_usage {position : Position} (hp : position ≠ .bound) (s : Shape) {text : String}
    (h : s.usage v position = .ok text) : text.toList = (s.term v position).spelled := by
  unfold usage at h
  cases s with
  | primitive p =>
    obtain rfl := Except.ok.inj h
    exact (List.append_nil _).symm
  | declared name args bounds =>
    have hbound : ¬ (position = .bound ∧ standsForBounds args bounds = true) := fun hb => hp hb.1
    simp only [if_neg hbound] at h
    obtain ⟨texts, htexts, hfinal⟩ := Except.bind_eq_ok.1 h
    obtain rfl := Except.ok.inj hfinal
    rw [String.toList_append,
      TypeTerm.toList_angled (toLists_of_usages (by decide) args htexts)]
    rfl
  | array component =>
    obtain ⟨inner, hinner, hfinal⟩ := Except.bind_eq_ok.1 h
    obtain rfl := Except.ok.inj hfinal
    rw [String.toList_append, toList_of_usage (by decide) component hinner]
    rfl
  | wildcard =>
    obtain ⟨-, hfinal⟩ := Except.ite_error_eq_ok.1 h
    obtain rfl := Except.ok.inj hfinal
    rfl
  | wildcardExtends bound | wildcardSuper bound =>
    obtain ⟨-, hbind⟩ := Except.ite_error_eq_ok.1 h
    obtain ⟨inner, hinner, hfinal⟩ := Except.bind_eq_ok.1 hbind
    obtain rfl := Except.ok.inj hfinal
    rw [String.toList_append, toList_of_usage (by decide) bound hinner]
    rfl
  | typeVar id =>
    cases hparam : v.table.get? id with
    | none =>
      simp only [hparam] at h
      cases h
    | some param =>
      simp only [hparam] at h
      obtain rfl := Except.ok.inj h
      rw [term, Vocabulary.called_of_get? hparam]
      exact (List.append_nil _).symm
  | void =>
    obtain ⟨-, hfinal⟩ := Except.ite_error_eq_ok.1 h
    obtain rfl := Except.ok.inj hfinal
    rfl
  | top => cases h
theorem toLists_of_usages {position : Position} (hp : position ≠ .bound) (shapes : List Shape)
    {texts : List String} (h : usages v position shapes = .ok texts) :
    texts.map String.toList = (terms v position shapes).map TypeTerm.spelled := by
  cases shapes with
  | nil =>
    obtain rfl := Except.ok.inj h
    rfl
  | cons s rest =>
    obtain ⟨text, htext, hbind⟩ := Except.bind_eq_ok.1 h
    obtain ⟨others, hothers, hfinal⟩ := Except.bind_eq_ok.1 hbind
    obtain rfl := Except.ok.inj hfinal
    rw [List.map_cons, toList_of_usage hp s htext, toLists_of_usages hp rest hothers]
    rfl
end

/-! ## The names in a text -/

variable (v) in
/-- The name of the class or variable that a shape is written by. -/
def name? : Shape → Option String
  | .declared name _ _ => some name.sourceName
  | .typeVar id => some (v.called id)
  | _ => none

variable (v) in
/-- The names of classes and variables in the text of a whole type. -/
def namesInText (s : Shape) : List String :=
  (s.readings .whole).filterMap fun p => p.shape.name? v

/-- A part that fits its place, under a plain name if it has one. -/
def Legible (v : Vocabulary) (p : Placed) : Prop :=
  p.Fits v.table ∧ ∀ name ∈ p.shape.name? v, Plain name

theorem plain_primitive (p : Primitive) : Plain p.keyword ∧ Plain p.boxed.sourceName := by
  cases p <;> decide

theorem isWildcard_term {position : Position} (s : Shape) :
    (s.term v position).isWildcard = s.isWildcard := by
  cases s <;> rfl

theorem isWildcard_of_component {s : Shape} {table : TypeVarTable}
    (h : (⟨.component, s⟩ : Placed).Fits table) : s.isWildcard = false := by
  cases s with
  | wildcard | wildcardExtends | wildcardSuper => cases h
  | primitive | declared | array | typeVar | void | top => rfl

mutual
theorem proper_term {position : Position} (hp : position ≠ .bound) (s : Shape)
    (h : ∀ q ∈ s.readings position, Legible v q) : (s.term v position).Proper := by
  unfold readings at h
  obtain ⟨⟨hfits, hname⟩, hparts⟩ := List.forall_mem_cons.1 h
  cases s with
  | primitive p =>
    refine ⟨?_, trivial⟩
    split
    · exact (plain_primitive p).1
    · exact (plain_primitive p).2
  | declared name args bounds =>
    have hbound : ¬ (position = .bound ∧ standsForBounds args bounds = true) := fun hb => hp hb.1
    simp only [if_neg hbound] at hparts
    exact ⟨hname _ rfl, proper_terms (by decide) args hparts⟩
  | array component =>
    refine ⟨proper_term (by decide) component hparts, ?_⟩
    -- what fits the place of a component is no wildcard
    have hfirst : (⟨.component, component⟩ : Placed).Fits v.table :=
      (hparts _ (by unfold readings; exact List.mem_cons_self)).1
    rw [isWildcard_term, isWildcard_of_component hfirst]
  | wildcard => trivial
  | wildcardExtends bound | wildcardSuper bound => exact proper_term (by decide) bound hparts
  | typeVar id => exact ⟨hname _ rfl, trivial⟩
  | void => exact ⟨by decide, trivial⟩
  | top => cases hfits
theorem proper_terms {position : Position} (hp : position ≠ .bound) (shapes : List Shape)
    (h : ∀ q ∈ readingsAll position shapes, Legible v q) :
    TypeTerm.ProperAll (terms v position shapes) := by
  cases shapes with
  | nil => trivial
  | cons s rest =>
    obtain ⟨hs, hrest⟩ := List.forall_mem_append.1 h
    exact ⟨proper_term hp s hs, proper_terms hp rest hrest⟩
end

theorem legible_of_usage {s : Shape} {text : String} (h : s.usage v .whole = .ok text)
    (hnames : ∀ name ∈ s.namesInText v, Plain name) : ∀ q ∈ s.readings .whole, Legible v q := by
  have hnone : (s.usage v .whole).error? = none := Except.error?_eq_none.2 ⟨text, h⟩
  rw [error?_usage, Option.map_eq_none_iff, Placed.misfit?_eq_none_iff] at hnone
  exact fun q hq => ⟨hnone q hq, fun name hname => hnames name
    (List.mem_filterMap.2 ⟨q, hq, hname⟩)⟩

theorem text_eq_iff {s t : Shape} {a b : String} (hs : s.usage v .whole = .ok a)
    (ht : t.usage v .whole = .ok b) (hsnames : ∀ name ∈ s.namesInText v, Plain name)
    (htnames : ∀ name ∈ t.namesInText v, Plain name) :
    a = b ↔ s.term v .whole = t.term v .whole := by
  have hwhole : Position.whole ≠ .bound := by decide
  have hsa := toList_of_usage hwhole s hs
  have htb := toList_of_usage hwhole t ht
  constructor
  · rintro rfl
    -- nothing follows a whole text, which is one of the ways to end
    have hspelled : (s.term v .whole).spelled ++ (TypeTerm.brackets 0 ++ []) =
        (t.term v .whole).spelled ++ [] := by
      rw [← hsa, ← htb]
      rfl
    exact (TypeTerm.eq_of_spelled _ (m := 0) (proper_term hwhole s (legible_of_usage hs hsnames))
      (proper_term hwhole t (legible_of_usage ht htnames)) TypeTerm.ends_nil TypeTerm.ends_nil
      hspelled).1
  · intro hterm
    rw [← String.toList_inj, hsa, htb, hterm]

theorem eq_void_of_term {s : Shape} (hnames : "void" ∉ s.namesInText v)
    (h : s.term v .whole = void.term v .whole) : s = .void := by
  have hname : s.name? v ≠ some "void" := fun hname => hnames
    (List.mem_filterMap.2 ⟨⟨.whole, s⟩, Placed.mem_readings.2 .refl, hname⟩)
  cases s with
  | void => rfl
  | primitive p => cases p <;> exact absurd (TypeTerm.named.inj h).1 (by decide)
  | declared name args bounds =>
    exact absurd (congrArg some (TypeTerm.named.inj h).1) hname
  | typeVar id => exact absurd (congrArg some (TypeTerm.named.inj h).1) hname
  | top => exact absurd (TypeTerm.named.inj h).1 (by decide)
  | array | wildcard | wildcardExtends | wildcardSuper => cases h

end Shape

/-- **Texts can be read back.**  Two texts with plain names are equal only if they show the same
terms: the same names with the same arguments, arrays and wildcards in the same places.  The keyword
`void` is a name among others in this, unless no class or variable is called so. -/
theorem texts_unambiguous (v : Vocabulary) {s t : Shape} {a b : String}
    (hs : (Renderer.start v.table v.names).usage s = .ok a)
    (ht : (Renderer.start v.table v.names).usage t = .ok b)
    (hnames : ∀ name ∈ s.namesInText v ++ t.namesInText v, Plain name) :
    (a = b ↔ s.term v .whole = t.term v .whole) ∧
      ("void" ∉ s.namesInText v ++ t.namesInText v → a = b → (s = .void ↔ t = .void)) := by
  obtain ⟨hsnames, htnames⟩ := List.forall_mem_append.1 hnames
  have htexts : a = b ↔ s.term v .whole = t.term v .whole :=
    Shape.text_eq_iff hs ht hsnames htnames
  refine ⟨htexts, fun hvoid hab => ?_⟩
  have hterm := htexts.1 hab
  obtain ⟨hsvoid, htvoid⟩ := not_or.1 (mt List.mem_append.2 hvoid)
  constructor
  · rintro rfl
    exact Shape.eq_void_of_term htvoid hterm.symm
  · rintro rfl
    exact Shape.eq_void_of_term hsvoid hterm

def oneVariable : Vocabulary where
  table := ⟨[⟨"T", .top, none⟩]⟩
  names := ⟨[(⟨0⟩, ⟨"M0", .ofOperation⟩)]⟩

/-- Entries from some keys to what arrays of some components can be put into. -/
def entriesInto (key component : Shape) : Shape :=
  .declared ⟨"java.util", "Map"⟩ [key, .wildcardSuper (.array component)] []

/-- A primitive and its class show the same, and so do a variable and a class of that name. -/
theorem entriesInto_unambiguous :
    let boxed := entriesInto (.ofClass ⟨"java.lang", "Integer"⟩ []) (.typeVar ⟨0⟩)
    let primitive := entriesInto (.primitive .int) (.ofClass ⟨"", "M0"⟩ [])
    let r := Renderer.start oneVariable.table oneVariable.names
    r.usage boxed = .ok "java.util.Map<Integer, ? super M0[]>" ∧
      r.usage primitive = .ok "java.util.Map<Integer, ? super M0[]>" ∧
      boxed.term oneVariable .whole = primitive.term oneVariable .whole := by
  intro boxed primitive r
  have hboxed : r.usage boxed = .ok "java.util.Map<Integer, ? super M0[]>" := rfl
  have hprimitive : r.usage primitive = .ok "java.util.Map<Integer, ? super M0[]>" :=
    rfl
  have hnames : boxed.namesInText oneVariable ++ primitive.namesInText oneVariable =
      ["java.util.Map", "Integer", "M0", "java.util.Map", "M0"] := rfl
  have hplain : ∀ name ∈ ["java.util.Map", "Integer", "M0", "java.util.Map", "M0"], Plain name := by
    decide
  exact ⟨hboxed, hprimitive,
    (texts_unambiguous oneVariable hboxed hprimitive (hnames ▸ hplain)).1.1 rfl⟩

end FunctionAdapters
