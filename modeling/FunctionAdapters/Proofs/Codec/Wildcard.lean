import FunctionAdapters.Codec.Shape
import FunctionAdapters.Proofs.Json.Decoding

/-!
Wildcards, whose kind and bound may stand in either order.

An object that holds both has the one, then the other, and keys that are neither around them
(`split_parts`).  A bound after its kind is decoded where it stands.  A bound in front of its kind
is read as a whole first, so there, other than elsewhere, even what would be skipped must not be
nested too deep: that is the last condition of `wildcardForm`.
-/

namespace FunctionAdapters.Shape

open Json Json.Decoder

/-- A wildcard with a bound, by the word for its kind. -/
def wildcardForm (word : String) (bound : Form) : Form := fun room j =>
  ∃ r entries, room = r + 1 ∧ j = .object entries ∧
    Rearranged r [.needed "kind" (.exactly (.string word)), .needed "bound" bound] entries ∧
    ∀ before b after, entries = before ++ ("bound", b) :: after →
      "kind" ∉ before.map Prod.fst → b.depth ≤ r

def plainForm : Form := .record [.needed "kind" (.exactly (.string "unbounded")), .absent "bound"]

theorem flexible_wildcardForm (word : String) {bound : Form} (h : bound.Flexible) :
    (wildcardForm word bound).Flexible := by
  rintro room room' j ⟨r, entries, rfl, rfl, hentries, hkept⟩ hroom
  simp only [depth] at hroom
  obtain ⟨r', rfl⟩ := Nat.exists_eq_add_of_le' (show 1 ≤ room' by omega)
  refine ⟨r', entries, rfl, rfl, hentries.flexible ?_ (by omega), fun before b after heq hkind => ?_⟩
  · simpa [FieldForm.needed] using ⟨Form.flexible_exactly _, h⟩
  · have hmem : ("bound", b) ∈ entries := heq ▸ by simp
    have hdepth : b.depth ≤ fieldDepths entries := depth_le_fieldDepths hmem
    have := hkept before b after heq hkind
    omega

theorem flexible_plainForm : plainForm.Flexible :=
  Form.flexible_record <| by
    simpa [FieldForm.needed, FieldForm.absent, Form.Flexible] using Form.flexible_exactly _

theorem holdsOf_wildcardForm (word : String) {bound : Form} {b : Json} (h : bound.HoldsOf b) :
    (wildcardForm word bound).HoldsOf (.object [("kind", .string word), ("bound", b)]) := by
  intro room hroom
  have hfields : List.Forall₂
      (fun (field : FieldForm) entry => field.name = entry.1 ∧ field.value.HoldsOf entry.2)
      [.needed "kind" (.exactly (.string word)), .needed "bound" bound]
      [("kind", .string word), ("bound", b)] :=
    .cons ⟨rfl, Form.holdsOf_exactly _⟩ (.cons ⟨rfl, h⟩ .nil)
  obtain ⟨r, entries, rfl, hj, hentries⟩ := Form.holdsOf_record hfields room hroom
  refine ⟨r, entries, rfl, hj, hentries, fun before b' after heq _ => ?_⟩
  have hmem : ("bound", b') ∈ entries := heq ▸ by simp
  have hdepth : b'.depth ≤ fieldDepths entries := depth_le_fieldDepths hmem
  rw [hj, depth] at hroom
  omega

theorem holdsOf_plainForm : plainForm.HoldsOf (.object [("kind", .string "unbounded")]) := by
  intro room hroom
  obtain ⟨r, rfl⟩ : ∃ n, room = n + 1 := ⟨room - 1, by simp [depth] at hroom; omega⟩
  exact ⟨r, _, rfl, rfl, _, [], .keep rfl (.drop trivial .none), by simp,
    by simp [FieldForm.needed]⟩

/-! ## Finding the parts -/

/-- No entry is the kind or the bound of a wildcard. -/
def NoParts (entries : List (String × Json)) : Prop :=
  ∀ entry ∈ entries, entry.1 ≠ "kind" ∧ entry.1 ≠ "bound"

theorem noParts_append {us vs : List (String × Json)} :
    NoParts (us ++ vs) ↔ NoParts us ∧ NoParts vs := by
  simp only [NoParts, List.forall_mem_append]

section NextPart

variable {us vs : List (String × Json)} {room : Nat}

theorem nextPart_none (h : NoParts us) : nextPart none (entrySources us room) = .ok none := by
  induction us with
  | nil => rfl
  | cons u us ih =>
    obtain ⟨hu, hus⟩ := List.forall_mem_cons.mp h
    simp [entrySources, nextPart, Key.read, Except.mapError, hu, skipFault_source, noFault, ih hus,
      bind, Except.bind]

theorem nextPart_some (h : NoParts us) {name : String} (hname : name = "kind" ∨ name = "bound")
    (v : Json) :
    nextPart none (entrySources (us ++ (name, v) :: vs) room) =
      .ok (some (name, v.source room, entrySources vs room)) := by
  induction us with
  | nil => simp [entrySources, nextPart, Key.read, Except.mapError, hname, bind, Except.bind, pure,
      Except.pure]
  | cons u us ih =>
    obtain ⟨hu, hus⟩ := List.forall_mem_cons.mp h
    simp [entrySources, nextPart, Key.read, Except.mapError, hu, skipFault_source, noFault, ih hus,
      bind, Except.bind]

theorem noMoreParts_of (h : NoParts us) : noMoreParts none (entrySources us room) = .ok () := by
  simp [noMoreParts, nextPart_none h, bind, Except.bind, pure, Except.pure]

end NextPart

theorem split_one {entries others : List (String × Json)} {k : String × Json}
    (h : entries.Perm (k :: others)) :
    ∃ us vs, entries = us ++ k :: vs ∧ (us ++ vs).Perm others := by
  obtain ⟨us, vs, rfl⟩ := List.append_of_mem (h.mem_iff.mpr List.mem_cons_self)
  exact ⟨us, vs, rfl, (List.perm_middle.symm.trans h).cons_inv⟩

theorem split_two {entries added : List (String × Json)} {k b : String × Json}
    (h : entries.Perm (k :: b :: added)) (hadded : NoParts added) :
    ∃ us vs ws, NoParts us ∧ NoParts vs ∧ NoParts ws ∧
      (entries = us ++ k :: (vs ++ b :: ws) ∨ entries = us ++ b :: (vs ++ k :: ws)) := by
  -- The first entry divides the list; the second one stands on one side of it or the other.
  obtain ⟨ss, ts, rfl, hrest⟩ := split_one h
  rcases List.mem_append.mp (hrest.mem_iff.mpr List.mem_cons_self) with hb | hb
  · obtain ⟨us, vs, rfl⟩ := List.append_of_mem hb
    rw [List.append_assoc, List.cons_append] at hrest
    have hothers := (List.perm_middle.symm.trans hrest).cons_inv
    have hnone : NoParts (us ++ (vs ++ ts)) := fun u hu => hadded u (hothers.mem_iff.mp hu)
    simp only [noParts_append] at hnone
    exact ⟨us, vs, ts, hnone.1, hnone.2.1, hnone.2.2, .inr (by simp)⟩
  · obtain ⟨vs, ws, rfl⟩ := List.append_of_mem hb
    rw [← List.append_assoc] at hrest
    have hothers := (List.perm_middle.symm.trans hrest).cons_inv
    have hnone : NoParts (ss ++ vs ++ ws) := fun u hu => hadded u (hothers.mem_iff.mp hu)
    simp only [noParts_append] at hnone
    exact ⟨ss, vs, ws, hnone.1.1, hnone.1.2, hnone.2, .inl rfl⟩

theorem split_plain {room : Nat} {entries : List (String × Json)}
    (h : Rearranged room [.needed "kind" (.exactly (.string "unbounded")), .absent "bound"]
      entries) :
    ∃ us vs, NoParts us ∧ NoParts vs ∧ entries = us ++ ("kind", .string "unbounded") :: vs := by
  obtain ⟨written, added, hwritten, hadded, hperm⟩ := h
  cases hwritten with
  | drop h _ => exact h.elim
  | keep hkind hwritten =>
    cases hwritten with
    | keep h _ => exact h.elim
    | drop _ hwritten =>
      cases hwritten
      cases hkind
      obtain ⟨us, vs, hsplit, hothers⟩ := split_one hperm
      have hnone : NoParts (us ++ vs) := fun u hu => by
        simpa [FieldForm.needed, FieldForm.absent] using hadded u (hothers.mem_iff.mp hu)
      obtain ⟨hus, hvs⟩ := noParts_append.mp hnone
      exact ⟨us, vs, hus, hvs, hsplit⟩

/-- **A kind and a bound stand in one order or the other,** with keys that are neither around
them. -/
theorem split_parts {room : Nat} {word : String} {bound : Form} {entries : List (String × Json)}
    (h : Rearranged room [.needed "kind" (.exactly (.string word)), .needed "bound" bound]
      entries) :
    ∃ b us vs ws, bound room b ∧ NoParts us ∧ NoParts vs ∧ NoParts ws ∧
      (entries = us ++ ("kind", .string word) :: (vs ++ ("bound", b) :: ws) ∨
        entries = us ++ ("bound", b) :: (vs ++ ("kind", .string word) :: ws)) := by
  obtain ⟨written, added, hwritten, hadded, hperm⟩ := h
  cases hwritten with
  | drop h _ => exact h.elim
  | keep hkind hwritten =>
    cases hwritten with
    | drop h _ => exact h.elim
    | @keep _ b _ _ hb hwritten =>
      cases hwritten
      cases hkind
      have hnone : NoParts added := fun u hu => by simpa [FieldForm.needed] using hadded u hu
      obtain ⟨us, vs, ws, hus, hvs, hws, hsplit⟩ := split_two hperm hnone
      exact ⟨b, us, vs, ws, hb, hus, hvs, hws, hsplit⟩

/-! ## Decoding -/

theorem decodes_kind {word : String} {kind : WildcardKind}
    (hword : WildcardKind.words.lookup word = some kind) (access : Access) :
    WildcardKind.decoder access (.string word) = .ok kind :=
  Decodes.nameOf hword access 0 _ Nat.one_pos rfl

theorem decodes_plain (bound : Nat) (inner : Decoder Shape) :
    Decodes bound (wildcardDecoder inner) plainForm .wildcard := by
  rintro access room j - ⟨r, entries, rfl, rfl, h⟩
  obtain ⟨us, vs, hus, hvs, rfl⟩ := split_plain h
  have hkind := @decodes_kind "unbounded" .plain rfl access
  simp [wildcardDecoder, source, wildcardByName, nextPart_some hus (.inl rfl), hkind,
    nextPart_none hvs, bind, Except.bind, pure, Except.pure]

/-- **A wildcard with a bound is decoded in either order.** -/
theorem decodes_bounded {bound : Nat} {inner : Decoder Shape} {form : Form} {b : Shape}
    (h : Decodes bound inner form b) {word : String} {kind : WildcardKind} {build : Shape → Shape}
    (hword : WildcardKind.words.lookup word = some kind)
    (hbuild : kind.withBound inner = inner.map build) :
    Decodes bound (wildcardDecoder inner) (wildcardForm word form) (build b) := by
  rintro access room j hroom ⟨r, entries, rfl, rfl, hentries, hkept⟩
  have hr : r < bound := Nat.lt_of_succ_lt hroom
  obtain ⟨v, us, vs, ws, hv, hus, hvs, hws, rfl | rfl⟩ := split_parts hentries
  · -- the kind comes first, so the bound is decoded as it is read
    have hbound : kind.withBound inner access (v.source r) = .ok (build b) := by
      rw [hbuild]
      exact h.map build access r v hr hv
    simp [wildcardDecoder, source, wildcardByName, nextPart_some hus (.inl rfl),
      decodes_kind hword access, nextPart_some hvs (.inr rfl), hbound, noMoreParts_of hws, bind,
      Except.bind, pure, Except.pure]
  -- The bound comes first: it is read as a whole and decoded from what was kept.
  · have hdepth : v.depth ≤ r := hkept us v _ rfl fun hmem => by
      obtain ⟨u, hu, heq⟩ := List.mem_map.mp hmem
      exact (hus u hu).1 heq
    have hbound : kind.withBound inner .kept (v.source r) = .ok (build b) := by
      rw [hbuild]
      exact h.map build .kept r v hr hv
    simp [wildcardDecoder, source, wildcardByName, nextPart_some hus (.inr rfl),
      readFault_source v hdepth, noFault, nextPart_some hvs (.inl rfl),
      decodes_kind hword access, hbound, noMoreParts_of hws, bind, Except.bind, pure, Except.pure]

/-! ## Codes -/

theorem WildcardKind.withBound_upper (inner : Decoder Shape) :
    upper.withBound inner = inner.map .wildcardExtends := rfl

theorem WildcardKind.withBound_lower (inner : Decoder Shape) :
    lower.withBound inner = inner.map .wildcardSuper := rfl

theorem codes_plain (bound : Nat) (inner : Decoder Shape) :
    Codes bound (wildcardDecoder inner) plainForm (.object [("kind", .string "unbounded")])
      .wildcard :=
  ⟨decodes_plain bound inner, flexible_plainForm, holdsOf_plainForm, trivial, trivial⟩

theorem codes_bounded {bound : Nat} {inner : Decoder Shape} {form : Form} {j : Json} {b : Shape}
    (h : Codes bound inner form j b) {word : String} {kind : WildcardKind} {build : Shape → Shape}
    (hword : WildcardKind.words.lookup word = some kind)
    (hbuild : kind.withBound inner = inner.map build) :
    Codes bound (wildcardDecoder inner) (wildcardForm word form)
      (.object [("kind", .string word), ("bound", j)]) (build b) :=
  ⟨decodes_bounded h.decodes hword hbuild, flexible_wildcardForm word h.flexible,
    holdsOf_wildcardForm word h.holdsOf, trivial, h.sized, trivial⟩

end FunctionAdapters.Shape
