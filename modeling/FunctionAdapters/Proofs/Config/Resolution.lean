import FunctionAdapters.Proofs.Config.Sections

/-!
# What a configuration says about a class

The options of a class are what stands under its name; a policy that is not chosen there is the one
for all classes, and `rename` if there is none either (`options_resolved`).  All of it is said by the
paths of the document, so the order of its sections and keys does not matter.
-/

namespace FunctionAdapters

open Toml Toml.Decoder

namespace Toml.Node

def policyAt? (document : Node) (path : List String) : Option NamingPolicy :=
  (document.at? path).bind policy?

def textAt? (document : Node) (path : List String) : Option String :=
  (document.at? path).bind text?

/-- The options of a class, as they stand in a document. -/
def optionsAt (document : Node) (cls : ClassName) : ClassOptions where
  policy :=
    ((document.policyAt? ["classes", cls.qualified, "policy"]).or
      (document.policyAt? ["naming", "default_policy"])).getD .rename
  generatedName := document.textAt? ["classes", cls.qualified, "generated_name"]

end Toml.Node

/-! ## What the decoders store -/

section Stored

variable {origin : Origin} {entries : Entries} (hkeys : (entries.map Prod.fst).Nodup)
include hkeys

theorem NamingConfig.defaultPolicy_eq {c : NamingConfig}
    (h : NamingConfig.decoder (.table origin entries) = .ok c) :
    c.defaultPolicy = ((Node.table origin entries).policyAt? ["default_policy"]).getD .rename := by
  have hread := reads_of_fillByName NamingConfig.defaultPolicy
    (fun node policy => node.policy? = some policy) "default_policy"
    (by simp [Field.store_of_eq_ok, nameOf_words_eq_ok]) (by simp) hkeys h
  rw [Node.policyAt?, Node.at?_singleton]
  revert hread
  cases entries.lookup "default_policy" with
  | none => exact id
  | some node =>
    intro hread
    rw [Option.bind_some, hread]
    rfl

theorem ClassConfig.policy_eq {c : ClassConfig}
    (h : ClassConfig.decoder (.table origin entries) = .ok c) :
    c.policy = (Node.table origin entries).policyAt? ["policy"] := by
  rw [Node.policyAt?, Node.at?_singleton]
  exact bind_of_fillByName ClassConfig.policy Node.policy? "policy"
    (by simp [Field.store_of_eq_ok, nameOf_words_eq_ok]) (by simp [Field.store_of_eq_ok]) hkeys rfl h

theorem ClassConfig.generatedName_eq {c : ClassConfig}
    (h : ClassConfig.decoder (.table origin entries) = .ok c) :
    c.generatedName = (Node.table origin entries).textAt? ["generated_name"] := by
  rw [Node.textAt?, Node.at?_singleton]
  exact bind_of_fillByName ClassConfig.generatedName Node.text? "generated_name"
    (by simp [Field.store_of_eq_ok, string_eq_ok]) (by simp [Field.store_of_eq_ok]) hkeys rfl h

end Stored

namespace Config

variable {config : Config}

section Stored

variable {entries : Entries} (hkeys : (entries.map Prod.fst).Nodup)
  (h : ofDocument entries = .ok config)
include hkeys h

theorem naming_read :
    ((Node.table .header entries).at? ["naming"]).elim (config.naming = {})
      fun node => NamingConfig.decoder node = .ok config.naming := by
  rw [Node.at?_singleton]
  exact reads_of_fillByName Config.naming (fun node c => NamingConfig.decoder node = .ok c) "naming"
    (by simp [Field.store_of_eq_ok]) (by simp [Field.store_of_eq_ok]) hkeys h

theorem classes_read :
    ((Node.table .header entries).at? ["classes"]).elim (config.classes = [])
      fun node => Decoder.map ClassConfig.decoder node = .ok config.classes := by
  rw [Node.at?_singleton]
  exact reads_of_fillByName Config.classes
    (fun node cs => Decoder.map ClassConfig.decoder node = .ok cs) "classes"
    (by simp [Field.store_of_eq_ok]) (by simp [Field.store_of_eq_ok]) hkeys h

end Stored

/-! ## Options by paths -/

section Paths

variable {entries : Entries} (hdistinct : (Node.table .header entries).Distinct)
  (htables : SectionsAreTables (.table .header entries)) (h : ofDocument entries = .ok config)
include hdistinct htables h

theorem defaultPolicy_eq_policyAt? :
    config.naming.defaultPolicy =
      ((Node.table .header entries).policyAt? ["naming", "default_policy"]).getD .rename := by
  have hread := naming_read hdistinct.entries.keys h
  rw [Node.policyAt?, show ["naming", "default_policy"] = ["naming"] ++ ["default_policy"] from rfl,
    Node.at?_append]
  cases hfound : (Node.table .header entries).at? ["naming"] with
  | none =>
    rw [hfound] at hread
    rw [show config.naming = {} from hread]
    rfl
  | some node =>
    obtain ⟨origin, inner, rfl⟩ := Section.naming.isTable_at ⟨_, _, rfl⟩ htables node hfound
    rw [hfound] at hread
    exact NamingConfig.defaultPolicy_eq (hdistinct.at? hfound).entries.keys hread

theorem rel_classes (name : String) :
    Option.Rel (fun node c => ClassConfig.decoder node = .ok c)
      ((Node.table .header entries).at? ["classes", name]) (config.classes.lookup name) := by
  have hread := classes_read hdistinct.entries.keys h
  rw [show ["classes", name] = ["classes"] ++ [name] from rfl, Node.at?_append]
  cases hfound : (Node.table .header entries).at? ["classes"] with
  | none =>
    rw [hfound] at hread
    rw [show config.classes = [] from hread]
    exact .none
  | some node =>
    obtain ⟨origin, inner, rfl⟩ := Section.classes.isTable_at ⟨_, _, rfl⟩ htables node hfound
    rw [hfound] at hread
    rw [Option.bind_some, Node.at?_singleton]
    exact (decodeEntries_eq_ok hread).rel_lookup name

/-- **The options of a class** are those that stand in the document. -/
theorem optionsFor_eq (cls : ClassName) :
    config.optionsFor cls = (Node.table .header entries).optionsAt cls := by
  have hclass := rel_classes hdistinct htables h cls.qualified
  have htable := Section.isTable_at (.ofClass cls.qualified) ⟨_, _, rfl⟩ htables
  have hat (key : String) :=
    Node.at?_append (.table .header entries) ["classes", cls.qualified] [key]
  simp only [List.cons_append, List.nil_append] at hat
  rw [optionsFor, Node.optionsAt, defaultPolicy_eq_policyAt? hdistinct htables h, Option.getD_or,
    Node.policyAt?.eq_def _ ["classes", cls.qualified, "policy"], Node.textAt?, hat, hat]
  generalize config.classes.lookup cls.qualified = own at hclass ⊢
  cases hfound : (Node.table .header entries).at? ["classes", cls.qualified] with
  -- a class without a section has the default policy and no name of its own
  | none =>
    rw [hfound] at hclass
    cases hclass
    rfl
  | some node =>
    obtain ⟨origin, inner, rfl⟩ := htable node hfound
    rw [hfound] at hclass
    cases hclass with
    | some hread =>
      have hkeys := (hdistinct.at? hfound).entries.keys
      rw [Option.getD_some, ClassConfig.policy_eq hkeys hread,
        ClassConfig.generatedName_eq hkeys hread]
      rfl

end Paths

end Config

/-! ## The order of sections and keys -/

namespace Toml.Node.Rearranged

variable {node node' : Node} (h : node.Rearranged node')
include h

theorem holdsNothing_eq : node.holdsNothing = node'.holdsNothing := by
  cases h with
  | same => rfl
  | table origin origin' hentries =>
    rw [holdsNothing, holdsNothing, Bool.eq_iff_iff, List.isEmpty_iff_length_eq_zero,
      List.isEmpty_iff_length_eq_zero, hentries.length_eq]

theorem word?_eq : node.word? = node'.word? := by
  cases h with
  | same => rfl
  | @table origin origin' entries entries' hentries =>
    -- a word in a table is its only key, and one entry has no other order
    by_cases hone : entries.length = 1
    · cases hentries with
      | of values order =>
        match values with
        | .cons word first .nil =>
          obtain rfl := List.singleton_perm.1 order
          rw [word?, word?, first.holdsNothing_eq]
    · rw [word?_eq_none hone, word?_eq_none (hentries.length_eq ▸ hone)]

theorem policy?_eq : node.policy? = node'.policy? := by
  rw [policy?, policy?, h.word?_eq]

theorem text?_eq : node.text? = node'.text? := by
  cases h <;> rfl

theorem fits_iff (kind : Config.Kind) : kind.Fits node ↔ kind.Fits node' := by
  cases kind with
  | table s =>
    cases h with
    | same => rfl
    | table origin origin' => exact iff_of_true ⟨_, _, rfl⟩ ⟨_, _, rfl⟩
  | policy => rw [Config.Kind.Fits, Config.Kind.Fits, h.policy?_eq]
  | text => rw [Config.Kind.Fits, Config.Kind.Fits, h.text?_eq]
  | truth => cases h <;> rfl

end Toml.Node.Rearranged

namespace Config

section Order

variable {document document' : Node} (hdistinct : document.Distinct)
  (h : document.Rearranged document')
include hdistinct h

theorem conforms_iff : Conforms document ↔ Conforms document' :=
  forall_congr' fun s => forall_congr' fun key =>
    forall_mem_iff_of_rel (h.at? hdistinct (s.path ++ [key])) fun _ _ hsame => by
      simp only [hsame.fits_iff]

theorem sectionsAreTables_iff : SectionsAreTables document ↔ SectionsAreTables document' :=
  forall_congr' fun s => forall_congr' fun sub => forall_congr' fun key => forall_congr' fun _ =>
    forall_mem_iff_of_rel (h.at? hdistinct (s.path ++ [key])) fun _ _ hsame =>
      hsame.fits_iff (.table sub)

theorem policyAt?_eq (path : List String) : document.policyAt? path = document'.policyAt? path :=
  bind_eq_of_rel (h.at? hdistinct path) fun _ _ hsame => hsame.policy?_eq

theorem textAt?_eq (path : List String) : document.textAt? path = document'.textAt? path :=
  bind_eq_of_rel (h.at? hdistinct path) fun _ _ hsame => hsame.text?_eq

theorem optionsAt_eq (cls : ClassName) : document.optionsAt cls = document'.optionsAt cls := by
  rw [Node.optionsAt, Node.optionsAt, policyAt?_eq hdistinct h, policyAt?_eq hdistinct h,
    textAt?_eq hdistinct h]

end Order

/-! ## Texts -/

theorem ofText_eq {text : String} {entries : Entries} (hdocument : document? text = some entries) :
    ofText text = (ofDocument entries).mapError .mismatch := by
  rw [ofText, hdocument]

theorem ofText_eq_ok_iff {text : String} {entries : Entries} {config : Config}
    (hdocument : document? text = some entries) :
    ofText text = .ok config ↔ ofDocument entries = .ok config := by
  rw [ofText_eq hdocument]
  cases ofDocument entries <;> simp [Except.mapError]

section Texts

variable {text : String} {entries : Entries} (hdocument : document? text = some entries)
  (htables : SectionsAreTables (.table .header entries))
include hdocument htables

theorem exists_ofText_iff :
    (∃ config, ofText text = .ok config) ↔ Conforms (.table .header entries) := by
  simp only [ofText_eq_ok_iff hdocument, exists_ofDocument_iff (distinct_document hdocument) htables]

theorem optionsFor_of_ofText {config : Config} (h : ofText text = .ok config) (cls : ClassName) :
    config.optionsFor cls = (Node.table .header entries).optionsAt cls :=
  optionsFor_eq (.table .header (distinct_document hdocument)) htables
    ((ofText_eq_ok_iff hdocument).1 h) cls

theorem exists_mismatch {s : Section} {key : String} (hkind : s.kind? key = none)
    (hkey : ((Node.table .header entries).at? (s.path ++ [key])).isSome) :
    ∃ m, ofText text = .error (.mismatch m) := by
  have hrefused : ¬ ∃ config, ofText text = .ok config := by
    rw [exists_ofText_iff hdocument htables]
    intro hconforms
    obtain ⟨node, hnode⟩ := Option.isSome_iff_exists.1 hkey
    obtain ⟨kind, hkind', -⟩ := hconforms s key node hnode
    rw [Option.mem_def, hkind] at hkind'
    cases hkind'
  rw [ofText_eq hdocument] at hrefused ⊢
  cases hread : ofDocument entries with
  | ok config => exact absurd ⟨config, by rw [hread]; rfl⟩ hrefused
  | error m => exact ⟨m, rfl⟩

theorem toOption_map_optionsFor_eq {text' : String} {entries' : Entries}
    (hdocument' : document? text' = some entries')
    (h : (Node.table .header entries).Rearranged (.table .header entries')) (cls : ClassName) :
    (ofText text').toOption.map (·.optionsFor cls) =
      (ofText text).toOption.map (·.optionsFor cls) := by
  have hdistinct : (Node.table .header entries).Distinct :=
    .table .header (distinct_document hdocument)
  have htables' := (sectionsAreTables_iff hdistinct h).1 htables
  -- one text is read exactly if the other one is
  have hboth : (∃ config, ofText text = .ok config) ↔ ∃ config', ofText text' = .ok config' := by
    rw [exists_ofText_iff hdocument htables, exists_ofText_iff hdocument' htables']
    exact conforms_iff hdistinct h
  cases hread : ofText text with
  | ok config =>
    obtain ⟨config', hread'⟩ := hboth.1 ⟨config, hread⟩
    rw [hread']
    simp only [Except.toOption, Option.map_some]
    rw [optionsFor_of_ofText hdocument htables hread,
      optionsFor_of_ofText hdocument' htables' hread', optionsAt_eq hdistinct h]
  | error e =>
    cases hread' : ofText text' with
    | ok config' =>
      obtain ⟨config, hconfig⟩ := hboth.2 ⟨config', hread'⟩
      rw [hread] at hconfig
      cases hconfig
    | error e' => rfl

end Texts

/-- **Configurations.**  Of a text whose sections are tables, a key that means nothing is refused in
whatever section it stands, and nothing else but a value of another kind is.  A configuration that is
read gives each class the policy under its name, else the one for all classes, else `rename`, and the
generated name under its name.  Another order of sections and keys changes none of this. -/
theorem options_resolved {text : String} {entries : Entries}
    (hdocument : document? text = some entries)
    (htables : SectionsAreTables (.table .header entries)) :
    (∀ (s : Section) (key : String), s.kind? key = none →
      ((Node.table .header entries).at? (s.path ++ [key])).isSome →
      ∃ m, ofText text = .error (.mismatch m)) ∧
    ((∃ config, ofText text = .ok config) ↔ Conforms (.table .header entries)) ∧
    (∀ config, ofText text = .ok config → ∀ cls : ClassName,
      (config.optionsFor cls).policy =
        (((Node.table .header entries).policyAt? ["classes", cls.qualified, "policy"]).or
          ((Node.table .header entries).policyAt? ["naming", "default_policy"])).getD .rename ∧
      (config.optionsFor cls).generatedName =
        (Node.table .header entries).textAt? ["classes", cls.qualified, "generated_name"]) ∧
    (∀ text' entries', document? text' = some entries' →
      (Node.table .header entries).Rearranged (.table .header entries') →
      ∀ cls : ClassName, (ofText text').toOption.map (·.optionsFor cls) =
        (ofText text).toOption.map (·.optionsFor cls)) := by
  refine ⟨fun s key => exists_mismatch hdocument htables, exists_ofText_iff hdocument htables,
    fun config hread cls => ?_, fun text' entries' => toOption_map_optionsFor_eq hdocument htables⟩
  rw [optionsFor_of_ofText hdocument htables hread cls]
  exact ⟨rfl, rfl⟩

/-- One class, which has a name of its own and the policy of all. -/
def oneClass : Entries :=
  [("classes", .table .passed [("a.B", .table .header [("generated_name", .string "Bs")])]),
    ("naming", .table .header [("default_policy", .string "exclude")])]

def oneClassText : String :=
  "[classes.\"a.B\"]\ngenerated_name = \"Bs\"\n[naming]\ndefault_policy = \"exclude\""

/-- The same, with the sections in the other order. -/
def oneClassReversed : String :=
  "[naming]\ndefault_policy = \"exclude\"\n[classes.\"a.B\"]\ngenerated_name = \"Bs\""

theorem sectionsAreTables_oneClass : SectionsAreTables (.table .header oneClass) := by
  intro s sub key hkind node hnode
  cases s with
  | root =>
    rcases Section.kind?_root hkind with ⟨rfl, -⟩ | ⟨rfl, -⟩ | ⟨rfl, -⟩ <;> cases hnode <;>
      exact ⟨_, _, rfl⟩
  | classes =>
    obtain ⟨origin, entries, hat, hlookup⟩ := Node.at?_concat.1 hnode
    cases hat
    have hmem := mem_of_lookup hlookup
    simp only [List.mem_singleton, Prod.mk.injEq] at hmem
    exact ⟨_, _, hmem.2⟩
  | _ => exact absurd hkind (Section.kind?_ne_table (by simp) key)

theorem oneClass_resolved :
    document? oneClassText = some oneClass ∧ SectionsAreTables (.table .header oneClass) ∧
    ∃ config, ofText oneClassText = .ok config ∧
      (config.optionsFor ⟨"a", "B"⟩).policy = .exclude ∧
      (config.optionsFor ⟨"a", "B"⟩).generatedName = some "Bs" ∧
      (ofText oneClassReversed).toOption.map (·.optionsFor ⟨"a", "B"⟩) =
        some (config.optionsFor ⟨"a", "B"⟩) := by
  have hdocument : document? oneClassText = some oneClass := by with_unfolding_all rfl
  have hreversed : document? oneClassReversed = some oneClass.reverse := by
    with_unfolding_all rfl
  have horder : (Node.table .header oneClass).Rearranged (.table .header oneClass.reverse) :=
    .table _ _ (.of (.cons _ (.same _) (.cons _ (.same _) .nil)) (List.reverse_perm _).symm)
  obtain ⟨-, -, hoptions, hreorder⟩ := options_resolved hdocument sectionsAreTables_oneClass
  obtain ⟨config, hread⟩ : ∃ config, ofDocument oneClass = .ok config := ⟨_, rfl⟩
  have htext := (ofText_eq_ok_iff hdocument).2 hread
  obtain ⟨hpolicy, hname⟩ := hoptions config htext ⟨"a", "B"⟩
  refine ⟨hdocument, sectionsAreTables_oneClass, config, htext, hpolicy.trans ?_, hname.trans ?_, ?_⟩
  · decide
  · decide
  · rw [hreorder _ _ hreversed horder, htext]
    rfl

end Config

end FunctionAdapters
