/-
Fields by names, one after another.

A name adds its components to the keys of a field, so names in a chain add theirs in turn (`chain_eq`), and a text with
points between the names has the same components (`Dotted.components_ofKeys_eq`). What can be made has plain keys
(`plainKeys_chain`), which come back out of its path (`named_path`).

- `chain_composes`: chains and dotted texts make the same fields, which their paths tell apart; a path of a record has
  the same normal form.
-/
import ContactSync.Proofs.Edits
import ContactSync.Search.Criterion

namespace ContactSync

open Dotted (components ofKeys PlainKeys)

namespace Field

/-- the field that names lead to, one after another -/
def chain (f : Field) (names : List String) : Field := names.foldl field f

theorem chain_eq (f : Field) (names : List String) :
    f.chain names = ⟨f.entity, f.keys ++ names.flatMap components⟩ := by
  unfold chain
  induction names generalizing f with
  | nil => simp
  | cons name names ih =>
    rw [List.foldl_cons, ih, field, List.flatMap_cons, List.append_assoc]

theorem named_eq (entity : EntityKind) (name : String) : named entity name = ⟨entity, components name⟩ := rfl

variable (entity : EntityKind) (name : String) (names : List String)

/-- **A chain of names is their dotted text.** -/
theorem chain_named : (named entity name).chain names = named entity (ofKeys (name :: names)) := by
  rw [chain_eq, named_eq, named_eq, Dotted.components_ofKeys_eq, List.flatMap_cons]

theorem plainKeys_chain : PlainKeys ((named entity name).chain names).keys := by
  rw [chain_named, named_eq]
  exact Dotted.plainKeys_components _

theorem named_path {f : Field} (h : PlainKeys f.keys) : named f.entity f.path = f := by
  rw [named_eq, path, Dotted.components_ofKeys h]

theorem path_inj {f g : Field} (hf : PlainKeys f.keys) (hg : PlainKeys g.keys) (he : f.entity = g.entity) :
    f = g ↔ f.path = g.path := by
  constructor
  · exact congrArg path
  · intro hpath
    rw [← named_path hf, ← named_path hg, he, hpath]

end Field

theorem Path.dotted_ofDotted (entity : EntityKind) (text : String) :
    (Path.ofDotted text).dotted = (Field.named entity text).path :=
  dotted_keys (Dotted.plainKeys_components text)

theorem Path.ofDotted_dotted (text : String) : Path.ofDotted (Path.ofDotted text).dotted = Path.ofDotted text := by
  have hplain := Dotted.plainKeys_components text
  have hdotted : (ofDotted text).dotted = ofKeys (components text) := dotted_keys hplain
  rw [hdotted, ofDotted, Dotted.components_ofKeys hplain, ofDotted]

namespace Field

/-- **Fields compose like dotted texts.** Names one after another, whatever points are in them, lead to the field of the
names with points between them. Its keys are not empty and without points, its path names it again, and of the fields of
one entity no other has this path. A path of a record is written as the field of the same text is, and read back. -/
theorem chain_composes (entity : EntityKind) (name : String) (names : List String) :
    let f := (named entity name).chain names
    f = named entity (String.intercalate "." (name :: names)) ∧
    (∀ k ∈ f.keys, k ≠ "" ∧ '.' ∉ k.toList) ∧
    named entity f.path = f ∧
    (∀ name' names', let g := (named entity name').chain names'
      f = g ↔ f.path = g.path) ∧
    ∀ text, (Path.ofDotted text).dotted = (named entity text).path ∧
      Path.ofDotted (Path.ofDotted text).dotted = Path.ofDotted text := by
  intro f
  have hentity : f.entity = entity := by rw [show f = _ from chain_named entity name names, named_eq]
  have hplain : PlainKeys f.keys := plainKeys_chain entity name names
  refine ⟨chain_named entity name names, hplain, ?_, ?_, ?_⟩
  · rw [← hentity]
    exact named_path hplain
  · intro name' names' g
    have hentity' : g.entity = entity := by rw [show g = _ from chain_named entity name' names', named_eq]
    exact path_inj hplain (plainKeys_chain entity name' names') (hentity.trans hentity'.symm)
  · exact fun text => ⟨Path.dotted_ofDotted entity text, Path.ofDotted_dotted text⟩

/-- points at the ends of names and between them, and an empty name -/
theorem chain_composes_scattered :
    let f := (named .customer ".base..").chain ["", "contacts.", "email"]
    let g := (named .customer "base").chain ["contacts.email"]
    f.keys = ["base", "contacts", "email"] ∧
    f = named .customer (String.intercalate "." [".base..", "", "contacts.", "email"]) ∧
    ("contacts" ≠ "" ∧ '.' ∉ "contacts".toList) ∧
    named .customer f.path = f ∧ (f = g ↔ f.path = g.path) := by
  intro f g
  have hkeys : f.keys = ["base", "contacts", "email"] := by decide
  have hmem : "contacts" ∈ f.keys := by rw [hkeys]; decide
  obtain ⟨htext, hplain, hagain, hinj, -⟩ := chain_composes .customer ".base.." ["", "contacts.", "email"]
  exact ⟨hkeys, htext, hplain _ hmem, hagain, hinj "base" ["contacts.email"]⟩

end Field

end ContactSync
