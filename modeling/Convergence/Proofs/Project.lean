import Convergence.Project
import Convergence.Proofs.Dict
import Convergence.Proofs.Json.RoundTrip
import Convergence.Proofs.Record.Codec
/-!
# What a generated project says

Among the files of a generated project is the description of the revision as JSON.  `specIn?` reads
it back, and finds what the revision does, also if the files were added to others (`specIn?_union`).

The description is a well-formed text that stands for one map and no other node.  Under `id`, `name`
and `version` the map has what belongs to the integration and the revision; what the revision does
is decoded from the members beside these, whatever they are (`generator_describes`).
-/

namespace Convergence

namespace Project

/-- What a revision does, as the files of a project describe it in JSON. -/
def specIn? (files : ProjectFiles) : Option Spec :=
  (files.find? "integration.json").bind fun text => (Json.read? text).bind (Spec.ofNode? .json)

variable (i : Integration) (r : Revision)

lemma find?_files : (files i r).find? "integration.json" = some (Json.pretty (document i r)) := by
  simp [files, Dict.ofList, Dict.find?_insert]

lemma plain_document : (document i r).plain = true := by
  have hmembers := Spec.plain_members r.spec
  have hversion : (versionNode r.version).plain = true := by
    cases r.version with
    | none => rfl
    | some v => exact Version.plain_node v
  simp [document, Node.plain, Node.plainMembers, hversion, hmembers]

lemma specOf_document : Spec.ofNode? .json (document i r) = some r.spec :=
  Spec.ofNode?_members .json r.spec (by simp [Spec.fieldNames])

/-- The files of a revision say what the revision does, also among other files. -/
theorem specIn?_union (before : ProjectFiles) :
    specIn? (before.union (files i r)) = some r.spec := by
  rw [specIn?, Dict.find?_union_of_find? before (find?_files i r), Option.bind_some,
    Json.read?_pretty (plain_document i r), Option.bind_some, specOf_document]

/-! ## The description as a whole -/

/-- The nodes under a name. -/
def named (name : String) (members : List (String × Node)) : List Node :=
  (members.filter fun m => m.1 == name).map (·.2)

/-- The members that are fields of what a revision does. -/
def specMembers (members : List (String × Node)) : List (String × Node) :=
  members.filter fun m => m.1 ∈ Spec.fieldNames

/-- The text describes the revision of the integration, as a map with these members. -/
structure Describes (i : Integration) (r : Revision) (text : String)
    (members : List (String × Node)) : Prop where
  /-- The text is well-formed JSON for the map. -/
  wellFormed : Json.Value text.toList (.map members)
  /-- The text is JSON for nothing else. -/
  only : ∀ n, Json.Value text.toList n → n = .map members
  id : named "id" members = [.str i.id]
  name : named "name" members = [.str i.name]
  version : named "version" members = [r.version.elim .null fun v => .nat v.toNat]
  /-- What the revision does is decoded from the text. -/
  decoded : (Json.read? text).bind (Spec.ofNode? .json) = some r.spec
  /-- Members that are no field of it do not matter. -/
  ignored : ∀ others, (∀ m ∈ others, m.1 ∉ Spec.fieldNames) →
    Spec.ofNode? .json (.map (others ++ specMembers members)) = some r.spec

variable {name : String} {others : List (String × Node)}

lemma mem_fieldNames_of_mem_members {s : Spec} :
    ∀ m ∈ s.members, m.1 ∈ Spec.fieldNames := by
  intro m hm
  rcases List.mem_cons.1 hm with rfl | hm
  · exact List.mem_cons_self
  · cases hc : s.configuration with
    | none => simp [hc, optionalMember] at hm
    | some c =>
      obtain rfl : m = ("configuration", .str c) := by simpa [hc, optionalMember] using hm
      exact List.mem_of_elem_eq_true rfl

/-- No field of what a revision does comes in the way of another name. -/
lemma named_append_members (s : Spec) (h : name ∉ Spec.fieldNames) :
    named name (others ++ s.members) = named name others := by
  have hnone : s.members.filter (fun m => m.1 == name) = [] :=
    List.filter_eq_nil_iff.2 fun m hm heq =>
      h (eq_of_beq heq ▸ mem_fieldNames_of_mem_members m hm)
  rw [named, List.filter_append, hnone, List.append_nil, named]

lemma specMembers_append_members (s : Spec) (h : ∀ m ∈ others, m.1 ∉ Spec.fieldNames) :
    specMembers (others ++ s.members) = s.members := by
  have hothers : specMembers others = [] :=
    List.filter_eq_nil_iff.2 fun m hm hmem => h m hm (of_decide_eq_true hmem)
  have hmembers : specMembers s.members = s.members :=
    List.filter_eq_self.2 fun m hm => decide_eq_true (mem_fieldNames_of_mem_members m hm)
  rw [specMembers, List.filter_append, ← specMembers, ← specMembers, hothers, hmembers,
    List.nil_append]

/-- The members of the description that are not about what the revision does. -/
def ownMembers : List (String × Node) :=
  [("id", .str i.id), ("name", .str i.name), ("version", versionNode r.version)]

/-- The files of a revision are always made, and their JSON describes the revision. -/
theorem generator_describes : ∃ files text members, generator i r = .ok files ∧
    files.find? "integration.json" = some text ∧ Describes i r text members := by
  have hvalue : Json.Value (Json.pretty (document i r)).toList (document i r) := by
    rw [Json.pretty, String.toList_ofList]
    exact Json.value_pretty (document i r) (plain_document i r) 0
  have hversion : versionNode r.version = r.version.elim .null fun v => .nat v.toNat := by
    cases r.version <;> rfl
  refine ⟨files i r, _, ownMembers i r ++ r.spec.members, rfl, find?_files i r, ?_⟩
  exact
    { wellFormed := hvalue
      only := fun n hn => Json.value_unique hn hvalue
      id := named_append_members r.spec (by decide)
      name := named_append_members r.spec (by decide)
      version := by
        rw [named_append_members r.spec (by decide), ← hversion]
        rfl
      decoded := by
        rw [Json.read?_pretty (plain_document i r), Option.bind_some, specOf_document]
      ignored := fun others hothers => by
        rw [specMembers_append_members r.spec (by simp [ownMembers, Spec.fieldNames])]
        exact Spec.ofNode?_members .json r.spec hothers }

end Project

end Convergence
