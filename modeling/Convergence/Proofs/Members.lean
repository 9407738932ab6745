import Convergence.Proofs.Json.WellFormed
import Convergence.Proofs.Record.Codec
import Convergence.Record.ChangeEvent
import Convergence.Seed
/-!
# The members of a record in a document

A record is read from the members under its names, whatever else is in the object.  So documents
of older and newer versions are read alike: the members may come in any order, members under other
names are skipped, however deep their values are, and null stands for an optional member that is
not there.  Only a name of the record may not come twice.

A decoder that looks at nothing but the fields it names is `ByName`, and for such a decoder all of
this holds of every text of an object (`tolerant_of_byName`).  Each record, event and seed has one
(`tolerant_of_every_type`).
-/

namespace Convergence

variable {α : Type} {names optional : List String} {ms ms' : List (String × Node)}

/-! ## Fields that are read alike -/

namespace Fields

/-- The same fields are present, but for optional ones that are absent in the first and null in
the second. -/
def Alike (names optional : List String) (m m' : Fields) : Prop :=
  ∀ name ∈ names, m' name = m name ∨ name ∈ optional ∧ m name = none ∧ m' name = some .null

namespace Alike

variable {m m' : Fields} {name : String}

lemma required (h : Alike names optional m m') (hname : name ∈ names) (hopt : name ∉ optional)
    (read : Node → Option α) : m'.required name read = m.required name read := by
  obtain heq | ⟨hmem, -⟩ := h name hname
  · rw [Fields.required, Fields.required, heq]
  · exact absurd hmem hopt

lemma defaulted (h : Alike names optional m m') (hname : name ∈ names) (hopt : name ∉ optional)
    (default : α) (read : Node → Option α) :
    m'.defaulted name default read = m.defaulted name default read := by
  obtain heq | ⟨hmem, -⟩ := h name hname
  · rw [Fields.defaulted, Fields.defaulted, heq]
  · exact absurd hmem hopt

lemma optional_eq (h : Alike names optional m m') (hname : name ∈ names)
    (read : Node → Option α) : m'.optional name read = m.optional name read := by
  obtain heq | ⟨-, hnone, hnull⟩ := h name hname
  · rw [Fields.optional, Fields.optional, heq]
  · rw [Fields.optional, Fields.optional, hnone, hnull]

end Alike

lemma defaulted_of_some {m : Fields} {name : String} {n : Node} (h : m name = some n)
    (default : α) (read : Node → Option α) : m.defaulted name default read = read n := by
  rw [defaulted, h]

end Fields

/-! ## The members under a name -/

namespace Node

/-- The nodes under a name, in order. -/
def under (members : List (String × Node)) (name : String) : List Node :=
  (members.filter fun m => m.1 == name).map Prod.snd

lemma occurrences_eq_length (name : String) (members : List (String × Node)) :
    occurrences name members = (under members name).length := by
  rw [occurrences, under, List.length_map, List.countP_eq_length_filter]

lemma member?_eq_head? (members : List (String × Node)) (name : String) :
    member? members name = (under members name).head? := by
  rw [member?, under, List.head?_map, List.head?_filter]

lemma under_perm (h : ms'.Perm ms) (name : String) : (under ms' name).Perm (under ms name) :=
  (h.filter _).map _

lemma under_append_of_not_mem {others : List (String × Node)} {name : String}
    (h : name ∉ others.map Prod.fst) (ms : List (String × Node)) :
    under (others ++ ms) name = under ms name := by
  have hnone : others.filter (fun m => m.1 == name) = [] := by
    rw [List.filter_eq_nil_iff]
    exact fun m hm heq => h (beq_iff_eq.1 heq ▸ List.mem_map_of_mem hm)
  rw [under, List.filter_append, hnone, List.nil_append, under]

lemma under_eq_nil {name : String} (h : name ∉ ms.map Prod.fst) : under ms name = [] := by
  have hunder := under_append_of_not_mem h []
  rwa [List.append_nil] at hunder

/-- Under the names there is the same, but for optional names with nothing under them in the first
and null in the second. -/
def Matches (names optional : List String) (ms ms' : List (String × Node)) : Prop :=
  ∀ name ∈ names, (under ms' name).Perm (under ms name)
    ∨ name ∈ optional ∧ under ms name = [] ∧ under ms' name = [.null]

lemma Matches.alike (h : Matches names optional ms ms')
    (honce : ∀ name ∈ names, occurrences name ms ≤ 1) :
    Fields.Alike names optional (member? ms) (member? ms') := by
  intro name hname
  have hlength := honce name hname
  rw [occurrences_eq_length] at hlength
  rw [member?_eq_head?, member?_eq_head?]
  obtain hperm | ⟨hopt, hnil, hnull⟩ := h name hname
  · left
    -- one node at most is under the name, so there is only one order
    cases hunder : under ms name with
    | nil =>
      rw [hunder] at hperm
      rw [hperm.eq_nil]
    | cons n rest =>
      obtain rfl : rest = [] := by simpa [hunder] using hlength
      rw [hunder] at hperm
      rw [List.perm_singleton.1 hperm]
  · right
    rw [hnil, hnull]
    exact ⟨hopt, rfl, rfl⟩

lemma Matches.once_iff (h : Matches names optional ms ms') :
    (∀ name ∈ names, occurrences name ms' ≤ 1) ↔ ∀ name ∈ names, occurrences name ms ≤ 1 := by
  refine forall₂_congr fun name hname => ?_
  rw [occurrences_eq_length, occurrences_eq_length]
  obtain hperm | ⟨-, hnil, hnull⟩ := h name hname
  · rw [hperm.length_eq]
  · simp [hnil, hnull]

/-! ## Decoders -/

/-- The decoder looks at the fields with these names only, and takes an optional one that is null
for absent. -/
def ByName (read : Node → Option α) (names optional : List String) : Prop :=
  ∃ k : Fields → Option α, (∀ n, read n = (fields? .json names n).bind k)
    ∧ ∀ m m', Fields.Alike names optional m m' → k m' = k m

lemma fields?_map (format : Format) (honce : ∀ name ∈ names, occurrences name ms ≤ 1) :
    fields? format names (.map ms) = some (member? ms) := by
  simpa [fields?] using honce

lemma fields?_map_eq_none (format : Format) (h : ¬ ∀ name ∈ names, occurrences name ms ≤ 1) :
    fields? format names (.map ms) = none := by
  simpa [fields?] using h

variable {read : Node → Option α}

lemma ByName.read_eq_none (h : ByName read names optional)
    (htwice : ¬ ∀ name ∈ names, occurrences name ms ≤ 1) : read (.map ms) = none := by
  obtain ⟨k, hread, -⟩ := h
  rw [hread, fields?_map_eq_none _ htwice, Option.bind_none]

/-- Maps that match are decoded alike. -/
lemma ByName.read_eq (h : ByName read names optional) (hmatches : Matches names optional ms ms') :
    read (.map ms') = read (.map ms) := by
  by_cases honce : ∀ name ∈ names, occurrences name ms ≤ 1
  · obtain ⟨k, hread, hk⟩ := h
    rw [hread, hread, fields?_map _ honce, fields?_map _ (hmatches.once_iff.2 honce)]
    exact hk _ _ (hmatches.alike honce)
  · rw [h.read_eq_none honce, h.read_eq_none (mt hmatches.once_iff.1 honce)]

end Node

/-! ## Texts -/

namespace Json

/-- How the decoder takes the members in a text, whatever its layout. -/
structure Tolerant (read : Node → Option α) (names optional : List String) : Prop where
  /-- The members may come in any order. -/
  permuted {text text' : String} {members members' : List Member} (h : IsObject text members)
    (h' : IsObject text' members') (hperm : members'.Perm members) :
    (read? text').bind read = (read? text).bind read
  /-- Members under other names are skipped, whatever their values are. -/
  others {text text' : String} {members members' others : List Member} (h : IsObject text members)
    (h' : IsObject text' members') (hperm : members'.Perm (others ++ members))
    (hothers : ∀ m ∈ others, m.name ∉ names) : (read? text').bind read = (read? text).bind read
  /-- An optional member that is absent may be null. -/
  null {text text' : String} {m : Member} {members members' : List Member}
    (h : IsObject text members) (h' : IsObject text' members')
    (hperm : members'.Perm (m :: members)) (hopt : m.name ∈ optional)
    (habsent : m.name ∉ members.map Member.name) (hnull : Value m.valueText .null) :
    (read? text').bind read = (read? text).bind read
  /-- No second member may come under one of the names. -/
  repeated {text : String} {m : Member} {members members' : List Member}
    (h : IsObject text members') (hperm : members'.Perm (m :: members)) (hname : m.name ∈ names)
    (hpresent : m.name ∈ members.map Member.name) : (read? text).bind read = none

/-- With a member under the name, the time of reading does not matter. -/
def Timeless (read : Timestamp → Node → Option α) (name : String) : Prop :=
  ∀ text members, IsObject text members → name ∈ members.map Member.name →
    ∀ now now', (read? text).bind (read now') = (read? text).bind (read now)

/-- The members as they are read. -/
def readMembers (members : List Member) : List (String × Node) :=
  members.map fun m => (m.name, m.node)

variable {read : Node → Option α} {text text' : String} {members members' : List Member}

lemma readMembers_fst (members : List Member) :
    (readMembers members).map Prod.fst = members.map Member.name := by
  simp [readMembers]

lemma readMembers_append (members members' : List Member) :
    readMembers (members ++ members') = readMembers members ++ readMembers members' := by
  simp [readMembers]

lemma bind_read?_of_isObject (h : IsObject text members) :
    (read? text).bind read = read (.map (readMembers members)) := by
  rw [read?_of_isObject h, Option.bind_some, readMembers]

open Node

lemma bind_read?_eq (hread : ByName read names optional) (h : IsObject text members)
    (h' : IsObject text' members')
    (hmatches : Matches names optional (readMembers members) (readMembers members')) :
    (read? text').bind read = (read? text).bind read := by
  rw [bind_read?_of_isObject h, bind_read?_of_isObject h', hread.read_eq hmatches]

lemma under_readMembers_perm (h : members'.Perm members) (name : String) :
    (under (readMembers members') name).Perm (under (readMembers members) name) :=
  under_perm (h.map _) name

lemma under_readMembers_cons_self (m : Member) (members : List Member) :
    under (readMembers (m :: members)) m.name = m.node :: under (readMembers members) m.name := by
  simp [under, readMembers]

lemma under_readMembers_cons_of_ne {m : Member} {name : String} (h : m.name ≠ name)
    (members : List Member) :
    under (readMembers (m :: members)) name = under (readMembers members) name := by
  simp [under, readMembers, h]

lemma length_under_pos {name : String} (h : name ∈ members.map Member.name) :
    0 < (under (readMembers members) name).length := by
  obtain ⟨m, hm, rfl⟩ := List.mem_map.1 h
  refine List.length_pos_of_mem (a := m.node) (List.mem_map.2 ⟨(m.name, m.node), ?_, rfl⟩)
  exact List.mem_filter.2 ⟨List.mem_map_of_mem hm, beq_self_eq_true _⟩

/-- A decoder that reads by name takes the members in a text as it should. -/
theorem tolerant_of_byName (hread : ByName read names optional) :
    Tolerant read names optional where
  permuted h h' hperm :=
    bind_read?_eq hread h h' fun name _ => .inl (under_readMembers_perm hperm name)
  others {_ _ members _ others} h h' hperm hothers := by
    refine bind_read?_eq hread h h' fun name hname => .inl ?_
    have hnot : name ∉ (readMembers others).map Prod.fst := by
      rw [readMembers_fst, List.mem_map]
      rintro ⟨m, hm, rfl⟩
      exact hothers m hm hname
    have hunder := under_readMembers_perm hperm name
    rwa [readMembers_append, under_append_of_not_mem hnot] at hunder
  null {_ _ m members _} h h' hperm hopt habsent hnull := by
    refine bind_read?_eq hread h h' fun name _ => ?_
    have hunder := under_readMembers_perm hperm name
    -- under the name of the new member there is null, and under all others what was there
    by_cases hname : m.name = name
    · subst hname
      have hnode : m.node = .null := by rw [Member.node, read?_of_value hnull, Option.getD_some]
      have hnil : under (readMembers members) m.name = [] := under_eq_nil (by rwa [readMembers_fst])
      rw [under_readMembers_cons_self, hnil, hnode] at hunder
      exact .inr ⟨hopt, hnil, List.perm_singleton.1 hunder⟩
    · rw [under_readMembers_cons_of_ne hname] at hunder
      exact .inl hunder
  repeated {_ m members _} h hperm hname hpresent := by
    rw [bind_read?_of_isObject h]
    refine hread.read_eq_none fun honce => absurd (honce _ hname) ?_
    have hunder := under_readMembers_perm hperm m.name
    have hpos := length_under_pos hpresent
    rw [occurrences_eq_length, hunder.length_eq, under_readMembers_cons_self, List.length_cons]
    omega

end Json

/-! ## Records, events and seeds

What a decoder does with its fields is read off its definition, and each of the fields is then read
alike from fields that are alike. -/

open Node

lemma Token.byName : ByName (ofNode? .json) fieldNames ["expires_at"] := by
  refine ⟨_, fun _ => rfl, fun m m' h => ?_⟩
  simp (disch := decide) only [h.required, h.optional_eq]

lemma Step.byName : ByName (ofNode? .json) fieldNames ["connector"] := by
  refine ⟨_, fun _ => rfl, fun m m' h => ?_⟩
  simp (disch := decide) only [h.required, h.optional_eq, h.defaulted]

lemma Spec.byName : ByName (ofNode? .json) fieldNames ["configuration"] := by
  refine ⟨_, fun _ => rfl, fun m m' h => ?_⟩
  simp (disch := decide) only [h.optional_eq, h.defaulted]

lemma Revision.byName : ByName (ofNode? .json) fieldNames ["version"] := by
  refine ⟨_, fun _ => rfl, fun m m' h => ?_⟩
  simp (disch := decide) only [h.required, h.optional_eq, h.defaulted]

lemma StatusUpdate.byName :
    ByName (ofNode? .json) fieldNames ["message", "git_repo", "promoted_revision"] := by
  refine ⟨_, fun _ => rfl, fun m m' h => ?_⟩
  simp (disch := decide) only [h.required, h.optional_eq, h.defaulted]

lemma ChangeEvent.byName : ByName (ofNode? .json) fieldNames ["kind", "id"] := by
  refine ⟨_, fun _ => rfl, fun m m' h => ?_⟩
  simp (disch := decide) only [h.required, h.optional_eq]

/-- The optional fields of an integration. -/
def Integration.optionalNames : List String :=
  ["desired_state", "current_state", "status_message", "draft_revision", "deployed_revision",
    "token", "git_repo", "last_updated"]

lemma Integration.byName (now : Timestamp) :
    ByName (ofNode? .json now) fieldNames optionalNames := by
  refine ⟨_, fun _ => rfl, fun m m' h => ?_⟩
  simp (disch := decide) only [h.required, h.optional_eq, h.defaulted]

/-- Of the fields of an integration, the time of reading stands in for the time of creation only. -/
lemma Integration.exists_body : ∃ k : Timestamp → Fields → Option Integration,
    (∀ now n, ofNode? .json now n = (fields? .json fieldNames n).bind (k now))
    ∧ ∀ m : Fields, (m "created_at").isSome → ∀ now now', k now' m = k now m := by
  refine ⟨_, fun _ _ => rfl, fun m hm now now' => ?_⟩
  obtain ⟨n, hn⟩ := Option.isSome_iff_exists.1 hm
  simp only [Fields.defaulted_of_some hn]

lemma Integration.timeless : Json.Timeless (ofNode? .json) "created_at" := by
  intro text members h hgiven now now'
  obtain ⟨k, hread, hk⟩ := exists_body
  rw [Json.bind_read?_of_isObject h, Json.bind_read?_of_isObject h]
  by_cases honce : ∀ name ∈ fieldNames, occurrences name (Json.readMembers members) ≤ 1
  · have hsome : (member? (Json.readMembers members) "created_at").isSome := by
      rw [member?_eq_head?, List.isSome_head?]
      exact List.ne_nil_of_length_pos (Json.length_under_pos hgiven)
    rw [hread, hread, fields?_map _ honce, Option.bind_some, Option.bind_some]
    exact hk _ hsome now now'
  · rw [(byName now).read_eq_none honce, (byName now').read_eq_none honce]

lemma Seed.byName : ByName (ofNode? .json) fieldNames ["id", "desired_state", "token"] := by
  refine ⟨_, fun _ => rfl, fun m m' h => ?_⟩
  simp (disch := decide) only [h.required, h.optional_eq, h.defaulted]

open Json in
/-- The texts of every record, event and seed may have their members in any order and others between
them, and may have null for what is absent, but no member twice.  What time it is matters only for
an integration without a time of creation. -/
theorem tolerant_of_every_type :
    Tolerant (Token.ofNode? .json) Token.fieldNames ["expires_at"]
    ∧ Tolerant (Step.ofNode? .json) Step.fieldNames ["connector"]
    ∧ Tolerant (Spec.ofNode? .json) Spec.fieldNames ["configuration"]
    ∧ Tolerant (Revision.ofNode? .json) Revision.fieldNames ["version"]
    ∧ Tolerant (StatusUpdate.ofNode? .json) StatusUpdate.fieldNames
        ["message", "git_repo", "promoted_revision"]
    ∧ Tolerant (ChangeEvent.ofNode? .json) ChangeEvent.fieldNames ["kind", "id"]
    ∧ (∀ now, Tolerant (Integration.ofNode? .json now) Integration.fieldNames
        Integration.optionalNames)
    ∧ Timeless (Integration.ofNode? .json) "created_at"
    ∧ Tolerant (Seed.ofNode? .json) Seed.fieldNames ["id", "desired_state", "token"] :=
  ⟨tolerant_of_byName Token.byName, tolerant_of_byName Step.byName, tolerant_of_byName Spec.byName,
    tolerant_of_byName Revision.byName, tolerant_of_byName StatusUpdate.byName,
    tolerant_of_byName ChangeEvent.byName, fun now => tolerant_of_byName (Integration.byName now),
    Integration.timeless, tolerant_of_byName Seed.byName⟩

namespace Json

lemma wellFormed_note : WellFormed ['[', '[', ']', ',', '-', '1', 'e', '9', '9', '9', ']'] := by
  have hempty : WellFormed ['[', ']'] :=
    @WellFormed.seq [] [] (List.forall_mem_nil _) (List.forall_mem_nil _)
  have hpower : Exponent ['e', '9', '9', '9'] :=
    @Exponent.some 'e' [] _ (.inl rfl) (by simp) (by simp) (by simp)
  have hnumber : WellFormed ['-', '1', 'e', '9', '9', '9'] :=
    .number (@Number.intro ['-'] ['1'] [] _ (by decide) ⟨by simp, by simp, by simp⟩ .none
      hpower)
  exact @WellFormed.seq [] [['[', ']'], ['-', '1', 'e', '9', '9', '9']] (List.forall_mem_nil _)
    (by simp [hempty, hnumber])

/-- A member that no record knows, with a number beyond every bound. -/
def noteMember : Member := ⟨"note", quoted "note", _, value_quoted _, wellFormed_note⟩

/-- The member of a token that is needed. -/
def valueMember : Member where
  name := "value"
  nameText := quoted "value"
  valueText := quoted "t"
  spells := value_quoted _
  wellFormed := .text (.itself (by decide) (by decide) (by decide) .nil)

end Json

open Json in
/-- A token is read as if the note in front of it were not there. -/
theorem token_behind_note :
    IsObject (compact (Token.node { value := "t" })) [valueMember]
    ∧ IsObject "\x7b \"note\":[[],-1e999],\"value\":\"t\"\x7d" [noteMember, valueMember]
    ∧ (read? "\x7b \"note\":[[],-1e999],\"value\":\"t\"\x7d").bind (Token.ofNode? .json)
      = some { value := "t" } := by
  have h : IsObject (compact (Token.node { value := "t" })) [valueMember] :=
    ⟨[], [], [], by simp, by simp, by simp, rfl⟩
  have h' : IsObject "\x7b \"note\":[[],-1e999],\"value\":\"t\"\x7d" [noteMember, valueMember] :=
    ⟨[], [' '], [], by simp, by simp [isSpace], by simp, rfl⟩
  have hothers : ∀ m ∈ [noteMember], m.name ∉ Token.fieldNames := by
    simpa using (by decide : noteMember.name ∉ Token.fieldNames)
  refine ⟨h, h', ?_⟩
  rw [tolerant_of_every_type.1.others h h' (.refl _) hothers]
  exact (Token.holds_node .json _).read?_compact

end Convergence
