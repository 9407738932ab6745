import Convergence.Proofs.Decoding
import Convergence.Proofs.Dict
import Convergence.Proofs.Time.Timestamp
import Convergence.Record.Codec
/-!
# Reading records back from their nodes

The node of each part of a record, and of the record, holds what it was written from
(`Integration.holds_node`, `StatusUpdate.holds_node`).  A record is first put down as its slots;
that these have the names of its fields, and no name twice, is all that has to be checked about its
form.  What a revision does is also read back from a map that has its members behind others
(`Spec.ofNode?_members`).
-/

namespace Convergence

open Node Fields

/-! ## Parts without fields -/

lemma holds_str (s : String) : Holds text? (.str s) s := ⟨rfl, rfl, Node.noConfusion⟩

lemma holds_bool (b : Bool) : Holds bool? (.bool b) b := ⟨rfl, rfl, Node.noConfusion⟩

lemma list?_listNode {α : Type} {read : Node → Option α} {write : α → Node}
    (h : ∀ a, read (write a) = some a) (l : List α) :
    Node.list? read (listNode write l) = some l := by
  induction l with
  | nil => rfl
  | cons a rest ih =>
    rw [listNode, Node.list?] at ih ⊢
    rw [List.map_cons, List.mapM_cons, h a, ih]
    rfl

lemma plainItems_map {α : Type} {write : α → Node} (h : ∀ a, (write a).plain = true)
    (l : List α) : Node.plainItems (l.map write) = true := by
  induction l with
  | nil => rfl
  | cons a rest ih => simp [Node.plainItems, h a, ih]

lemma holds_listNode {α : Type} {read : Node → Option α} {write : α → Node}
    (h : ∀ a, Holds read (write a) a) (l : List α) : Holds (list? read) (listNode write l) l :=
  ⟨list?_listNode (fun a => (h a).read_eq) l, plainItems_map (fun a => (h a).plain) l,
    Node.noConfusion⟩

lemma State.holds_node (s : State) : Holds State.ofNode? s.node s where
  read_eq := by rw [ofNode?, node, name?, Option.bind_some, ofName?_name]
  plain := rfl
  ne_null := Node.noConfusion

lemma Version.plain_node (v : Version) : (Version.node v).plain = true := by
  have hlt : v.toNat < UInt32.size := v.toNat_lt
  have hsize : (UInt32.size : Int) < UInt64.size := by decide
  simp only [Version.node, Node.nat, Node.plain, Node.fits64, Bool.and_eq_true, decide_eq_true_eq]
  omega

lemma Version.holds_node (v : Version) : Holds Version.ofNode? (Version.node v) v where
  read_eq := by
    have hlt : v.toNat < UInt32.size := v.toNat_lt_size
    simp [Version.ofNode?, Version.node, Node.nat, natBelow?, hlt]
  plain := plain_node v
  ne_null := Node.noConfusion

lemma ChangeAction.holds_node (a : ChangeAction) : Holds ChangeAction.ofNode? a.node a where
  read_eq := by cases a <;> rfl
  plain := rfl
  ne_null := Node.noConfusion

lemma Timestamp.holds_node (t : Timestamp) : Holds Timestamp.ofNode? t.node t where
  read_eq := by rw [ofNode?, node, text?, Option.bind_some, read?_text]
  plain := rfl
  ne_null := Node.noConfusion

lemma propertiesOfNode?_propertiesNode (d : Dict String) :
    propertiesOfNode? (propertiesNode d) = some d := by
  have hread : ∀ l : List (String × String),
      (l.map fun e => (e.1, Node.str e.2)).mapM (fun m => m.2.text?.map (m.1, ·)) = some l := by
    intro l
    induction l with
    | nil => rfl
    | cons e rest ih =>
      rw [List.map_cons, List.mapM_cons, ih]
      rfl
  rw [propertiesNode, propertiesOfNode?, hread, Option.map_some, Dict.ofList_entries]

lemma plain_propertiesNode (d : Dict String) : (propertiesNode d).plain = true := by
  have hentries : ∀ l : List (String × String),
      Node.plainMembers (l.map fun e => (e.1, Node.str e.2)) = true := by
    intro l
    induction l with
    | nil => rfl
    | cons e rest ih => simp [Node.plainMembers, Node.plain, ih]
  exact hentries d.entries

lemma holds_propertiesNode (d : Dict String) : Holds propertiesOfNode? (propertiesNode d) d :=
  ⟨propertiesOfNode?_propertiesNode d, plain_propertiesNode d, Node.noConfusion⟩

/-! ## Steps and revisions -/

lemma Step.holds_node (f : Format) (s : Step) : Holds (Step.ofNode? f) s.node s := by
  have hnode : s.node = record [("kind", some (.str s.kind)), ("name", some (.str s.name)),
      ("connector", s.connector.map .str), ("properties", some (propertiesNode s.properties))] := by
    simp [node, record]
  rw [hnode]
  refine holds_record ?_ ?_
  · rw [ofNode?, fields?_bind _ (by decide),
      required_bind _ (holds_str _), defaulted_bind _ (holds_str _), optional_bind _ holds_str,
      defaulted_bind _ (holds_propertiesNode _)]
    all_goals rfl
  · simp [(holds_str _).plain, (holds_propertiesNode _).plain]

/-- The slots of what a revision does. -/
def Spec.slots (s : Spec) : List (String × Option Node) :=
  [("steps", some (listNode Step.node s.steps)), ("configuration", s.configuration.map .str)]

lemma Spec.members_eq (s : Spec) : s.members = present s.slots := by simp [members, slots]

/-- What a revision does is read back from a map that has its members behind others. -/
lemma Spec.ofNode?_members (f : Format) (s : Spec) {others : List (String × Node)}
    (h : ∀ m ∈ others, m.1 ∉ Spec.fieldNames) :
    Spec.ofNode? f (.map (others ++ s.members)) = some s := by
  obtain ⟨m, hm, hfields⟩ := exists_fields?_append f s.slots h (by decide) rfl
  rw [ofNode?, members_eq, hm, Option.bind_eq_bind, Option.bind_some,
    defaulted_bind _ (holds_listNode (Step.holds_node f) _), optional_bind _ holds_str]
  · rfl
  · exact hfields "configuration" (by decide)
  · exact hfields "steps" (by decide)

lemma Spec.plain_members (s : Spec) : plainMembers s.members = true := by
  cases hc : s.configuration <;>
    simp [members, hc, optionalMember, plainMembers, (holds_str _).plain,
      (holds_listNode (Step.holds_node .json) _).plain]

lemma Spec.holds_node (f : Format) (s : Spec) : Holds (Spec.ofNode? f) s.node s :=
  ⟨ofNode?_members f s (List.forall_mem_nil _), s.plain_members, Node.noConfusion⟩

lemma Revision.holds_node (f : Format) (r : Revision) : Holds (Revision.ofNode? f) r.node r := by
  have hnode : r.node = record [("version", r.version.map Version.node),
      ("current_state", some r.currentState.node), ("target_state", some r.targetState.node),
      ("spec", some r.spec.node)] := by
    simp [node, record]
  rw [hnode]
  refine holds_record ?_ ?_
  · rw [ofNode?, fields?_bind _ (by decide),
      optional_bind _ Version.holds_node, required_bind _ (State.holds_node _),
      required_bind _ (State.holds_node _), defaulted_bind _ (r.spec.holds_node f)]
    all_goals rfl
  · simp [Version.plain_node, (State.holds_node _).plain, (r.spec.holds_node f).plain]

/-! ## Tokens, status updates and integrations -/

lemma Token.holds_node (f : Format) (t : Token) : Holds (Token.ofNode? f) t.node t := by
  have hnode : t.node = record [("value", some (.str t.value)),
      ("expires_at", t.expiresAt.map Timestamp.node)] := by
    simp [node, record]
  rw [hnode]
  refine holds_record ?_ ?_
  · rw [ofNode?, fields?_bind _ (by decide),
      required_bind _ (holds_str _), optional_bind _ Timestamp.holds_node]
    all_goals rfl
  · simp [(holds_str _).plain, (Timestamp.holds_node _).plain]

lemma StatusUpdate.holds_node (f : Format) (u : StatusUpdate) :
    Holds (StatusUpdate.ofNode? f) u.node u := by
  -- a failure is written only where there is one
  have hnode : u.node = record [("version", some (Version.node u.version)),
      ("state", some u.state.node), ("message", u.message.map .str),
      ("steps_done", some (listNode .str u.stepsDone)), ("git_repo", u.gitRepo.map .str),
      ("promoted_revision", u.promoted.map Revision.node),
      ("failed", (if u.failed then some true else none).map .bool)] := by
    cases hfailed : u.failed <;> simp [node, record, hfailed, optionalMember]
  have hfailed : (if u.failed then some true else none).getD false = u.failed := by
    cases u.failed <;> rfl
  rw [hnode]
  refine holds_record ?_ ?_
  · rw [ofNode?, fields?_bind _ (by decide),
      required_bind _ (Version.holds_node _), required_bind _ (State.holds_node _),
      optional_bind _ holds_str, defaulted_bind _ (holds_listNode holds_str _),
      optional_bind _ holds_str, optional_bind _ (Revision.holds_node f),
      defaulted_bind_getD _ holds_bool, hfailed]
    all_goals rfl
  · simp [Version.plain_node, (State.holds_node _).plain, (holds_str _).plain,
      (holds_listNode holds_str _).plain, (Revision.holds_node f _).plain, (holds_bool _).plain]

lemma Integration.holds_node (f : Format) (now : Timestamp) (i : Integration) :
    Holds (Integration.ofNode? f now) i.node i := by
  have hnode : i.node = record [("id", some (.str i.id)), ("name", some (.str i.name)),
      ("desired_state", i.desired.map State.node), ("current_state", i.current.map State.node),
      ("status_message", i.statusMessage.map .str),
      ("revisions", some (listNode Revision.node i.revisions)),
      ("draft_revision", i.draft.map Revision.node),
      ("deployed_revision", i.deployed.map Version.node),
      ("steps_done", some (listNode .str i.stepsDone)),
      ("steps", some (listNode Step.node i.steps)), ("token", i.token.map Token.node),
      ("git_repo", i.gitRepo.map .str), ("last_updated", i.lastUpdated.map Timestamp.node),
      ("created_at", some i.createdAt.node)] := by
    simp [node, record]
  rw [hnode]
  refine holds_record ?_ ?_
  · rw [ofNode?, fields?_bind _ (by decide),
      required_bind _ (holds_str _), required_bind _ (holds_str _),
      optional_bind _ State.holds_node, optional_bind _ State.holds_node,
      optional_bind _ holds_str, defaulted_bind _ (holds_listNode (Revision.holds_node f) _),
      optional_bind _ (Revision.holds_node f), optional_bind _ Version.holds_node,
      defaulted_bind _ (holds_listNode holds_str _),
      defaulted_bind _ (holds_listNode (Step.holds_node f) _),
      optional_bind _ (Token.holds_node f), optional_bind _ holds_str,
      optional_bind _ Timestamp.holds_node, defaulted_bind _ (Timestamp.holds_node _)]
    all_goals rfl
  · simp [(State.holds_node _).plain, (holds_str _).plain,
      (holds_listNode (Revision.holds_node f) _).plain, (Revision.holds_node f _).plain,
      Version.plain_node, (holds_listNode holds_str _).plain,
      (holds_listNode (Step.holds_node f) _).plain, (Token.holds_node f _).plain,
      (Timestamp.holds_node _).plain]

end Convergence
