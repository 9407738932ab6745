import Convergence.Proofs.Config.Codec
import Convergence.Proofs.Store.Announcements
import Convergence.Seed
/-!
# Whatever is written as JSON is read back

Records, events, seeds and configurations are written as JSON in two layouts, without white space
and with one member a line.  From either text each of them is read back as it was
(`json_of_every_type`).  Only a duration that is no number of whole seconds is not.
-/

namespace Convergence

open Node Fields

/-! ## Seeds -/

/-- What is missing may be written as null, too. -/
lemma Fields.optional_orNull_bind {α β : Type} {read : Node → Option α} {write : α → Node}
    {m : Fields} {name : String} {o : Option α} (k : Option α → Option β)
    (h : ∀ a, Holds read (write a) a) (hm : m name = some (orNull write o)) :
    (m.optional name read >>= k) = k o := by
  cases o with
  | none =>
    rw [optional, hm]
    rfl
  | some a => exact optional_bind k h hm

lemma plain_orNull {α : Type} {write : α → Node} (h : ∀ a, (write a).plain = true)
    (o : Option α) : (orNull write o).plain = true := by
  cases o with
  | none => rfl
  | some a => exact h a

lemma Seed.holds_node (f : Format) (s : Seed) : Holds (ofNode? f) s.node s := by
  have hnode : s.node = record [("id", some (orNull .str s.id)), ("name", some (.str s.name)),
      ("desired_state", some (orNull State.node s.desired)),
      ("token", some (orNull .str s.token)), ("steps", some (listNode Step.node s.steps))] := rfl
  rw [hnode]
  refine holds_record ?_ ?_
  · rw [ofNode?, fields?_bind _ (by decide),
      optional_orNull_bind _ holds_str, required_bind _ (holds_str _),
      optional_orNull_bind _ State.holds_node, optional_orNull_bind _ holds_str,
      defaulted_bind _ (holds_listNode (Step.holds_node f) _)]
    all_goals rfl
  · simp [plain_orNull fun s => (holds_str s).plain,
      plain_orNull fun s => (State.holds_node s).plain,
      (holds_str _).plain, (holds_listNode (Step.holds_node f) _).plain]

/-! ## Texts -/

namespace Json

/-- Both JSON texts of the node are read as the value. -/
def Gives {α : Type} (read : Node → Option α) (n : Node) (a : α) : Prop :=
  ∀ text ∈ [compact n, pretty n], (read? text).bind read = some a

lemma gives_of_holds {α : Type} {read : Node → Option α} {n : Node} {a : α}
    (h : Holds read n a) : Gives read n a := by
  intro text htext
  rcases List.mem_cons.1 htext with rfl | htext
  · exact h.read?_compact
  · rw [List.mem_singleton.1 htext]
    exact h.read?_pretty

/-- A node gives one value only. -/
lemma gives_iff_of_holds {α : Type} {read : Node → Option α} {n : Node} {a b : α}
    (h : Holds read n a) : Gives read n b ↔ a = b := by
  refine ⟨fun hb => ?_, fun heq => heq ▸ gives_of_holds h⟩
  have hread := (gives_of_holds h _ List.mem_cons_self).symm.trans (hb _ List.mem_cons_self)
  exact Option.some.inj hread

end Json

/-- Every record, event, seed and backend configuration is read back from its JSON texts as it was.
A policy or configuration with durations is, if and only if these are whole seconds. -/
theorem json_of_every_type :
    (∀ t : Token, Json.Gives (Token.ofNode? .json) t.node t)
    ∧ (∀ s : Step, Json.Gives (Step.ofNode? .json) s.node s)
    ∧ (∀ s : Spec, Json.Gives (Spec.ofNode? .json) s.node s)
    ∧ (∀ r : Revision, Json.Gives (Revision.ofNode? .json) r.node r)
    ∧ (∀ u : StatusUpdate, Json.Gives (StatusUpdate.ofNode? .json) u.node u)
    ∧ (∀ e : ChangeEvent, Json.Gives (ChangeEvent.ofNode? .json) e.node e)
    ∧ (∀ (now : Timestamp) (i : Integration),
        Json.Gives (Integration.ofNode? .json now) i.node i)
    ∧ (∀ s : Seed, Json.Gives (Seed.ofNode? .json) s.node s)
    ∧ (∀ c : BackendConfig, Json.Gives (BackendConfig.ofNode? .json) c.node c)
    ∧ (∀ p : RetryPolicy, Json.Gives (RetryPolicy.ofNode? .json) p.node p
        ↔ ∀ d ∈ p.durations, d.subsecond = 0)
    ∧ (∀ c : ControllerConfig, Json.Gives (ControllerConfig.ofNode? .json) c.node c
        ↔ ∀ d ∈ c.durations, d.subsecond = 0)
    ∧ (∀ c : AppConfig, Json.Gives (AppConfig.ofNode? .json) c.node c
        ↔ ∀ d ∈ c.controller.durations, d.subsecond = 0) := by
  refine ⟨fun t => Json.gives_of_holds (t.holds_node _),
    fun s => Json.gives_of_holds (s.holds_node _), fun s => Json.gives_of_holds (s.holds_node _),
    fun r => Json.gives_of_holds (r.holds_node _), fun u => Json.gives_of_holds (u.holds_node _),
    fun e => Json.gives_of_holds (e.holds_node _),
    fun now i => Json.gives_of_holds (i.holds_node _ now),
    fun s => Json.gives_of_holds (s.holds_node _), fun c => Json.gives_of_holds (c.holds_node _),
    fun p => ?_, fun c => ?_, fun c => ?_⟩
  · rw [Json.gives_iff_of_holds (p.holds_node (by decide)), RetryPolicy.truncated_eq_self]
  · rw [Json.gives_iff_of_holds (c.holds_node (by decide)), ControllerConfig.truncated_eq_self]
  · rw [Json.gives_iff_of_holds (c.holds_node (by decide)), AppConfig.truncated_eq_self]

end Convergence
