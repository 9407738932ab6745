import Convergence.Proofs.Backend.Plan
import Convergence.Proofs.Lists
import Convergence.Proofs.Project
/-!
# The backends after any history

A history is a list of what was asked of new backends, and what was done to them from outside.  The
history alone says which error the next call of an operation fails with: the last one that it was
made to fail with, if it was not called since (`Injected`).  The backends keep to that
(`fault?_after`), and what they hold changes only by calls that do not fail
(`Acts.holdSame_of_failed`).

The main statement is `faithful_after`: the counts of calls, who fails and what for, and what
pushes, clone addresses and readiness say, all of it after any history.
-/

namespace Convergence

/-- Both backends. -/
structure Backends where
  provisioner : Provisioner := {}
  sourceControl : SourceControl := {}

/-- The operations that can be made to fail. -/
inductive Operation where
  | provision (call : ProvisionCall)
  | push
deriving DecidableEq, Repr

/-- An error of one of the backends. -/
inductive BackendError where
  | provision (e : ProvisionError)
  | sourceControl (e : SourceControlError)
deriving DecidableEq, Repr

/-- What is asked of the backends, or done to them from outside. -/
inductive BackendAct where
  | create (d : Descriptor)
  | scale (d : Descriptor)
  | isScaled (d : Descriptor)
  | webhookUrl (d : Descriptor) (secret : String)
  | push (repo commit : String) (files : ProjectFiles) (webhookUrl : String)
  | cloneUrl (repo : String)
  | markReady (name : String)
  | setAutoReady (enabled : Bool)
  | failNext (call : ProvisionCall) (e : ProvisionError)
  | failNextPush (e : SourceControlError)

namespace BackendAct

/-- The operation that is called. -/
def operation? : BackendAct → Option Operation
  | create _ => some (.provision .create)
  | scale _ => some (.provision .scale)
  | isScaled _ => some (.provision .isScaled)
  | webhookUrl _ _ => some (.provision .webhookUrl)
  | push _ _ _ _ => some .push
  | cloneUrl _ | markReady _ | setAutoReady _ | failNext _ _ | failNextPush _ => none

/-- The error that the next call of an operation is made to fail with. -/
def injection? : BackendAct → Option (Operation × BackendError)
  | failNext call e => some (.provision call, .provision e)
  | failNextPush e => some (.push, .sourceControl e)
  | _ => none

/-- It calls the operation, or makes its next call fail. -/
def concerns (a : BackendAct) (op : Operation) : Prop :=
  a.operation? = some op ∨ ∃ e, a.injection? = some (op, e)

end BackendAct

/-- What the backends reply. -/
inductive Reply where
  | done
  | flag (answer : Bool)
  | address (url : String)
  | failed (e : BackendError)
deriving DecidableEq, Repr

namespace Reply

/-- The reply of the provisioner. -/
def ofProvision {α : Type} (reply : α → Reply) : Except ProvisionError α → Reply
  | .ok a => reply a
  | .error e => failed (.provision e)

/-- The reply of source control. -/
def ofSourceControl : Except SourceControlError String → Reply
  | .ok url => address url
  | .error e => failed (.sourceControl e)

end Reply

namespace Backends

/-- The reply to an act, and the backends afterwards. -/
def act (b : Backends) : BackendAct → Reply × Backends
  | .create d =>
    let (r, provisioner) := b.provisioner.create d
    (.ofProvision (fun _ => .done) r, { b with provisioner })
  | .scale d =>
    let (r, provisioner) := b.provisioner.scale d
    (.ofProvision (fun _ => .done) r, { b with provisioner })
  | .isScaled d =>
    let (r, provisioner) := b.provisioner.isScaled d
    (.ofProvision .flag r, { b with provisioner })
  | .webhookUrl d secret =>
    let (r, provisioner) := b.provisioner.webhookUrl d secret
    (.ofProvision .address r, { b with provisioner })
  | .push repo commit files webhookUrl =>
    let (r, sourceControl) := b.sourceControl.push repo commit files webhookUrl
    (.ofSourceControl r, { b with sourceControl })
  | .cloneUrl repo => (.ofSourceControl (b.sourceControl.cloneUrl repo), b)
  | .markReady name =>
    let (r, provisioner) := b.provisioner.markReady name
    (.flag r, { b with provisioner })
  | .setAutoReady enabled =>
    (.done, { b with provisioner := { b.provisioner with autoReady := enabled } })
  | .failNext call e => (.done, { b with provisioner := b.provisioner.failNext call e })
  | .failNextPush e => (.done, { b with sourceControl := b.sourceControl.failNext e })

/-- The backends after a history. -/
def after (b : Backends) (acts : List BackendAct) : Backends :=
  acts.foldl (fun b a => (b.act a).2) b

/-- How often an operation was called. -/
def calls (b : Backends) : Operation → Nat
  | .provision call => b.provisioner.calls call
  | .push => b.sourceControl.pushes

/-- The error that the next call of an operation fails with. -/
def fault? (b : Backends) : Operation → Option BackendError
  | .provision call => (b.provisioner.gate call).fault.map .provision
  | .push => b.sourceControl.gate.fault.map .sourceControl

/-- One more call of an operation, which uses up its error. -/
def enter (b : Backends) : Operation → Backends
  | .provision call => { b with provisioner := (b.provisioner.enter call).2 }
  | .push =>
    { b with sourceControl := { b.sourceControl with gate := b.sourceControl.gate.enter.2 } }

/-- The backends once a call has begun; an act that calls no operation begins nothing. -/
def begun (b : Backends) (a : BackendAct) : Backends :=
  match a.operation? with
  | some op => b.enter op
  | none => b

/-- Puts a deployment under a name. -/
def place (b : Backends) (name : String) (m : Deployment) : Backends :=
  { b with provisioner := b.provisioner.place name m }

/-- Puts a repository under a name. -/
def store (b : Backends) (repo : String) (r : Repository) : Backends :=
  { b with
    sourceControl :=
      { b.sourceControl with repositories := b.sourceControl.repositories.insert repo r } }

/-! ## What an act can come to -/

/-- What an act can come to: the reply, and the backends afterwards. -/
inductive Acts (b : Backends) : BackendAct → Reply → Backends → Prop where
  /-- The call was made to fail. -/
  | faults {a : BackendAct} {op : Operation} {e : BackendError} (hcalled : a.operation? = some op)
      (hfault : b.fault? op = some e) : Acts b a (.failed e) (b.begun a)
  | creates {d : Descriptor} (hfault : b.fault? (.provision .create) = none) :
      Acts b (.create d) .done
        ((b.begun (.create d)).place d.name (b.provisioner.fresh d))
  /-- There is nothing to scale. -/
  | absent {d : Descriptor} (hfault : b.fault? (.provision .scale) = none)
      (hm : b.provisioner.deployment? d.name = none) :
      Acts b (.scale d) (.failed (.provision (.notFound d.name))) (b.begun (.scale d))
  /-- Another revision is deployed, and left alone. -/
  | spares {d : Descriptor} {m : Deployment} (hfault : b.fault? (.provision .scale) = none)
      (hm : b.provisioner.deployment? d.name = some m) (hother : m.revision ≠ d.revision) :
      Acts b (.scale d) .done (b.begun (.scale d))
  | scales {d : Descriptor} {m : Deployment} (hfault : b.fault? (.provision .scale) = none)
      (hm : b.provisioner.deployment? d.name = some m) (hrevision : m.revision = d.revision) :
      Acts b (.scale d) .done ((b.begun (.scale d)).place d.name
        { m with
          replicas := d.replicas
          readyReplicas := b.provisioner.readyAtOnce d.replicas })
  | answers {d : Descriptor} (hfault : b.fault? (.provision .isScaled) = none) :
      Acts b (.isScaled d) (.flag ((b.provisioner.deployment? d.name).any (·.runs d)))
        (b.begun (.isScaled d))
  | addresses {d : Descriptor} {secret : String}
      (hfault : b.fault? (.provision .webhookUrl) = none) :
      Acts b (.webhookUrl d secret) (.address (b.provisioner.webhookAddress d.name secret))
        (b.begun (.webhookUrl d secret))
  | pushes {repo commit : String} {files : ProjectFiles} {webhookUrl : String}
      (hfault : b.fault? .push = none) :
      Acts b (.push repo commit files webhookUrl) (.address (b.sourceControl.cloneAddress repo))
        ((b.begun (.push repo commit files webhookUrl)).store repo
          (((b.sourceControl.repository? repo).getD {}).pushed commit files webhookUrl))
  | clones {repo : String} {r : Repository} (hr : b.sourceControl.repository? repo = some r) :
      Acts b (.cloneUrl repo) (.address (b.sourceControl.cloneAddress repo)) b
  | unknown {repo : String} (hr : b.sourceControl.repository? repo = none) :
      Acts b (.cloneUrl repo) (.failed (.sourceControl (.repositoryNotFound repo))) b
  | marks {name : String} {m : Deployment} (hm : b.provisioner.deployment? name = some m) :
      Acts b (.markReady name) (.flag true) (b.place name { m with readyReplicas := m.replicas })
  | unmarked {name : String} (hm : b.provisioner.deployment? name = none) :
      Acts b (.markReady name) (.flag false) b
  | setAutoReady {enabled : Bool} : Acts b (.setAutoReady enabled) .done
      { b with provisioner := { b.provisioner with autoReady := enabled } }
  | failNext {call : ProvisionCall} {e : ProvisionError} : Acts b (.failNext call e) .done
      { b with provisioner := b.provisioner.failNext call e }
  | failNextPush {e : SourceControlError} : Acts b (.failNextPush e) .done
      { b with sourceControl := b.sourceControl.failNext e }

variable {b b' : Backends} {a : BackendAct} {op : Operation} {e : BackendError} {r : Reply}

/-- A call of the provisioner fails with the error it was made to fail with, or goes on. -/
lemma provisioner_enter (b : Backends) (call : ProvisionCall) :
    (∃ e, b.fault? (.provision call) = some (.provision e) ∧
        b.provisioner.enter call = (some e, (b.enter (.provision call)).provisioner)) ∨
      b.fault? (.provision call) = none ∧
        b.provisioner.enter call = (none, (b.enter (.provision call)).provisioner) := by
  cases hg : (b.provisioner.gate call).fault with
  | some e => exact Or.inl ⟨e, by simp [fault?, hg], Prod.ext hg rfl⟩
  | none => exact Or.inr ⟨by simp [fault?, hg], Prod.ext hg rfl⟩

/-- An act comes to one of the cases. -/
theorem acts_act (b : Backends) (a : BackendAct) : Acts b a (b.act a).1 (b.act a).2 := by
  cases a with
  | create d =>
    rcases b.provisioner_enter .create with ⟨e, hfault, henter⟩ | ⟨hfault, henter⟩
    · simp only [act, Provisioner.create, henter]
      exact .faults rfl hfault
    · simp only [act, Provisioner.create, henter]
      exact .creates hfault
  | scale d =>
    rcases b.provisioner_enter .scale with ⟨e, hfault, henter⟩ | ⟨hfault, henter⟩
    · simp only [act, Provisioner.scale, henter]
      exact .faults rfl hfault
    · have hsame : (b.enter (.provision .scale)).provisioner.deployment? d.name
          = b.provisioner.deployment? d.name := rfl
      simp only [act, Provisioner.scale, henter, hsame]
      cases hm : b.provisioner.deployment? d.name with
      | none => exact .absent hfault hm
      | some m =>
        by_cases hrevision : m.revision = d.revision
        · simp only [if_pos hrevision]
          exact .scales hfault hm hrevision
        · simp only [if_neg hrevision]
          exact .spares hfault hm hrevision
  | isScaled d =>
    rcases b.provisioner_enter .isScaled with ⟨e, hfault, henter⟩ | ⟨hfault, henter⟩
    · simp only [act, Provisioner.isScaled, henter]
      exact .faults rfl hfault
    · simp only [act, Provisioner.isScaled, henter]
      exact .answers hfault
  | webhookUrl d secret =>
    rcases b.provisioner_enter .webhookUrl with ⟨e, hfault, henter⟩ | ⟨hfault, henter⟩
    · simp only [act, Provisioner.webhookUrl, henter]
      exact .faults rfl hfault
    · simp only [act, Provisioner.webhookUrl, henter]
      exact .addresses hfault
  | push repo commit files webhookUrl =>
    cases hg : b.sourceControl.gate.fault with
    | some e =>
      simp only [act, SourceControl.push, Gate.enter, hg]
      have hfault : b.fault? .push = some (.sourceControl e) := by simp [fault?, hg]
      exact .faults rfl hfault
    | none =>
      simp only [act, SourceControl.push, Gate.enter, hg]
      exact .pushes (by simp [fault?, hg])
  | cloneUrl repo =>
    cases hr : b.sourceControl.repository? repo with
    | some r =>
      have hthere : b.sourceControl.repositories.contains repo = true :=
        Option.isSome_iff_exists.2 ⟨r, hr⟩
      simp only [act, SourceControl.cloneUrl, if_pos hthere]
      exact .clones hr
    | none =>
      have hthere : ¬ b.sourceControl.repositories.contains repo = true := by
        rw [Dict.contains, ← SourceControl.repository?, hr]
        simp
      simp only [act, SourceControl.cloneUrl, if_neg hthere]
      exact .unknown hr
  | markReady name =>
    cases hm : b.provisioner.deployment? name with
    | some m =>
      simp only [act, Provisioner.markReady, hm]
      exact .marks hm
    | none =>
      simp only [act, Provisioner.markReady, hm]
      exact .unmarked hm
  | setAutoReady enabled => exact .setAutoReady
  | failNext call e => exact .failNext
  | failNextPush e => exact .failNextPush

/-! ## Counts and faults -/

lemma calls_begun (b : Backends) (a : BackendAct) (op : Operation) :
    (b.begun a).calls op = b.calls op + if a.operation? = some op then 1 else 0 := by
  cases hcalled : a.operation? with
  | none => simp [begun, hcalled]
  | some entered =>
    simp only [begun, hcalled, Option.some_inj]
    cases entered with
    | provision call =>
      cases op with
      | provision call' =>
        have henter := b.provisioner.calls_enter call call'
        simpa [calls, enter, eq_comm (a := call)] using henter
      | push => rfl
    | push =>
      cases op with
      | provision call => rfl
      | push => rfl

/-- A call uses up the error of its operation, and no other. -/
lemma fault?_begun (b : Backends) (a : BackendAct) (op : Operation) :
    (b.begun a).fault? op = if a.operation? = some op then none else b.fault? op := by
  cases hcalled : a.operation? with
  | none => simp [begun, hcalled]
  | some entered =>
    simp only [begun, hcalled, Option.some_inj]
    cases entered with
    | provision call =>
      cases op with
      | provision call' =>
        by_cases hcall : call' = call
        · subst hcall
          simp [fault?, enter, Provisioner.enter, Gate.enter]
        · simp [fault?, enter, Provisioner.enter, hcall, Ne.symm hcall]
      | push => rfl
    | push =>
      cases op with
      | provision call => rfl
      | push => rfl

@[simp] lemma calls_place (b : Backends) (name : String) (m : Deployment) (op : Operation) :
    (b.place name m).calls op = b.calls op := by
  cases op <;> rfl

@[simp] lemma fault?_place (b : Backends) (name : String) (m : Deployment) (op : Operation) :
    (b.place name m).fault? op = b.fault? op := by
  cases op <;> rfl

@[simp] lemma calls_store (b : Backends) (repo : String) (r : Repository) (op : Operation) :
    (b.store repo r).calls op = b.calls op := by
  cases op <;> rfl

@[simp] lemma fault?_store (b : Backends) (repo : String) (r : Repository) (op : Operation) :
    (b.store repo r).fault? op = b.fault? op := by
  cases op <;> rfl

@[simp] lemma calls_failNext (b : Backends) (call : ProvisionCall) (e : ProvisionError)
    (op : Operation) :
    ({ b with provisioner := b.provisioner.failNext call e } : Backends).calls op = b.calls op := by
  cases op with
  | provision call' =>
    by_cases hcall : call' = call
    · simp [calls, Provisioner.calls, Provisioner.failNext, Gate.failNext, hcall]
    · simp [calls, Provisioner.calls, Provisioner.failNext, hcall]
  | push => rfl

@[simp] lemma fault?_failNext (b : Backends) (call : ProvisionCall) (e : ProvisionError)
    (op : Operation) :
    ({ b with provisioner := b.provisioner.failNext call e } : Backends).fault? op
      = if op = .provision call then some (.provision e) else b.fault? op := by
  cases op with
  | provision call' =>
    by_cases hcall : call' = call
    · simp [fault?, Provisioner.failNext, Gate.failNext, hcall]
    · simp [fault?, Provisioner.failNext, hcall]
  | push => rfl

/-- A call counts for its operation, whatever comes of it. -/
lemma Acts.calls_eq (h : Acts b a r b') (op : Operation) :
    b'.calls op = b.calls op + if a.operation? = some op then 1 else 0 := by
  rw [← calls_begun]
  cases h with
  | faults _ _ => rfl
  | creates _ => exact calls_place ..
  | absent _ _ => rfl
  | spares _ _ _ => rfl
  | scales _ _ _ => exact calls_place ..
  | answers _ => rfl
  | addresses _ => rfl
  | pushes _ => exact calls_store ..
  | clones _ => rfl
  | unknown _ => rfl
  | marks _ => exact calls_place ..
  | unmarked _ => rfl
  | setAutoReady => cases op <;> rfl
  | failNext => exact calls_failNext ..
  | failNextPush => cases op <;> rfl

lemma fault?_begun_eq_some (b : Backends) (hno : a.injection? = none) :
    (b.begun a).fault? op = some e ↔
      a.injection? = some (op, e) ∨ b.fault? op = some e ∧ ¬ a.concerns op := by
  rw [fault?_begun]
  by_cases hcalled : a.operation? = some op
  · simp [hno, hcalled, BackendAct.concerns]
  · simp [hno, hcalled, BackendAct.concerns]

/-- The next call of an operation fails with what this act makes it fail with, or with what it was
to fail with before and this act leaves alone. -/
lemma Acts.fault?_eq_some (h : Acts b a r b') :
    b'.fault? op = some e ↔
      a.injection? = some (op, e) ∨ b.fault? op = some e ∧ ¬ a.concerns op := by
  cases h with
  | @faults a _ _ hcalled _ =>
    refine b.fault?_begun_eq_some ?_
    cases a <;> simp_all [BackendAct.operation?, BackendAct.injection?]
  | creates _ =>
    rw [fault?_place]
    exact b.fault?_begun_eq_some rfl
  | absent _ _ => exact b.fault?_begun_eq_some rfl
  | spares _ _ _ => exact b.fault?_begun_eq_some rfl
  | scales _ _ _ =>
    rw [fault?_place]
    exact b.fault?_begun_eq_some rfl
  | answers _ => exact b.fault?_begun_eq_some rfl
  | addresses _ => exact b.fault?_begun_eq_some rfl
  | pushes _ =>
    rw [fault?_store]
    exact b.fault?_begun_eq_some rfl
  | clones _ => exact b.fault?_begun_eq_some (a := .cloneUrl _) rfl
  | unknown _ => exact b.fault?_begun_eq_some (a := .cloneUrl _) rfl
  | marks _ =>
    rw [fault?_place]
    exact b.fault?_begun_eq_some (a := .markReady _) rfl
  | unmarked _ => exact b.fault?_begun_eq_some (a := .markReady _) rfl
  | @setAutoReady enabled =>
    have hsame : ({ b with provisioner := { b.provisioner with autoReady := enabled } } :
        Backends).fault? op = b.fault? op := by cases op <;> rfl
    rw [hsame]
    exact b.fault?_begun_eq_some (a := .setAutoReady enabled) rfl
  | @failNext call e' =>
    rw [fault?_failNext]
    by_cases hop : op = .provision call
    · subst hop
      simp [BackendAct.injection?, BackendAct.concerns]
    · simp [BackendAct.injection?, BackendAct.concerns, BackendAct.operation?, hop, Ne.symm hop]
  | @failNextPush e' =>
    cases op with
    | provision call =>
      simp [fault?, BackendAct.injection?, BackendAct.concerns, BackendAct.operation?]
    | push =>
      simp [fault?, SourceControl.failNext, Gate.failNext, BackendAct.injection?,
        BackendAct.concerns]

/-! ## Who fails -/

/-- A call fails as it was made to, or scales or clones what is not there. -/
lemma Acts.failed (h : Acts b a (.failed e) b') :
    (∃ op, a.operation? = some op ∧ b.fault? op = some e) ∨
      (∃ d, a = .scale d ∧ b.fault? (.provision .scale) = none ∧
        b.provisioner.deployment? d.name = none ∧ e = .provision (.notFound d.name)) ∨
      ∃ repo, a = .cloneUrl repo ∧ b.sourceControl.repository? repo = none ∧
        e = .sourceControl (.repositoryNotFound repo) := by
  cases h with
  | faults hcalled hfault => exact Or.inl ⟨_, hcalled, hfault⟩
  | absent hfault hm => exact Or.inr (Or.inl ⟨_, rfl, hfault, hm, rfl⟩)
  | unknown hr => exact Or.inr (Or.inr ⟨_, rfl, hr, rfl⟩)

/-- A call that was made to fail does fail. -/
lemma act_of_fault (hcalled : a.operation? = some op) (hfault : b.fault? op = some e) :
    (b.act a).1 = .failed e := by
  have h := acts_act b a
  generalize (b.act a).1 = r, (b.act a).2 = b' at h
  cases h <;> simp_all [BackendAct.operation?]

lemma act_scale_of_absent {d : Descriptor} (hfault : b.fault? (.provision .scale) = none)
    (hm : b.provisioner.deployment? d.name = none) :
    (b.act (.scale d)).1 = .failed (.provision (.notFound d.name)) := by
  have h := acts_act b (.scale d)
  generalize (b.act (.scale d)).1 = r, (b.act (.scale d)).2 = b' at h
  cases h <;> simp_all [BackendAct.operation?]

/-- Whoever asks where to clone a repository is told, if there is one. -/
lemma act_cloneUrl {repo : String} : (b.act (.cloneUrl repo)).1 =
    if b.sourceControl.repository? repo = none
      then .failed (.sourceControl (.repositoryNotFound repo))
      else .address (b.sourceControl.cloneAddress repo) := by
  have h := acts_act b (.cloneUrl repo)
  generalize (b.act (.cloneUrl repo)).1 = r, (b.act (.cloneUrl repo)).2 = b' at h
  cases h <;> simp_all [BackendAct.operation?]

/-! ## What the backends hold -/

/-- The backends hold the same deployments and repositories. -/
def HoldSame (b b' : Backends) : Prop :=
  b'.provisioner.deployments = b.provisioner.deployments ∧
    b'.sourceControl.repositories = b.sourceControl.repositories

lemma holdSame_begun (b : Backends) (a : BackendAct) : HoldSame b (b.begun a) := by
  rw [begun]
  cases a.operation? with
  | none => exact ⟨rfl, rfl⟩
  | some op => cases op <;> exact ⟨rfl, rfl⟩

/-- A call that fails changes nothing that the backends hold. -/
lemma Acts.holdSame_of_failed (h : Acts b a (.failed e) b') : HoldSame b b' := by
  cases h with
  | faults _ _ => exact b.holdSame_begun a
  | absent _ _ => exact b.holdSame_begun _
  | unknown _ => exact ⟨rfl, rfl⟩

/-- A deployment whose replicas are all ready, or none of them. -/
def AllOrNone (m : Deployment) : Prop := m.readyReplicas = 0 ∨ m.readyReplicas = m.replicas

/-- An act leaves the deployments alone, or puts in one whose replicas are all ready or none. -/
lemma Acts.deployments_cases (h : Acts b a r b') :
    b'.provisioner.deployments = b.provisioner.deployments ∨
      ∃ name m, AllOrNone m ∧
        b'.provisioner.deployments = b.provisioner.deployments.insert name m := by
  have hready : ∀ n : Nat, b.provisioner.readyAtOnce n = 0 ∨ b.provisioner.readyAtOnce n = n := by
    intro n
    rw [Provisioner.readyAtOnce]
    split
    · exact Or.inr rfl
    · exact Or.inl rfl
  cases h with
  | faults _ _ => exact Or.inl (b.holdSame_begun a).1
  | creates _ => exact Or.inr ⟨_, b.provisioner.fresh _, hready _, rfl⟩
  | absent _ _ => exact Or.inl rfl
  | spares _ _ _ => exact Or.inl rfl
  | @scales d m _ _ _ =>
    refine Or.inr ⟨d.name, { m with
      replicas := d.replicas
      readyReplicas := b.provisioner.readyAtOnce d.replicas }, hready _, rfl⟩
  | answers _ => exact Or.inl rfl
  | addresses _ => exact Or.inl rfl
  | pushes _ => exact Or.inl rfl
  | clones _ => exact Or.inl rfl
  | unknown _ => exact Or.inl rfl
  | marks _ => exact Or.inr ⟨_, _, Or.inr rfl, rfl⟩
  | unmarked _ => exact Or.inl rfl
  | setAutoReady => exact Or.inl rfl
  | failNext => exact Or.inl rfl
  | failNextPush => exact Or.inl rfl

/-- A repository before and after a push: files that are pushed are as pushed and the others as they
were, and there is one commit more. -/
structure Commits (before after : Repository) (commit : String) (files : ProjectFiles) : Prop where
  pushed : ∀ name content, files.find? name = some content → after.files.find? name = some content
  kept : ∀ name, files.find? name = none → after.files.find? name = before.files.find? name
  commits : after.commits = before.commits ++ [commit]

lemma commits_pushed (before : Repository) (commit : String) (files : ProjectFiles)
    (webhookUrl : String) :
    Commits before (before.pushed commit files webhookUrl) commit files where
  pushed := fun _ _ hfile => Dict.find?_union_of_find? before.files hfile
  kept := fun _ hnone => Dict.find?_union_of_find?_eq_none before.files hnone
  commits := rfl

/-- The act is a push to the repository, and it is granted. -/
def Grants (b : Backends) (a : BackendAct) (repo : String) : Prop :=
  ∃ commit files webhookUrl address, a = .push repo commit files webhookUrl ∧
    (b.act a).1 = .address address

/-- An act leaves the repositories alone, or is a push that is granted. -/
lemma repositories_act_cases (b : Backends) (a : BackendAct) :
    ((b.act a).2.sourceControl.repositories = b.sourceControl.repositories ∧
        ∀ repo, ¬ b.Grants a repo) ∨
      ∃ repo commit files webhookUrl, a = .push repo commit files webhookUrl ∧ b.Grants a repo ∧
        (b.act a).2.sourceControl.repositories = b.sourceControl.repositories.insert repo
          (((b.sourceControl.repository? repo).getD {}).pushed commit files webhookUrl) := by
  have h := acts_act b a
  simp only [Grants]
  generalize (b.act a).1 = r, (b.act a).2 = b' at h ⊢
  cases h with
  | faults _ _ => exact Or.inl ⟨(b.holdSame_begun a).2, by simp⟩
  | pushes _ => exact Or.inr ⟨_, _, _, _, rfl, ⟨_, _, _, _, rfl, rfl⟩, rfl⟩
  | creates _ => exact Or.inl ⟨rfl, by simp⟩
  | absent _ _ => exact Or.inl ⟨rfl, by simp⟩
  | spares _ _ _ => exact Or.inl ⟨rfl, by simp⟩
  | scales _ _ _ => exact Or.inl ⟨rfl, by simp⟩
  | answers _ => exact Or.inl ⟨rfl, by simp⟩
  | addresses _ => exact Or.inl ⟨rfl, by simp⟩
  | clones _ => exact Or.inl ⟨rfl, by simp⟩
  | unknown _ => exact Or.inl ⟨rfl, by simp⟩
  | marks _ => exact Or.inl ⟨rfl, by simp⟩
  | unmarked _ => exact Or.inl ⟨rfl, by simp⟩
  | setAutoReady => exact Or.inl ⟨rfl, by simp⟩
  | failNext => exact Or.inl ⟨rfl, by simp⟩
  | failNextPush => exact Or.inl ⟨rfl, by simp⟩

/-- A repository is there once a push to it was granted. -/
lemma repository?_act_eq_none (b : Backends) (a : BackendAct) (repo : String) :
    (b.act a).2.sourceControl.repository? repo = none ↔
      b.sourceControl.repository? repo = none ∧ ¬ b.Grants a repo := by
  rcases b.repositories_act_cases a with
    ⟨hsame, hno⟩ | ⟨repo', commit, files, webhookUrl, rfl, hgrants, hrepositories⟩
  · simp [SourceControl.repository?, hsame, hno repo]
  · rw [SourceControl.repository?, hrepositories, Dict.find?_insert]
    by_cases hrepo : repo = repo'
    · subst hrepo
      simp [hgrants]
    · have hother : ¬ b.Grants (.push repo' commit files webhookUrl) repo := by
        rintro ⟨_, _, _, _, heq, -⟩
        cases heq
        exact hrepo rfl
      simp [hrepo, hother, SourceControl.repository?]

/-! ## Histories -/

/-- New backends with their settings: they hold nothing, and were not called yet. -/
def fresh (autoReady : Bool) (api space baseUrl : String) : Backends where
  provisioner := { autoReady, api, space }
  sourceControl := { baseUrl }

/-- The backends hold nothing, and were not called yet. -/
structure New (b : Backends) : Prop where
  deployments : b.provisioner.deployments = .empty
  repositories : b.sourceControl.repositories = .empty
  calls : ∀ op, b.calls op = 0
  fault : ∀ op, b.fault? op = none

lemma new_fresh (autoReady : Bool) (api space baseUrl : String) :
    (fresh autoReady api space baseUrl).New where
  deployments := rfl
  repositories := rfl
  calls := fun op => by cases op <;> rfl
  fault := fun op => by cases op <;> rfl

/-- The operation was made to fail with this error, and neither called nor made to fail since. -/
def Injected (acts : List BackendAct) (op : Operation) (e : BackendError) : Prop :=
  ∃ before a later, acts = before ++ a :: later ∧ a.injection? = some (op, e) ∧
    ∀ x ∈ later, ¬ x.concerns op

/-- A push to the repository was granted. -/
def Granted (start : Backends) (acts : List BackendAct) (repo : String) : Prop :=
  ∃ before a later, acts = before ++ a :: later ∧ (start.after before).Grants a repo

/-- Who fails after a history, and what for. -/
inductive Fails (start : Backends) (acts : List BackendAct) : BackendAct → BackendError → Prop where
  | injected {a : BackendAct} {op : Operation} {e : BackendError}
      (hcalled : a.operation? = some op) (hinjected : Injected acts op e) : Fails start acts a e
  /-- There is nothing to scale. -/
  | absent {d : Descriptor} (hnone : ∀ e, ¬ Injected acts (.provision .scale) e)
      (hm : (start.after acts).provisioner.deployment? d.name = none) :
      Fails start acts (.scale d) (.provision (.notFound d.name))
  /-- There is nothing to clone. -/
  | unknown {repo : String} (hnever : ¬ Granted start acts repo) :
      Fails start acts (.cloneUrl repo) (.sourceControl (.repositoryNotFound repo))

variable {start : Backends} {acts : List BackendAct}

@[simp] lemma after_nil (b : Backends) : b.after [] = b := rfl

lemma after_concat (b : Backends) (acts : List BackendAct) (a : BackendAct) :
    b.after (acts ++ [a]) = ((b.after acts).act a).2 := by
  rw [after, List.foldl_concat, ← after]

lemma injected_concat : Injected (acts ++ [a]) op e ↔
    a.injection? = some (op, e) ∨ Injected acts op e ∧ ¬ a.concerns op := by
  constructor
  · rintro ⟨before, x, later, hsplit, hx, hlater⟩
    rcases append_cons_eq_concat.1 hsplit with ⟨later', rfl, rfl⟩ | ⟨rfl, rfl, rfl⟩
    · refine Or.inr ⟨⟨before, x, later', rfl, hx, fun y hy => ?_⟩, ?_⟩
      · exact hlater y (List.mem_append_left _ hy)
      · exact hlater a (by simp)
    · exact Or.inl hx
  · rintro (ha | ⟨⟨before, x, later, rfl, hx, hlater⟩, ha⟩)
    · exact ⟨acts, a, [], rfl, ha, by simp⟩
    · refine ⟨before, x, later ++ [a], by simp, hx, fun y hy => ?_⟩
      rcases List.mem_append.1 hy with hy | hy
      · exact hlater y hy
      · exact List.mem_singleton.1 hy ▸ ha

lemma granted_concat {repo : String} : Granted start (acts ++ [a]) repo ↔
    Granted start acts repo ∨ (start.after acts).Grants a repo := by
  constructor
  · rintro ⟨before, x, later, hsplit, hx⟩
    rcases append_cons_eq_concat.1 hsplit with ⟨later', rfl, -⟩ | ⟨rfl, rfl, -⟩
    · exact Or.inl ⟨before, x, later', rfl, hx⟩
    · exact Or.inr hx
  · rintro (⟨before, x, later, rfl, hx⟩ | ha)
    · exact ⟨before, x, later ++ [a], by simp, hx⟩
    · exact ⟨acts, a, [], rfl, ha⟩

namespace New

lemma calls_after (h : start.New) (acts : List BackendAct) (op : Operation) :
    (start.after acts).calls op = acts.countP (·.operation? = some op) := by
  induction acts using List.reverseRecOn with
  | nil => exact h.calls op
  | append_singleton acts a ih =>
    rw [after_concat, (acts_act _ a).calls_eq op, ih, List.countP_append, List.countP_singleton]
    simp

/-- The next call of an operation fails with the error that the history says. -/
lemma fault?_after (h : start.New) :
    (start.after acts).fault? op = some e ↔ Injected acts op e := by
  induction acts using List.reverseRecOn with
  | nil => simp [h.fault, Injected]
  | append_singleton acts a ih =>
    rw [after_concat, (acts_act _ a).fault?_eq_some, injected_concat, ih]

lemma fault?_after_eq_none (h : start.New) :
    (start.after acts).fault? op = none ↔ ∀ e, ¬ Injected acts op e := by
  simp only [Option.eq_none_iff_forall_ne_some, Ne, h.fault?_after]

lemma repository?_after_eq_none (h : start.New) {repo : String} :
    (start.after acts).sourceControl.repository? repo = none ↔ ¬ Granted start acts repo := by
  induction acts using List.reverseRecOn with
  | nil => simp [Granted, SourceControl.repository?, h.repositories]
  | append_singleton acts a ih =>
    rw [after_concat, repository?_act_eq_none, ih, granted_concat, not_or]

lemma allOrNone_after (h : start.New) {name : String} {m : Deployment}
    (hm : (start.after acts).provisioner.deployment? name = some m) : AllOrNone m := by
  induction acts using List.reverseRecOn with
  | nil => simp [Provisioner.deployment?, h.deployments] at hm
  | append_singleton acts a ih =>
    rw [after_concat, Provisioner.deployment?] at hm
    rcases (acts_act _ a).deployments_cases with hsame | ⟨name', m', hm', hinsert⟩
    · exact ih (by rwa [hsame] at hm)
    · rw [hinsert, Dict.find?_insert] at hm
      split at hm
      · cases hm
        exact hm'
      · exact ih hm

/-- Who fails, as the history says it. -/
lemma failed_iff (h : start.New) :
    ((start.after acts).act a).1 = .failed e ↔ Fails start acts a e := by
  constructor
  · intro hfailed
    have hacts := acts_act (start.after acts) a
    rw [hfailed] at hacts
    rcases hacts.failed with
      ⟨op, hcalled, hfault⟩ | ⟨d, rfl, hfault, hm, rfl⟩ | ⟨repo, rfl, hr, rfl⟩
    · exact .injected hcalled (h.fault?_after.1 hfault)
    · exact .absent (h.fault?_after_eq_none.1 hfault) hm
    · exact .unknown (h.repository?_after_eq_none.1 hr)
  · intro hfails
    cases hfails with
    | injected hcalled hinjected => exact act_of_fault hcalled (h.fault?_after.2 hinjected)
    | absent hnone hm => exact act_scale_of_absent (h.fault?_after_eq_none.2 hnone) hm
    | unknown hnever => rw [act_cloneUrl, if_pos (h.repository?_after_eq_none.2 hnever)]

end New

/-- The answer to the question whether a deployment is scaled. -/
lemma answer_iff {d : Descriptor} {answer : Bool} (h : (b.act (.isScaled d)).1 = .flag answer) :
    answer = true ↔ ∃ m, b.provisioner.deployment? d.name = some m ∧ m.revision = d.revision ∧
      m.replicas = d.replicas ∧ m.readyReplicas = m.replicas := by
  have hacts := acts_act b (.isScaled d)
  rw [h] at hacts
  generalize (b.act (.isScaled d)).2 = b' at hacts
  cases hacts with
  | answers hfault =>
    rw [Option.any_eq_true]
    refine exists_congr fun m => and_congr_right fun _ => ?_
    simp only [Deployment.runs, Bool.and_eq_true, beq_iff_eq, and_assoc]
    refine and_congr_right fun _ => and_congr_right fun hreplicas => ?_
    rw [hreplicas]

/-- What a push that is granted does. -/
lemma commits_of_push {repo commit webhookUrl address : String} {files : ProjectFiles}
    (h : (b.act (.push repo commit files webhookUrl)).1 = .address address) :
    (∃ after, (b.act (.push repo commit files webhookUrl)).2.sourceControl.repository? repo
        = some after ∧
      Commits ((b.sourceControl.repository? repo).getD {}) after commit files) ∧
      ∀ other ≠ repo, (b.act (.push repo commit files webhookUrl)).2.sourceControl.repository? other
        = b.sourceControl.repository? other := by
  rcases b.repositories_act_cases (.push repo commit files webhookUrl) with
    ⟨-, hno⟩ | ⟨_, _, _, _, heq, -, hrepositories⟩
  · exact absurd ⟨_, _, _, _, rfl, h⟩ (hno repo)
  · cases heq
    simp only [SourceControl.repository?, hrepositories]
    refine ⟨⟨_, Dict.find?_insert_self .., commits_pushed ..⟩, fun other hother => ?_⟩
    exact Dict.find?_insert_of_ne _ _ hother

/-! ## The whole -/

/-- What the backends have come to after a history, and what the next act comes to. -/
structure Faithful (start : Backends) (acts : List BackendAct) : Prop where
  /-- Every call counts, also one that fails. -/
  counted : ∀ op, (start.after acts).calls op = acts.countP (·.operation? = some op)
  /-- A call fails as it was last made to if it was not called since, or for want of what it is
  about. -/
  failed : ∀ a e, ((start.after acts).act a).1 = .failed e ↔ Fails start acts a e
  /-- A call that fails changes nothing that is held. -/
  unchanged : ∀ a e, ((start.after acts).act a).1 = .failed e →
    HoldSame (start.after acts) (start.after (acts ++ [a]))
  /-- A push that is granted commits to its repository, and to no other. -/
  pushed : ∀ repo commit files webhookUrl address,
    ((start.after acts).act (.push repo commit files webhookUrl)).1 = .address address →
    let b := start.after acts
    let b' := start.after (acts ++ [.push repo commit files webhookUrl])
    (∃ after, b'.sourceControl.repository? repo = some after ∧
        Commits ((b.sourceControl.repository? repo).getD {}) after commit files) ∧
      ∀ other ≠ repo, b'.sourceControl.repository? other = b.sourceControl.repository? other
  /-- What was pushed to can be cloned. -/
  cloned : ∀ repo, (∃ address, ((start.after acts).act (.cloneUrl repo)).1 = .address address) ↔
    Granted start acts repo
  scaled : ∀ d answer, ((start.after acts).act (.isScaled d)).1 = .flag answer →
    (answer = true ↔ ∃ m, (start.after acts).provisioner.deployment? d.name = some m ∧
      m.revision = d.revision ∧ m.replicas = d.replicas ∧ m.readyReplicas = m.replicas)
  ready : ∀ name m, (start.after acts).provisioner.deployment? name = some m →
    m.readyReplicas = 0 ∨ m.readyReplicas = m.replicas

/-- New backends, whatever their settings, count and fail their calls and keep what they hold as
they should, after every history. -/
theorem faithful_after (autoReady : Bool) (api space baseUrl : String) (acts : List BackendAct) :
    Faithful (fresh autoReady api space baseUrl) acts := by
  have hnew := new_fresh autoReady api space baseUrl
  exact {
    counted := hnew.calls_after acts
    failed := fun _ _ => hnew.failed_iff
    unchanged := fun a e hfailed => by
      have hacts := acts_act ((fresh autoReady api space baseUrl).after acts) a
      rw [hfailed] at hacts
      rw [after_concat]
      exact hacts.holdSame_of_failed
    pushed := fun repo commit files webhookUrl address hgranted => by
      simp only [after_concat]
      exact commits_of_push hgranted
    cloned := fun repo => by
      rw [act_cloneUrl, ← not_iff_not (b := Granted _ _ _), ← hnew.repository?_after_eq_none]
      split
      · next hnone => simp [hnone]
      · next hsome => simp [hsome]
    scaled := fun _ _ => answer_iff
    ready := fun _ _ => hnew.allOrNone_after }

-- an error that was not met yet is replaced by a later one, and is met once
example :
    let d : Descriptor := { name := "orders", revision := 1 }
    let b := (fresh true "https://p" "ns" "https://g").after
      [.failNext .create (.failed "create" "first"), .failNext .create (.notFound "second")]
    let b' := (b.act (.create d)).2
    (b.act (.create d)).1 = .failed (.provision (.notFound "second")) ∧
      (b'.act (.create d)).1 = .done ∧ b'.calls (.provision .create) = 1 := by
  decide

end Backends

end Convergence
