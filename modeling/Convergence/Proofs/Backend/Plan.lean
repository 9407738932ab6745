import Convergence.Proofs.Backend.Provisioner
import Convergence.Reconcile.Handler
/-!
# What is asked of the backends

A handler acts on the backends by requests, and each of its requests may depend on the answers to
those before.  A `Plan` is a program of requests.  It can be run, which is what the handler does,
and while it runs a log can be kept of the requests and whether they were granted.

The effects in a log are the pushes and the creations of deployments that were granted.  A plan
without effects leaves alone what the backends hold (`Plan.holdsSame_run`).
-/

namespace Convergence

/-! ## Pushes -/

/-- A repository after a push. -/
def Repository.pushed (r : Repository) (commit : String) (files : ProjectFiles)
    (webhookUrl : String) : Repository where
  files := r.files.union files
  commits := r.commits ++ [commit]
  webhookUrl := some webhookUrl

/-- Files are pushed, or the call fails. -/
lemma SourceControl.push_cases (s : SourceControl) (repo commit : String) (files : ProjectFiles)
    (webhookUrl : String) :
    (∃ e gate, s.push repo commit files webhookUrl = (.error e, { s with gate })) ∨
      ∃ gate, s.push repo commit files webhookUrl
        = (.ok (s.cloneAddress repo),
          { s with
            gate
            repositories := s.repositories.insert repo
              (((s.repository? repo).getD {}).pushed commit files webhookUrl) }) := by
  rw [push, Gate.enter]
  cases s.gate.fault with
  | none => exact Or.inr ⟨_, rfl⟩
  | some e => exact Or.inl ⟨e, _, rfl⟩

/-! ## Requests -/

/-- What is asked of the environment. -/
inductive BackendRequest where
  /-- A new secret. -/
  | secret
  | webhookUrl (d : Descriptor) (secret : String)
  | push (repo commit : String) (files : ProjectFiles) (webhookUrl : String)
  | cloneUrl (repo : String)
  | create (d : Descriptor)
  | isScaled (d : Descriptor)

namespace BackendRequest

/-- What can be answered. -/
abbrev Answer : BackendRequest → Type
  | .secret => String
  | .webhookUrl _ _ => Except ProvisionError String
  | .push _ _ _ _ => Except SourceControlError String
  | .cloneUrl _ => Except SourceControlError String
  | .create _ => Except ProvisionError Unit
  | .isScaled _ => Except ProvisionError Bool

/-- The answer to a request, and the environment afterwards. -/
def perform : (q : BackendRequest) → Environment → q.Answer × Environment
  | .secret, e => e.mint
  | .webhookUrl d key, e =>
    let (answer, provisioner) := e.provisioner.webhookUrl d key
    (answer, { e with provisioner })
  | .push repo commit files address, e =>
    let (answer, sourceControl) := e.sourceControl.push repo commit files address
    (answer, { e with sourceControl })
  | .cloneUrl repo, e => (e.sourceControl.cloneUrl repo, e)
  | .create d, e =>
    let (answer, provisioner) := e.provisioner.create d
    (answer, { e with provisioner })
  | .isScaled d, e =>
    let (answer, provisioner) := e.provisioner.isScaled d
    (answer, { e with provisioner })

/-- The request was granted. -/
def granted : (q : BackendRequest) → q.Answer → Bool
  | .secret, _ => true
  | .webhookUrl _ _, a => a.isOk
  | .push _ _ _ _, a => a.isOk
  | .cloneUrl _, a => a.isOk
  | .create _, a => a.isOk
  | .isScaled _, a => a.isOk

end BackendRequest

/-! ## Effects -/

/-- A request, and whether it was granted. -/
structure Entry where
  request : BackendRequest
  granted : Bool

/-- What a request that is granted can do to what the backends hold. -/
inductive Effect where
  /-- Files are added to a repository. -/
  | push (repo : String)
  /-- A deployment of this name is made. -/
  | create (name : String)
deriving DecidableEq, Repr

/-- The name under which something is changed. -/
def Effect.name : Effect → String
  | .push repo => repo
  | .create name => name

/-- The effect of a request that was granted. -/
def Entry.effect? (x : Entry) : Option Effect :=
  if x.granted then
    match x.request with
    | .push repo _ _ _ => some (.push repo)
    | .create d => some (.create d.name)
    | _ => none
  else none

/-- The effects of requests, in order. -/
def effects (log : List Entry) : List Effect := log.filterMap Entry.effect?

@[simp] lemma effects_nil : effects [] = [] := rfl

@[simp] lemma effects_append (l m : List Entry) : effects (l ++ m) = effects l ++ effects m :=
  List.filterMap_append

/-- The backends hold the same in both environments, under the same addresses. -/
structure Environment.HoldsSame (e e' : Environment) : Prop where
  repositories : e'.sourceControl.repositories = e.sourceControl.repositories
  baseUrl : e'.sourceControl.baseUrl = e.sourceControl.baseUrl
  deployments : e'.provisioner.deployments = e.provisioner.deployments

namespace Environment.HoldsSame

variable {e e' e'' : Environment}

lemma refl (e : Environment) : e.HoldsSame e := ⟨rfl, rfl, rfl⟩

lemma trans (h : e.HoldsSame e') (h' : e'.HoldsSame e'') : e.HoldsSame e'' :=
  ⟨h'.repositories.trans h.repositories, h'.baseUrl.trans h.baseUrl,
    h'.deployments.trans h.deployments⟩

end Environment.HoldsSame

/-- A request without an effect leaves alone what the backends hold. -/
lemma BackendRequest.holdsSame_perform (q : BackendRequest) (e : Environment)
    (h : Entry.effect? ⟨q, q.granted (q.perform e).1⟩ = none) : e.HoldsSame (q.perform e).2 := by
  cases q with
  | secret => exact ⟨rfl, rfl, rfl⟩
  | webhookUrl d key =>
    rcases e.provisioner.webhookUrl_cases d key with ⟨_, _, hp⟩ | ⟨_, hp⟩ <;>
      simp only [perform, hp] <;> exact ⟨rfl, rfl, rfl⟩
  | push repo commit files address =>
    rcases e.sourceControl.push_cases repo commit files address with ⟨_, _, hp⟩ | ⟨_, hp⟩
    · simp only [perform, hp]
      exact ⟨rfl, rfl, rfl⟩
    · simp [perform, hp, granted, Except.isOk, Except.toBool, Entry.effect?] at h
  | cloneUrl repo => exact ⟨rfl, rfl, rfl⟩
  | create d =>
    rcases e.provisioner.create_cases d with ⟨_, _, hp⟩ | ⟨_, hp⟩
    · simp only [perform, hp]
      exact ⟨rfl, rfl, rfl⟩
    · simp [perform, hp, granted, Except.isOk, Except.toBool, Entry.effect?] at h
  | isScaled d =>
    rcases e.provisioner.isScaled_cases d with ⟨_, _, hp⟩ | ⟨_, hp⟩ <;>
      simp only [perform, hp] <;> exact ⟨rfl, rfl, rfl⟩

/-! ## What requests leave alone -/

section Frame

variable (q : BackendRequest) (e : Environment)

/-- A request that is no push to a repository leaves it alone. -/
lemma BackendRequest.repository?_perform {repo : String}
    (h : Entry.effect? ⟨q, q.granted (q.perform e).1⟩ ≠ some (.push repo)) :
    (q.perform e).2.sourceControl.repository? repo = e.sourceControl.repository? repo := by
  cases q with
  | push other commit files address =>
    rcases e.sourceControl.push_cases other commit files address with ⟨_, _, hp⟩ | ⟨_, hp⟩
    · simp only [perform, hp]
      rfl
    · have hne : repo ≠ other := by
        rintro rfl
        simp [perform, hp, granted, Except.isOk, Except.toBool, Entry.effect?] at h
      simp only [perform, hp]
      exact Dict.find?_insert_of_ne _ _ hne
  | _ => rfl

/-- A request that does not make a deployment of a name leaves the one there is alone. -/
lemma BackendRequest.deployment?_perform {name : String}
    (h : Entry.effect? ⟨q, q.granted (q.perform e).1⟩ ≠ some (.create name)) :
    (q.perform e).2.provisioner.deployment? name = e.provisioner.deployment? name := by
  cases q with
  | webhookUrl d key =>
    rcases e.provisioner.webhookUrl_cases d key with ⟨_, _, hp⟩ | ⟨_, hp⟩ <;>
      simp only [perform, hp] <;> rfl
  | isScaled d =>
    rcases e.provisioner.isScaled_cases d with ⟨_, _, hp⟩ | ⟨_, hp⟩ <;>
      simp only [perform, hp] <;> rfl
  | create d =>
    rcases e.provisioner.create_cases d with ⟨_, _, hp⟩ | ⟨_, hp⟩
    · simp only [perform, hp]
      rfl
    · have hne : name ≠ d.name := by
        rintro rfl
        simp [perform, hp, granted, Except.isOk, Except.toBool, Entry.effect?] at h
      simp only [perform, hp]
      exact Dict.find?_insert_of_ne _ _ hne
  | _ => rfl

end Frame

/-- The number of commits in the repository of a name. -/
def Environment.commits (e : Environment) (repo : String) : Nat :=
  ((e.sourceControl.repository? repo).getD {}).commits.length

/-- A push that is granted is a commit, and nothing else is. -/
lemma BackendRequest.commits_perform (q : BackendRequest) (e : Environment) (repo : String) :
    (q.perform e).2.commits repo = e.commits repo
      + [(⟨q, q.granted (q.perform e).1⟩ : Entry)].countP (·.effect? == some (.push repo)) := by
  by_cases h : Entry.effect? ⟨q, q.granted (q.perform e).1⟩ = some (.push repo)
  · cases q with
    | push other commit files address =>
      rcases e.sourceControl.push_cases other commit files address with ⟨_, _, hp⟩ | ⟨_, hp⟩
      · simp [perform, hp, granted, Except.isOk, Except.toBool, Entry.effect?] at h
      · obtain rfl : other = repo := by
          simpa [perform, hp, granted, Except.isOk, Except.toBool, Entry.effect?] using h
        rw [List.countP_singleton, if_pos (by rw [h]; exact beq_self_eq_true _)]
        simp [perform, hp, Environment.commits, SourceControl.repository?, Repository.pushed]
    | create d =>
      simp only [Entry.effect?] at h
      split at h <;> cases h
    | _ => simp [Entry.effect?] at h
  · rw [List.countP_singleton, if_neg (by simpa using h), Environment.commits,
      q.repository?_perform e h, Environment.commits, Nat.add_zero]

/-- Secrets are made up in the same order, and more of them may have been; webhooks have the same
addresses. -/
structure Environment.KeepsSecrets (e e' : Environment) : Prop where
  secretAt : e'.secretAt = e.secretAt
  minted : e.minted ≤ e'.minted
  address : ∀ name secret,
    e'.provisioner.webhookAddress name secret = e.provisioner.webhookAddress name secret

namespace Environment.KeepsSecrets

variable {e e' e'' : Environment}

lemma refl (e : Environment) : e.KeepsSecrets e := ⟨rfl, Nat.le_refl _, fun _ _ => rfl⟩

lemma trans (h : e.KeepsSecrets e') (h' : e'.KeepsSecrets e'') : e.KeepsSecrets e'' :=
  ⟨h'.secretAt.trans h.secretAt, Nat.le_trans h.minted h'.minted,
    fun name secret => (h'.address name secret).trans (h.address name secret)⟩

end Environment.KeepsSecrets

/-- No request changes secrets or addresses. -/
lemma BackendRequest.keepsSecrets_perform (q : BackendRequest) (e : Environment) :
    e.KeepsSecrets (q.perform e).2 := by
  cases q with
  | secret => exact ⟨rfl, Nat.le_succ _, fun _ _ => rfl⟩
  | webhookUrl d key =>
    rcases e.provisioner.webhookUrl_cases d key with ⟨_, _, hp⟩ | ⟨_, hp⟩ <;>
      simp only [perform, hp] <;> exact ⟨rfl, Nat.le_refl _, fun _ _ => rfl⟩
  | push repo commit files address => exact ⟨rfl, Nat.le_refl _, fun _ _ => rfl⟩
  | cloneUrl repo => exact .refl e
  | create d =>
    rcases e.provisioner.create_cases d with ⟨_, _, hp⟩ | ⟨_, hp⟩ <;>
      simp only [perform, hp] <;> exact ⟨rfl, Nat.le_refl _, fun _ _ => rfl⟩
  | isScaled d =>
    rcases e.provisioner.isScaled_cases d with ⟨_, _, hp⟩ | ⟨_, hp⟩ <;>
      simp only [perform, hp] <;> exact ⟨rfl, Nat.le_refl _, fun _ _ => rfl⟩

/-! ## Plans -/

/-- A program of requests. -/
inductive Plan (α : Type) where
  | done (a : α)
  | ask (q : BackendRequest) (next : q.Answer → Plan α)

namespace Plan

variable {α β : Type}

/-- The result of a plan, and the environment afterwards. -/
def run : Plan α → Environment → α × Environment
  | done a, e => (a, e)
  | ask q next, e => (next (q.perform e).1).run (q.perform e).2

/-- The requests of a plan. -/
def log : Plan α → Environment → List Entry
  | done _, _ => []
  | ask q next, e =>
    ⟨q, q.granted (q.perform e).1⟩ :: (next (q.perform e).1).log (q.perform e).2

/-- A plan that goes on with the result of another one. -/
def bind (p : Plan α) (f : α → Plan β) : Plan β :=
  match p with
  | done a => f a
  | ask q next => ask q fun a => (next a).bind f

lemma run_bind (p : Plan α) (f : α → Plan β) (e : Environment) :
    (p.bind f).run e = (f (p.run e).1).run (p.run e).2 := by
  induction p generalizing e with
  | done a => rfl
  | ask q next ih => exact ih (q.perform e).1 (q.perform e).2

lemma log_bind (p : Plan α) (f : α → Plan β) (e : Environment) :
    (p.bind f).log e = p.log e ++ (f (p.run e).1).log (p.run e).2 := by
  induction p generalizing e with
  | done a => rfl
  | ask q next ih =>
    have hrest := ih (q.perform e).1 (q.perform e).2
    simp only [bind, log, run, hrest, List.cons_append]

/-- A plan without effects leaves alone what the backends hold. -/
theorem holdsSame_run (p : Plan α) (e : Environment) (h : effects (p.log e) = []) :
    e.HoldsSame (p.run e).2 := by
  induction p generalizing e with
  | done a => exact .refl e
  | ask q next ih =>
    have hnone : ∀ x ∈ (ask q next).log e, x.effect? = none := List.filterMap_eq_nil_iff.1 h
    have hfirst := q.holdsSame_perform e (hnone _ List.mem_cons_self)
    have hrest := ih (q.perform e).1 (q.perform e).2
      (List.filterMap_eq_nil_iff.2 fun x hx => hnone x (List.mem_cons_of_mem _ hx))
    exact hfirst.trans hrest

/-- A plan that does not push to a repository leaves it alone. -/
theorem repository?_run {repo : String} (p : Plan α) (e : Environment)
    (h : .push repo ∉ effects (p.log e)) :
    (p.run e).2.sourceControl.repository? repo = e.sourceControl.repository? repo := by
  induction p generalizing e with
  | done a => rfl
  | ask q next ih =>
    rw [effects, List.mem_filterMap, not_exists] at h
    have hfirst := q.repository?_perform e fun heq => h _ ⟨List.mem_cons_self, heq⟩
    refine (ih _ _ ?_).trans hfirst
    rw [effects, List.mem_filterMap]
    rintro ⟨x, hx, heq⟩
    exact h x ⟨List.mem_cons_of_mem _ hx, heq⟩

/-- A plan that does not make a deployment of a name leaves the one there is alone. -/
theorem deployment?_run {name : String} (p : Plan α) (e : Environment)
    (h : .create name ∉ effects (p.log e)) :
    (p.run e).2.provisioner.deployment? name = e.provisioner.deployment? name := by
  induction p generalizing e with
  | done a => rfl
  | ask q next ih =>
    rw [effects, List.mem_filterMap, not_exists] at h
    have hfirst := q.deployment?_perform e fun heq => h _ ⟨List.mem_cons_self, heq⟩
    refine (ih _ _ ?_).trans hfirst
    rw [effects, List.mem_filterMap]
    rintro ⟨x, hx, heq⟩
    exact h x ⟨List.mem_cons_of_mem _ hx, heq⟩

/-- The commits of a plan are its pushes that are granted. -/
theorem commits_run (p : Plan α) (e : Environment) (repo : String) :
    (p.run e).2.commits repo = e.commits repo + (effects (p.log e)).count (.push repo) := by
  have hcount (l : List Entry) :
      (effects l).count (.push repo) = l.countP (·.effect? == some (.push repo)) := by
    rw [effects, List.count_filterMap]
  rw [hcount]
  induction p generalizing e with
  | done a => rfl
  | ask q next ih =>
    have hfirst := q.commits_perform e repo
    have hrest := ih (q.perform e).1 (q.perform e).2
    rw [List.countP_singleton] at hfirst
    rw [run, log, List.countP_cons, hrest, hfirst]
    omega

/-- No plan changes secrets or addresses. -/
lemma keepsSecrets_run (p : Plan α) (e : Environment) : e.KeepsSecrets (p.run e).2 := by
  induction p generalizing e with
  | done a => exact .refl e
  | ask q next ih => exact (q.keepsSecrets_perform e).trans (ih _ _)

end Plan

end Convergence
