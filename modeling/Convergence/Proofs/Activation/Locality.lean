import Convergence.Proofs.Activation.Neighbours
/-!
# What a call of a handler depends on

Two environments are `Alike` under a name if the backends hold the same under it, are set up in the
same way, and make no call fail.  A request under that name is then answered alike, and they stay
alike (`BackendRequest.local_perform`); so it is for a whole plan of such requests
(`Plan.local_run`).

What activation and deactivation ask for is under the name of their integration, so such a call ends
in the same way, whatever the backends hold under other names (`Duty.local_attempt`).
-/

namespace Convergence

/-! ## How the backends are set up -/

/-- What no request changes. -/
structure Settings where
  autoReady : Bool
  api : String
  space : String
  baseUrl : String

namespace Environment

/-- How the backends are set up. -/
def settings (e : Environment) : Settings where
  autoReady := e.provisioner.autoReady
  api := e.provisioner.api
  space := e.provisioner.space
  baseUrl := e.sourceControl.baseUrl

/-- No call of a backend is made to fail. -/
structure Faultless (e : Environment) : Prop where
  provisioner : ∀ call, (e.provisioner.gate call).fault = none
  sourceControl : e.sourceControl.gate.fault = none

/-- The secrets still to be made up are the same. -/
def SameSecrets (e e' : Environment) : Prop :=
  ∀ k, e'.secretAt (e'.minted + k) = e.secretAt (e.minted + k)

/-- For whoever asks under the name the environments are the same. -/
structure Alike (name : String) (e e' : Environment) : Prop where
  same : e.SameUnder name e'
  settings : e'.settings = e.settings
  secrets : e.SameSecrets e'
  faultless : e.Faultless
  faultless' : e'.Faultless

end Environment

namespace Provisioner

variable {p : Provisioner}

lemma enter_of_faultless (h : ∀ call, (p.gate call).fault = none) (call : ProvisionCall) :
    p.enter call = (none, (p.enter call).2) := Prod.ext (h call) rfl

/-- A deployment after it was scaled, if it runs the revision. -/
def rescaled (p : Provisioner) (d : Descriptor) (m : Deployment) : Deployment :=
  if m.revision = d.revision then
    { m with replicas := d.replicas, readyReplicas := p.readyAtOnce d.replicas }
  else m

/-- What scaling comes to if no call is made to fail. -/
lemma scale_of_faultless (h : ∀ call, (p.gate call).fault = none) (d : Descriptor) :
    ∃ deployments gate, p.scale d =
        (if (p.deployment? d.name).isSome then .ok () else .error (.notFound d.name),
          { p with deployments, gate }) ∧
      deployments.find? d.name = (p.deployment? d.name).map (p.rescaled d) ∧
      ∀ call, (gate call).fault = none := by
  have hentered : ∀ call, ((p.enter .scale).2.gate call).fault = none :=
    fun call => p.fault_enter .scale (h call)
  have hsame : (p.enter .scale).2.deployment? d.name = p.deployment? d.name := rfl
  rw [scale, enter_of_faultless h]
  dsimp only
  rw [hsame]
  cases hm : p.deployment? d.name with
  | none => exact ⟨p.deployments, _, rfl, hm, hentered⟩
  | some m =>
    by_cases hrevision : m.revision = d.revision
    · refine ⟨_, _, if_pos hrevision, ?_, hentered⟩
      simp only [Dict.find?_insert_self, Option.map_some, rescaled, if_pos hrevision]
      rfl
    · refine ⟨p.deployments, _, if_neg hrevision, ?_, hentered⟩
      simp only [Option.map_some, rescaled, if_neg hrevision]
      exact hm

end Provisioner

namespace BackendRequest

/-- What is asked for is under the name. -/
def Under (name : String) : BackendRequest → Prop
  | .secret => True
  | .webhookUrl d _ => d.name = name
  | .push repo _ _ _ => repo = name
  | .cloneUrl repo => repo = name
  | .create d => d.name = name
  | .isScaled d => d.name = name

lemma settings_perform (q : BackendRequest) (e : Environment) :
    (q.perform e).2.settings = e.settings := by
  cases q with
  | secret => rfl
  | webhookUrl d key =>
    rcases e.provisioner.webhookUrl_cases d key with ⟨_, _, hp⟩ | ⟨_, hp⟩ <;>
      simp only [perform, hp] <;> rfl
  | push repo commit files address =>
    rcases e.sourceControl.push_cases repo commit files address with ⟨_, _, hp⟩ | ⟨_, hp⟩ <;>
      simp only [perform, hp] <;> rfl
  | cloneUrl repo => rfl
  | create d =>
    rcases e.provisioner.create_cases d with ⟨_, _, hp⟩ | ⟨_, hp⟩ <;>
      simp only [perform, hp] <;> rfl
  | isScaled d =>
    rcases e.provisioner.isScaled_cases d with ⟨_, _, hp⟩ | ⟨_, hp⟩ <;>
      simp only [perform, hp] <;> rfl

/-- What a request comes to if no call is made to fail. -/
def granting : (q : BackendRequest) → Environment → q.Answer × Environment
  | .secret, e => e.mint
  | .webhookUrl d key, e =>
    (.ok (e.provisioner.webhookAddress d.name key),
      { e with provisioner := (e.provisioner.enter .webhookUrl).2 })
  | .push repo commit files address, e =>
    (.ok (e.sourceControl.cloneAddress repo),
      { e with sourceControl := { e.sourceControl with
        gate := e.sourceControl.gate.enter.2
        repositories := e.sourceControl.repositories.insert repo
          (((e.sourceControl.repository? repo).getD {}).pushed commit files address) } })
  | .cloneUrl repo, e => (e.sourceControl.cloneUrl repo, e)
  | .create d, e =>
    (.ok (), { e with provisioner :=
      (e.provisioner.enter .create).2.place d.name (e.provisioner.fresh d) })
  | .isScaled d, e =>
    (.ok ((e.provisioner.deployment? d.name).any (·.runs d)),
      { e with provisioner := (e.provisioner.enter .isScaled).2 })

lemma perform_of_faultless (q : BackendRequest) {e : Environment} (h : e.Faultless) :
    q.perform e = q.granting e := by
  cases q with
  | secret => rfl
  | webhookUrl d key =>
    rw [perform, Provisioner.webhookUrl, Provisioner.enter_of_faultless h.provisioner]
    rfl
  | push repo commit files address =>
    have henter : e.sourceControl.gate.enter = (none, e.sourceControl.gate.enter.2) :=
      Prod.ext h.sourceControl rfl
    rw [perform, SourceControl.push, henter]
    rfl
  | cloneUrl repo => rfl
  | create d =>
    rw [perform, Provisioner.create, Provisioner.enter_of_faultless h.provisioner]
    rfl
  | isScaled d =>
    rw [perform, Provisioner.isScaled, Provisioner.enter_of_faultless h.provisioner]
    rfl

lemma faultless_perform (q : BackendRequest) {e : Environment} (h : e.Faultless) :
    (q.perform e).2.Faultless := by
  rw [q.perform_of_faultless h]
  have hentered : ∀ entered call,
      ((e.provisioner.enter entered).2.gate call).fault = none :=
    fun entered call => e.provisioner.fault_enter entered (h.provisioner call)
  cases q with
  | secret => exact ⟨h.provisioner, h.sourceControl⟩
  | webhookUrl d key => exact ⟨hentered .webhookUrl, h.sourceControl⟩
  | push repo commit files address => exact ⟨h.provisioner, rfl⟩
  | cloneUrl repo => exact h
  | create d => exact ⟨hentered .create, h.sourceControl⟩
  | isScaled d => exact ⟨hentered .isScaled, h.sourceControl⟩

/-- A request under the name is answered alike. -/
lemma answer_alike {name : String} {e e' : Environment} {q : BackendRequest}
    (hq : q.Under name) (h : e.Alike name e') : (q.perform e').1 = (q.perform e).1 := by
  rw [q.perform_of_faultless h.faultless, q.perform_of_faultless h.faultless']
  have hsettings := Settings.mk.inj h.settings
  cases q with
  | secret => exact h.secrets 0
  | webhookUrl d key =>
    simp only [granting, Provisioner.webhookAddress, hsettings.2.1, hsettings.2.2.1]
  | push repo commit files address =>
    simp only [granting, SourceControl.cloneAddress, hsettings.2.2.2]
  | cloneUrl repo =>
    obtain rfl : repo = name := hq
    have hfound := h.same.repository
    rw [SourceControl.repository?, SourceControl.repository?] at hfound
    simp only [granting, SourceControl.cloneUrl, Dict.contains, hfound,
      SourceControl.cloneAddress, hsettings.2.2.2]
    rfl
  | create d => rfl
  | isScaled d =>
    obtain rfl : d.name = name := hq
    simp only [granting, h.same.deployment]

/-- A request under the name leaves the same under it. -/
lemma sameUnder_perform {name : String} {e e' : Environment} {q : BackendRequest}
    (hq : q.Under name) (h : e.Alike name e') :
    (q.perform e).2.SameUnder name (q.perform e').2 := by
  rw [q.perform_of_faultless h.faultless, q.perform_of_faultless h.faultless']
  obtain ⟨hrepository, hdeployment⟩ := h.same
  cases q with
  | push repo commit files address =>
    obtain rfl : repo = name := hq
    refine ⟨?_, hdeployment⟩
    simp only [granting, SourceControl.repository?, Dict.find?_insert_self]
    rw [← SourceControl.repository?, ← SourceControl.repository?, hrepository]
  | create d =>
    obtain rfl : d.name = name := hq
    refine ⟨hrepository, ?_⟩
    have hready : e'.provisioner.autoReady = e.provisioner.autoReady :=
      (Settings.mk.inj h.settings).1
    simp only [granting, Provisioner.place, Provisioner.deployment?, Dict.find?_insert_self,
      Provisioner.fresh, Provisioner.readyAtOnce, hready]
  | _ => exact ⟨hrepository, hdeployment⟩

/-- The secrets still to be made up are the same after a request, too. -/
lemma sameSecrets_perform (q : BackendRequest) {e e' : Environment} (h : e.SameSecrets e') :
    (q.perform e).2.SameSecrets (q.perform e').2 := by
  cases q with
  | secret =>
    intro k
    have hk := h (1 + k)
    rwa [← Nat.add_assoc, ← Nat.add_assoc] at hk
  | _ => exact h

/-- A request under the name is answered alike, and leaves the environments alike. -/
lemma local_perform {name : String} {e e' : Environment} {q : BackendRequest}
    (hq : q.Under name) (h : e.Alike name e') :
    (q.perform e').1 = (q.perform e).1 ∧ (q.perform e).2.Alike name (q.perform e').2 where
  left := answer_alike hq h
  right :=
    { same := sameUnder_perform hq h
      settings := by rw [settings_perform, settings_perform, h.settings]
      secrets := q.sameSecrets_perform h.secrets
      faultless := q.faultless_perform h.faultless
      faultless' := q.faultless_perform h.faultless' }

end BackendRequest

/-! ## Plans -/

namespace Plan

variable {α β : Type} {name : String}

/-- All that the plan asks for is under the name. -/
inductive Under (name : String) : Plan α → Prop where
  | done (a : α) : Under name (.done a)
  | ask {q : BackendRequest} {next : q.Answer → Plan α} (hq : q.Under name)
      (hnext : ∀ a, (next a).Under name) : Under name (.ask q next)

lemma Under.bind {p : Plan α} {f : α → Plan β} (hp : p.Under name)
    (hf : ∀ a, (f a).Under name) : (p.bind f).Under name := by
  induction hp with
  | done a => exact hf a
  | ask hq _ ih => exact .ask hq ih

lemma settings_run (p : Plan α) (e : Environment) : (p.run e).2.settings = e.settings := by
  induction p generalizing e with
  | done a => rfl
  | ask q next ih => exact (ih _ _).trans (q.settings_perform e)

lemma faultless_run (p : Plan α) {e : Environment} (h : e.Faultless) : (p.run e).2.Faultless := by
  induction p generalizing e with
  | done a => exact h
  | ask q next ih => exact ih _ (q.faultless_perform h)

/-- A plan that asks only for what is under the name comes to the same result, and leaves the
environments alike. -/
theorem local_run {p : Plan α} (hp : p.Under name) {e e' : Environment} (h : e.Alike name e') :
    (p.run e').1 = (p.run e).1 ∧ (p.run e).2.Alike name (p.run e').2 := by
  induction hp generalizing e e' with
  | done a => exact ⟨rfl, h⟩
  | @ask q next hq _ ih =>
    obtain ⟨hanswer, hend⟩ := BackendRequest.local_perform hq h
    simp only [run, hanswer]
    exact ih _ hend

end Plan

/-! ## Activation -/

namespace Activation

variable (generate : Project.Generator) (c : Call) (d : Descriptor) (n : Notes)

lemma under_repositoryPlan : (repositoryPlan generate c d n).Under d.name := by
  rw [repositoryPlan]
  split
  · exact .done _
  · split
    · exact .done _
    · refine .ask rfl fun answer => ?_
      cases answer with
      | error e => exact .done _
      | ok webhook =>
        refine .ask rfl fun answer => ?_
        cases answer <;> exact .done _

lemma under_deploymentPlan : (deploymentPlan d n).Under d.name := by
  have hsources : (sourcesPlan d n).Under d.name := by
    rw [sourcesPlan]
    split
    · exact .done _
    · exact .ask rfl fun _ => .done _
  rw [deploymentPlan]
  split
  · exact .done _
  · refine hsources.bind fun answer => ?_
    cases answer with
    | error e => exact .done _
    | ok url =>
      refine .ask rfl fun answer => ?_
      cases answer <;> exact .done _

lemma under_scaledPlan : (scaledPlan d n).Under d.name := by
  refine .ask rfl fun answer => ?_
  cases answer <;> exact .done _

lemma under_convergePlan : (convergePlan generate c d n).Under d.name := by
  refine (under_repositoryPlan generate c d n).bind fun result => ?_
  rcases result with ⟨_ | _, n₁⟩
  · exact .done _
  · refine (under_deploymentPlan d n₁).bind fun result => ?_
    rcases result with ⟨_ | _, n₂⟩
    · exact .done _
    · exact under_scaledPlan d n₂

/-- An activation asks only for what is under the name of its integration. -/
theorem under_plan : (plan generate c).Under (resourceName c.integration) := by
  rw [plan]
  cases c.integration.token with
  | none => exact .done _
  | some token =>
    dsimp only
    split
    · exact .done _
    · refine .ask trivial fun secret => Plan.Under.bind ?_ fun _ => .done _
      have hplan := under_convergePlan generate c (descriptor c token.value secret)
        { steps := .ofList c.integration.stepsDone }
      rwa [descriptor_name] at hplan

end Activation

/-! ## Deactivation -/

namespace Deactivation

variable {c : Call} {e e' : Environment} {v : Version}

/-- What is reported of a deployment that was there before. -/
def reportOf (c : Call) (v : Version) (m : Option Deployment) : StatusUpdate where
  version := v
  state := if m.all (·.runs (descriptor c v)) then .undeployed else .pending

/-- If no call is made to fail, the deployment of the integration is scaled, and reported as it then
is. -/
lemma attempt_of_faultless (h : e.Faultless) (hv : c.revision.version = some v) :
    let before := e.provisioner.deployment? (resourceName c.integration)
    let after := before.map (e.provisioner.rescaled (descriptor c v))
    ∃ p, attempt c e = (.report (reportOf c v after), { e with provisioner := p }) ∧
      p.deployment? (resourceName c.integration) = after ∧
      ({ e with provisioner := p } : Environment).settings = e.settings ∧
      ({ e with provisioner := p } : Environment).Faultless := by
  obtain ⟨deployments, gate, hscale, hafter, hgate⟩ :=
    Provisioner.scale_of_faultless h.provisioner (descriptor c v)
  rw [descriptor_name] at hscale hafter
  rw [attempt, hv]
  dsimp only
  rw [hscale]
  cases hm : e.provisioner.deployment? (resourceName c.integration) with
  | none =>
    rw [hm] at hafter
    exact ⟨_, rfl, hafter, rfl, hgate, h.sourceControl⟩
  | some m =>
    rw [hm] at hafter
    have hasked := Provisioner.isScaled_of_fault
      { e.provisioner with deployments, gate } (descriptor c v) (hgate .isScaled)
    simp only [Option.isSome_some, if_true]
    rw [hasked, descriptor_name, Provisioner.deployment?, hafter]
    exact ⟨_, rfl, hafter, rfl,
      fun call => Provisioner.fault_enter { e.provisioner with deployments, gate } .isScaled
        (hgate call), h.sourceControl⟩

/-- A deactivation ends in the same way where the environments are alike, and leaves them so. -/
theorem local_attempt (h : e.Alike (resourceName c.integration) e') :
    (attempt c e').1 = (attempt c e).1 ∧
      (attempt c e).2.Alike (resourceName c.integration) (attempt c e').2 := by
  cases hv : c.revision.version with
  | none =>
    rw [attempt, attempt, hv]
    exact ⟨rfl, h⟩
  | some v =>
    obtain ⟨p, hp, hdeployment, hsettings, hfaultless⟩ := attempt_of_faultless h.faultless hv
    obtain ⟨p', hp', hdeployment', hsettings', hfaultless'⟩ := attempt_of_faultless h.faultless' hv
    have hready : e'.provisioner.autoReady = e.provisioner.autoReady :=
      (Settings.mk.inj h.settings).1
    have hsame : e'.provisioner.rescaled (descriptor c v)
        = e.provisioner.rescaled (descriptor c v) := by
      funext m
      simp only [Provisioner.rescaled, Provisioner.readyAtOnce, hready]
    rw [h.same.deployment, hsame] at hp' hdeployment'
    rw [hp, hp']
    refine ⟨rfl, ⟨h.same.repository, hdeployment'.trans hdeployment.symm⟩, ?_, h.secrets,
      hfaultless, hfaultless'⟩
    rw [hsettings, hsettings', h.settings]

end Deactivation

/-! ## Both handlers -/

namespace Duty

/-- What the handler does at the end of its call, which is all that it does. -/
def attempt : Duty → Call → Environment → Outcome × Environment
  | .activate generate => Activation.attempt generate
  | .deactivate => Deactivation.attempt

lemma call_handler (duty : Duty) (c : Call) (e : Environment) :
    duty.handler.call c e = ({ finish := duty.attempt c }, e) := by
  cases duty <;> rfl

/-- A call ends in the same way where the environments are alike, and leaves them so. -/
theorem local_attempt (duty : Duty) {c : Call} {e e' : Environment}
    (h : e.Alike (resourceName c.integration) e') :
    (duty.attempt c e').1 = (duty.attempt c e).1 ∧
      (duty.attempt c e).2.Alike (resourceName c.integration) (duty.attempt c e').2 := by
  cases duty with
  | activate generate =>
    simp only [attempt, ← Activation.run_plan]
    exact Plan.local_run (Activation.under_plan generate c) h
  | deactivate => exact Deactivation.local_attempt h

/-- A call leaves the backends set up as they were, and makes none of their calls fail. -/
lemma settings_attempt (duty : Duty) (c : Call) {e : Environment} (h : e.Faultless) :
    (duty.attempt c e).2.settings = e.settings ∧ (duty.attempt c e).2.Faultless := by
  cases duty with
  | activate generate =>
    simp only [attempt, ← Activation.run_plan]
    exact ⟨Plan.settings_run _ e, Plan.faultless_run _ h⟩
  | deactivate =>
    cases hv : c.revision.version with
    | none =>
      rw [attempt, Deactivation.attempt, hv]
      exact ⟨rfl, h⟩
    | some v =>
      obtain ⟨p, hp, -, hsettings, hfaultless⟩ := Deactivation.attempt_of_faultless h hv
      rw [attempt, hp]
      exact ⟨hsettings, hfaultless⟩

/-- A call touches nothing under a name that is not the one of its integration. -/
lemma sameUnder_attempt (duty : Duty) {c : Call} {name : String}
    (hne : resourceName c.integration ≠ name) (e : Environment) :
    e.SameUnder name (duty.attempt c e).2 := by
  have hended := duty.keepsTo_handler.ended c e e name hne
  rwa [call_handler] at hended

/-- A call of either handler does not break down. -/
lemma attempt_ne_crashed (duty : Duty) (c : Call) (e : Environment) :
    (duty.attempt c e).1 ≠ .crashed := by
  cases duty with
  | activate generate =>
    obtain ⟨u, hreport, -⟩ := Activation.attempted generate c e
    simp only [attempt, hreport]
    exact Outcome.noConfusion
  | deactivate =>
    obtain ⟨q, -, h⟩ := Deactivation.attempted c e
    simp only [attempt]
    generalize (Deactivation.attempt c e).1 = o at h
    cases h with
    | unscaled hv hscale => split <;> exact Outcome.noConfusion
    | _ => exact Outcome.noConfusion

end Duty

end Convergence
