import Convergence.Proofs.Activation.Readiness
/-!
# Activation with backends that serve

If no call of a backend is made to fail and replicas are ready as soon as they are asked for, an
attempt from the beginning goes all the way: it pushes the project, makes the deployment, and finds
it scaled (`converge_of_serves`).  So it reports the integration as active and promotes the revision
it was called with (`attempt_of_serves`), whatever the backends held before.
-/

namespace Convergence

/-- No call of a backend is made to fail, and replicas are ready as soon as they are asked for. -/
structure Environment.Serves (e : Environment) : Prop where
  provisioner : e.provisioner.Serves
  sourceControl : e.sourceControl.gate.fault = none

/-- A push that is not made to fail gives an address, and makes none fail later. -/
lemma SourceControl.push_of_fault {s : SourceControl} (h : s.gate.fault = none)
    (repo commit : String) (files : ProjectFiles) (webhookUrl : String) :
    ∃ t, s.push repo commit files webhookUrl = (.ok (s.cloneAddress repo), t) ∧
      t.gate.fault = none := by
  have henter : s.gate.enter = (none, s.gate.enter.2) := Prod.ext h rfl
  rw [push, henter]
  exact ⟨_, rfl, rfl⟩

namespace Activation

variable {generate : Project.Generator} {c : Call} {p : Progress}

/-- The first setup step goes through. -/
lemma setUpRepository_of_serves (hp : p.environment.Serves) {files : ProjectFiles}
    (hfiles : generate c.integration c.revision = .ok files)
    (hnot : p.steps.isDone SetupSteps.sourceRepo = false) (d : Descriptor) :
    ∃ p', setUpRepository generate c d p = (.ok (), p') ∧ p'.environment.Serves ∧
      p'.steps = p.steps.mark SetupSteps.sourceRepo ∧ ∃ url, p'.gitRepo = some url := by
  have hwebhook := hp.provisioner.webhookUrl d (d.webhookSecret.getD "")
  obtain ⟨t, hpush, ht⟩ := SourceControl.push_of_fault hp.sourceControl d.name commitMessage files
    (p.environment.provisioner.webhookAddress d.name (d.webhookSecret.getD ""))
  rw [setUpRepository]
  simp only [hnot, Bool.false_eq_true, if_false, hfiles, hwebhook, hpush]
  exact ⟨_, rfl, ⟨hp.provisioner.enter .webhookUrl, ht⟩, rfl, _, rfl⟩

/-- The second setup step goes through, and the deployment runs. -/
lemma setUpDeployment_of_serves (hp : p.environment.Serves) {url : String}
    (hurl : p.gitRepo = some url) (hnot : p.steps.isDone SetupSteps.provisioning = false)
    (d : Descriptor) :
    ∃ p', setUpDeployment d p = (.ok (), p') ∧ p'.environment.Serves ∧
      p'.environment.provisioner.RunsAt d.name d.revision d.replicas := by
  have hsources : sources d p = .ok url := by simp only [sources, hurl]
  have hcreate := hp.provisioner.create { d with gitRepository := some url }
  obtain ⟨hserves, hruns⟩ := hp.provisioner.runsAt_create { d with gitRepository := some url }
  rw [hcreate] at hserves hruns
  rw [setUpDeployment]
  simp only [hnot, Bool.false_eq_true, if_false, hsources, hcreate]
  exact ⟨_, rfl, ⟨hserves, hp.sourceControl⟩, hruns⟩

/-- From the beginning everything goes through, and the deployment is scaled. -/
lemma converge_of_serves (hp : p.environment.Serves) {files : ProjectFiles}
    (hfiles : generate c.integration c.revision = .ok files) (hsteps : p.steps = {})
    (d : Descriptor) :
    ∃ p', converge generate c d p = (.ok true, p') ∧ p'.environment.Serves ∧
      p'.environment.provisioner.RunsAt d.name d.revision d.replicas := by
  obtain ⟨p₁, hrepository, hp₁, hmarked, url, hurl⟩ :=
    setUpRepository_of_serves hp hfiles (by rw [hsteps]; rfl) d
  obtain ⟨p₂, hdeployment, hp₂, hruns⟩ :=
    setUpDeployment_of_serves hp₁ hurl (by rw [hmarked, hsteps]; rfl) d
  have hasked := p₂.environment.provisioner.isScaled_of_fault d
    (hp₂.provisioner.faultless .isScaled)
  rw [hruns.any_runs] at hasked
  rw [converge]
  simp only [hrepository, hdeployment, hasked]
  exact ⟨_, rfl, ⟨hp₂.provisioner.enter .isScaled, hp₂.sourceControl⟩, hruns⟩

/-- An attempt from the beginning brings the integration to life. -/
theorem attempt_of_serves {e : Environment} (he : e.Serves)
    {files : ProjectFiles} (hfiles : generate c.integration c.revision = .ok files)
    (htoken : c.integration.HasToken c.clock) (hsteps : c.integration.stepsDone = []) :
    ∃ u e', attempt generate c e = (.report u, e') ∧ u.state = .active ∧ u.stepsDone = [] ∧
      u.promoted = some { c.revision with
        version := some (c.integration.versionFor c.revision), targetState := .active } ∧
      e'.Serves ∧ e'.provisioner.RunsAt (resourceName c.integration)
        (c.integration.versionFor c.revision) 1 := by
  obtain ⟨token, htoken, hvalid⟩ := htoken
  obtain ⟨p', hconverge, hserves, hruns⟩ := converge_of_serves
    (p := { environment := e.mint.2, steps := .ofList c.integration.stepsDone })
    ⟨he.provisioner, he.sourceControl⟩ hfiles (by rw [hsteps]; rfl)
    (descriptor c token.value e.mint.1)
  rw [descriptor_name, descriptor_revision] at hruns
  exact ⟨_, _, attempt_of_token e htoken hvalid hconverge, rfl, rfl, rfl, hserves, hruns⟩

end Activation

end Convergence
