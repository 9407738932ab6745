import Convergence.Proofs.Backend.Provisioner
import Convergence.Reconcile.Deactivation
/-!
# What a deactivation does to the deployments

An attempt scales the deployment of the integration to zero and then asks whether it is scaled.
`Attempted` lists what that can come to.

The main results are

* `lowers_attempt`: however an attempt ends, it only lowers counts of replicas, and only of the
  deployment of its integration, if that runs the version to stop;
* `undeployed_stops`: an integration that is reported as undeployed has nothing running, and one
  that has nothing running is reported so.
-/

namespace Convergence

/-- Nothing runs under the name: there is no deployment, or one that is scaled to zero and has no
replica left. -/
def Provisioner.StoppedUnder (p : Provisioner) (name : String) : Prop :=
  ∀ m, p.deployment? name = some m → m.replicas = 0 ∧ m.readyReplicas = 0

namespace Deactivation

open Provisioner (Scaled Lowers)

variable {c : Call} {e : Environment}

/-- What an attempt can come to: how it ends, and the provisioner afterwards. -/
inductive Attempted (c : Call) (p : Provisioner) : Outcome → Provisioner → Prop where
  /-- The revision was never published. -/
  | unversioned (hv : c.revision.version = none) :
      Attempted c p (.failed (.missingVersion c.integration.id)) p
  /-- Scaling fails.  If there is no such deployment, there is nothing to stop. -/
  | unscaled {v : Version} {err : ProvisionError} {q : Provisioner}
      (hv : c.revision.version = some v) (hscale : p.Scaled (descriptor c v) (.error err) q) :
      Attempted c p (if err.isNotFound then .report { version := v, state := .undeployed }
        else .failed (.provisioning err)) q
  /-- The question fails. -/
  | unanswered {v : Version} {err : ProvisionError} {q q' : Provisioner}
      (hv : c.revision.version = some v) (hscale : p.Scaled (descriptor c v) (.ok ()) q)
      (hasked : q.isScaled (descriptor c v) = (.error err, q')) :
      Attempted c p (.failed (.provisioning err)) q'
  | answered {v : Version} {scaled : Bool} {q q' : Provisioner}
      (hv : c.revision.version = some v) (hscale : p.Scaled (descriptor c v) (.ok ()) q)
      (hasked : q.isScaled (descriptor c v) = (.ok scaled, q')) :
      Attempted c p (.report { version := v, state := if scaled then .undeployed else .pending }) q'

/-- An attempt comes to one of the cases, and leaves all but the provisioner alone. -/
theorem attempted (c : Call) (e : Environment) : ∃ q,
    (attempt c e).2 = { e with provisioner := q } ∧
      Attempted c e.provisioner (attempt c e).1 q := by
  rw [attempt]
  cases hv : c.revision.version with
  | none => exact ⟨e.provisioner, rfl, .unversioned hv⟩
  | some v =>
    have hscale := e.provisioner.scale_scaled (descriptor c v)
    simp only
    generalize e.provisioner.scale (descriptor c v) = x at hscale ⊢
    obtain ⟨answer, q⟩ := x
    cases answer with
    | error err =>
      have hcases := Attempted.unscaled hv hscale
      dsimp only
      split
      · next hnone => exact ⟨q, rfl, by simpa [hnone] using hcases⟩
      · next hnone => exact ⟨q, rfl, by simpa [hnone] using hcases⟩
    | ok done =>
      dsimp only
      cases hasked : q.isScaled (descriptor c v) with
      | mk answer q' =>
        cases answer with
        | error err => exact ⟨q', rfl, .unanswered hv hscale hasked⟩
        | ok scaled => exact ⟨q', rfl, .answered hv hscale hasked⟩

@[simp] lemma descriptor_name (c : Call) (v : Version) :
    (descriptor c v).name = resourceName c.integration := by
  simp only [descriptor]

/-- The question leaves the deployments as scaling left them. -/
lemma lowers_asked {name : String} {version : Option Version} {d : Descriptor}
    {p p' : Provisioner} {answer : Except ProvisionError Bool}
    (h : p.isScaled d = (answer, p')) : Lowers name version p p' := by
  refine .of_same fun other => ?_
  have hsame := p.deployment?_isScaled d other
  rwa [h] at hsame

lemma Attempted.lowers {p q : Provisioner} {o : Outcome} (h : Attempted c p o q) :
    Lowers (resourceName c.integration) c.revision.version p q := by
  have hscaled : ∀ {v : Version} {r : Except ProvisionError Unit} {q : Provisioner},
      p.Scaled (descriptor c v) r q → Lowers (resourceName c.integration) (some v) p q := by
    intro v r q hscale
    rw [← descriptor_name c v]
    exact hscale.lowers rfl
  cases h with
  | unversioned hv => exact .of_same fun _ => rfl
  | unscaled hv hscale =>
    rw [hv]
    exact hscaled hscale
  | unanswered hv hscale hasked =>
    rw [hv]
    exact (hscaled hscale).trans (lowers_asked hasked)
  | answered hv hscale hasked =>
    rw [hv]
    exact (hscaled hscale).trans (lowers_asked hasked)

/-- However an attempt ends, it only lowers counts of replicas, and only those of the deployment of
its integration. -/
theorem lowers_attempt (c : Call) (e : Environment) :
    Lowers (resourceName c.integration) c.revision.version e.provisioner
      (attempt c e).2.provisioner := by
  obtain ⟨q, hend, h⟩ := attempted c e
  rw [hend]
  exact h.lowers

/-- A report of undeployed means that nothing runs, or that scaling was made to fail as if there
were no deployment. -/
lemma Attempted.stopped {p q : Provisioner} {o : Outcome} (h : Attempted c p o q)
    {u : StatusUpdate} (ho : o = .report u) (hu : u.state = .undeployed)
    (hfaults : ∀ err, (p.gate .scale).fault = some err → err.isNotFound = false) :
    q.StoppedUnder (resourceName c.integration) := by
  cases h with
  | unversioned hv => cases ho
  | unscaled hv hscale =>
    -- with no failure of that kind, there was no deployment to scale
    cases hscale with
    | failed hfault => simp [hfaults _ hfault] at ho
    | absent hfault hm =>
      intro m hm'
      rw [descriptor_name] at hm
      cases hm.symm.trans hm'
  | unanswered hv hscale hasked => cases ho
  | @answered v scaled q q' hv hscale hasked =>
    obtain rfl : scaled = true := by
      cases ho
      cases scaled with
      | true => rfl
      | false => cases hu
    obtain ⟨m, hm, -, hreplicas, hready⟩ := Provisioner.deployment_of_isScaled hasked
    intro m' hm'
    rw [descriptor_name] at hm
    obtain rfl : m = m' := Option.some.inj (hm.symm.trans hm')
    exact ⟨hreplicas, hready⟩

/-- If neither call is made to fail, there is a report, and it is of undeployed exactly if no other
revision is there. -/
lemma Attempted.reports {p q : Provisioner} {o : Outcome} {v : Version} (h : Attempted c p o q)
    (hversion : c.revision.version = some v) (hscalable : (p.gate .scale).fault = none)
    (haskable : (p.gate .isScaled).fault = none) :
    ∃ state, o = .report { version := v, state } ∧ (state = .undeployed ↔
      ∀ m, p.deployment? (resourceName c.integration) = some m → m.revision = v) := by
  cases h with
  | unversioned hv => cases hversion.symm.trans hv
  | @unscaled v' err q hv hscale =>
    obtain rfl : v = v' := Option.some.inj (hversion.symm.trans hv)
    cases hscale with
    | failed hfault => cases hscalable.symm.trans hfault
    | absent hfault hm =>
      rw [descriptor_name] at hm
      exact ⟨.undeployed, rfl, by simp [hm]⟩
  | @unanswered v' err q q' hv hscale hasked =>
    rw [q.isScaled_of_fault _ (hscale.fault haskable)] at hasked
    cases hasked
  | @answered v' scaled q q' hv hscale hasked =>
    obtain rfl : v = v' := Option.some.inj (hversion.symm.trans hv)
    rw [q.isScaled_of_fault _ (hscale.fault haskable)] at hasked
    obtain rfl := Except.ok.inj (congrArg Prod.fst hasked)
    have hruns := hscale.runs_iff rfl
    rw [descriptor_name] at hruns ⊢
    refine ⟨_, rfl, Iff.trans ?_ hruns⟩
    split
    · next hyes => simp [hyes]
    · next hno => simp [hno]

/-- A provisioner that serves still does after an attempt. -/
lemma Attempted.serves {p q : Provisioner} {o : Outcome} (h : Attempted c p o q)
    (hserves : p.Serves) : q.Serves := by
  cases h with
  | unversioned hv => exact hserves
  | unscaled hv hscale => exact hserves.scaled hscale
  | @unanswered v err q q' hv hscale hasked =>
    have hscaled := hserves.scaled hscale
    rw [q.isScaled_of_fault _ (hscaled.faultless .isScaled)] at hasked
    cases hasked
  | @answered v scaled q q' hv hscale hasked =>
    have hscaled := hserves.scaled hscale
    rw [q.isScaled_of_fault _ (hscaled.faultless .isScaled)] at hasked
    cases hasked
    exact hscaled.enter .isScaled

/-- If the provisioner serves, what runs is scaled to zero and reported so. -/
lemma attempt_of_serves {v : Version} {replicas : Nat} (hserves : e.provisioner.Serves)
    (hversion : c.revision.version = some v)
    (hruns : e.provisioner.RunsAt (resourceName c.integration) v replicas) :
    ∃ q, attempt c e = (.report { version := v, state := .undeployed },
        { e with provisioner := q }) ∧
      q.Serves ∧ q.RunsAt (resourceName c.integration) v 0 := by
  obtain ⟨q, hend, h⟩ := attempted c e
  obtain ⟨m, hm, hrevision, -, -⟩ := hruns
  obtain ⟨state, hreport, hundeployed⟩ :=
    h.reports hversion (hserves.faultless .scale) (hserves.faultless .isScaled)
  obtain rfl : state = .undeployed := by
    refine hundeployed.2 fun m' hm' => ?_
    obtain rfl : m = m' := Option.some.inj (hm.symm.trans hm')
    exact hrevision
  have hfaults : ∀ err, (e.provisioner.gate .scale).fault = some err → err.isNotFound = false := by
    intro err hfault
    cases (hserves.faultless .scale).symm.trans hfault
  -- the deployment stays, at whatever scale, and nothing of it runs
  obtain ⟨scale, ready, hm', -⟩ := h.lowers.lowered _ m hm
  obtain ⟨hscale, hready⟩ := h.stopped hreport rfl hfaults _ hm'
  exact ⟨q, Prod.ext hreport hend, h.serves hserves, _, hm', hrevision, hscale, hready⟩

/-- However a call of the handler ends, no deployment comes or goes, no count of replicas is raised,
and all but the deployment of the selected revision stays as it was.  If it reports the integration
as undeployed, nothing runs under the name of the integration, unless scaling was made to fail as if
there were no deployment; and if neither call is made to fail, that is what is reported wherever no
other revision is deployed. -/
theorem undeployed_stops (c : Call) (e : Environment) :
    ∃ q, (Handler.deactivate.execute c e).2 = { e with provisioner := q } ∧
      Lowers (resourceName c.integration) c.revision.version e.provisioner q ∧
      (∀ u, (Handler.deactivate.execute c e).1 = .report u → u.state = .undeployed →
        (∀ err, (e.provisioner.gate .scale).fault = some err → err.isNotFound = false) →
        q.StoppedUnder (resourceName c.integration)) ∧
      ∀ v, c.revision.version = some v → (e.provisioner.gate .scale).fault = none →
        (e.provisioner.gate .isScaled).fault = none →
        ∃ state, (Handler.deactivate.execute c e).1 = .report { version := v, state } ∧
          (state = .undeployed ↔ ∀ m,
            e.provisioner.deployment? (resourceName c.integration) = some m → m.revision = v) := by
  have hexecute : Handler.deactivate.execute c e = attempt c e := rfl
  rw [hexecute]
  obtain ⟨q, hend, h⟩ := attempted c e
  exact ⟨q, hend, h.lowers, fun u ho hu hfaults => h.stopped ho hu hfaults,
    fun v hversion hscalable haskable => h.reports hversion hscalable haskable⟩

/-- The record of an integration that runs and is to be stopped. -/
def runningRecord : Integration where
  id := "x"
  name := "Orders Sync"
  desired := some .inactive
  current := some .active
  revisions := [{ version := some 1, currentState := .active, targetState := .active }]
  deployed := some 1
  createdAt := ((Date.ofNumbers? 2024 1 5).bind fun date => Timestamp.ofNumbers? date 12 0 0 0).get
    (by decide)

/-- The call that stops it. -/
def runningCall : Call where
  integration := runningRecord
  revision := select runningRecord
  clock := runningRecord.createdAt

/-- Its deployment, which is about to lose a replica, beside another one. -/
def runningPlace : Environment where
  provisioner :=
    { deployments := (Dict.empty.insert "orders-sync"
        { revision := 1, replicas := 2, readyReplicas := 1 }).insert "billing"
        { revision := 1, replicas := 1, readyReplicas := 1 } }

/-- The call reports the integration as undeployed; nothing runs under its name, and the other
deployment runs on. -/
theorem orders_stopped_beside_billing : ∃ q,
    Handler.deactivate.execute runningCall runningPlace
        = (.report { version := 1, state := .undeployed },
          { runningPlace with provisioner := q }) ∧
      q.StoppedUnder "orders-sync" ∧
      q.deployment? "billing" = some { revision := 1, replicas := 1, readyReplicas := 1 } := by
  have hname : resourceName runningCall.integration = "orders-sync" := by decide
  obtain ⟨q, hend, hlowers, hstops, hreports⟩ := undeployed_stops runningCall runningPlace
  rw [hname] at hlowers hstops hreports
  obtain ⟨state, hreport, hundeployed⟩ := hreports 1 (by decide) rfl rfl
  obtain rfl : state = .undeployed := by
    refine hundeployed.2 fun m hm => ?_
    obtain rfl : { revision := 1, replicas := 2, readyReplicas := 1 } = m :=
      Option.some.inj (Eq.trans (by decide) hm)
    rfl
  have hfaults : ∀ err, (runningPlace.provisioner.gate .scale).fault = some err →
      err.isNotFound = false := by
    intro err hfault
    cases hfault
  exact ⟨q, Prod.ext hreport hend, hstops _ hreport rfl hfaults,
    hlowers.spared "billing" _ (by decide) (.inl (by decide))⟩

end Deactivation

end Convergence
