import Mathlib.Tactic.Lemma
import Convergence.Backend.Provisioner
/-!
# What the calls of the provisioner do

Each call counts itself and no other operation, and an answer that a deployment is scaled describes
the deployment as it then is.  `webhookUrl_cases`, `create_cases` and `isScaled_cases` say what a
call can come to, and `Scaled` lists what scaling can come to.

Scaling to zero only lowers the count of replicas, and only of the one deployment that runs the
version (`Lowers`).  A provisioner that serves does all it is asked for at once (`Serves`).
-/

namespace Convergence.Provisioner

variable {p p' : Provisioner} {d : Descriptor} {call : ProvisionCall}

lemma calls_enter (p : Provisioner) (entered call : ProvisionCall) :
    (p.enter entered).2.calls call = p.calls call + if call = entered then 1 else 0 := by
  unfold calls enter
  by_cases hc : call = entered
  · subst hc
    simp [Gate.enter]
  · simp [hc]

@[simp] lemma deployments_enter (p : Provisioner) (call : ProvisionCall) :
    (p.enter call).2.deployments = p.deployments := rfl

@[simp] lemma calls_place (p : Provisioner) (name : String) (m : Deployment)
    (call : ProvisionCall) : (p.place name m).calls call = p.calls call := rfl

lemma calls_create (p : Provisioner) (d : Descriptor) (call : ProvisionCall) :
    (p.create d).2.calls call = p.calls call + if call = .create then 1 else 0 := by
  have henter := p.calls_enter .create call
  rw [create]
  split <;> next h => simpa [h] using henter

lemma calls_webhookUrl (p : Provisioner) (d : Descriptor) (secret : String)
    (call : ProvisionCall) :
    (p.webhookUrl d secret).2.calls call = p.calls call + if call = .webhookUrl then 1 else 0 := by
  have henter := p.calls_enter .webhookUrl call
  rw [webhookUrl]
  split <;> next h => simpa [h] using henter

lemma calls_isScaled (p : Provisioner) (d : Descriptor) (call : ProvisionCall) :
    (p.isScaled d).2.calls call = p.calls call + if call = .isScaled then 1 else 0 := by
  have henter := p.calls_enter .isScaled call
  rw [isScaled]
  split <;> next h => simpa [h] using henter

/-- A deployment that is scaled is there, and runs what is asked for. -/
lemma deployment_of_isScaled (h : p.isScaled d = (.ok true, p')) :
    ∃ m, p'.deployment? d.name = some m ∧ m.revision = d.revision ∧ m.replicas = d.replicas ∧
      m.readyReplicas = d.replicas := by
  rw [isScaled] at h
  split at h
  · cases h
  · next q henter =>
    obtain ⟨hany, rfl⟩ : (q.deployment? d.name).any (·.runs d) = true ∧ q = p' := by simpa using h
    obtain ⟨m, hm, hruns⟩ := (Option.any_eq_true _ _).1 hany
    simp only [Deployment.runs, Bool.and_eq_true, beq_iff_eq] at hruns
    exact ⟨m, hm, hruns.1.1, hruns.1.2, hruns.2⟩

/-! ## What a call can come to -/

section Cases

variable (p : Provisioner) (d : Descriptor)

/-- An address is given, or the call fails. -/
lemma webhookUrl_cases (secret : String) :
    (∃ e gate, p.webhookUrl d secret = (.error e, { p with gate })) ∨
      ∃ gate, p.webhookUrl d secret = (.ok (p.webhookAddress d.name secret), { p with gate }) := by
  rw [webhookUrl, enter, Gate.enter]
  cases (p.gate .webhookUrl).fault with
  | none => exact Or.inr ⟨_, rfl⟩
  | some e => exact Or.inl ⟨e, _, rfl⟩

/-- A deployment is made, or the call fails. -/
lemma create_cases :
    (∃ e gate, p.create d = (.error e, { p with gate })) ∨
      ∃ gate, p.create d
        = (.ok (), { p with gate, deployments := p.deployments.insert d.name (p.fresh d) }) := by
  rw [create, enter, Gate.enter]
  cases (p.gate .create).fault with
  | none => exact Or.inr ⟨_, rfl⟩
  | some e => exact Or.inl ⟨e, _, rfl⟩

/-- The question is answered, or the call fails. -/
lemma isScaled_cases :
    (∃ e gate, p.isScaled d = (.error e, { p with gate })) ∨
      ∃ gate, p.isScaled d
        = (.ok ((p.deployment? d.name).any (·.runs d)), { p with gate }) := by
  rw [isScaled, enter, Gate.enter]
  cases (p.gate .isScaled).fault with
  | none => exact Or.inr ⟨_, rfl⟩
  | some e => exact Or.inl ⟨e, _, rfl⟩

/-- A call that nothing is made to fail goes through, before and after any other call. -/
lemma fault_enter (entered : ProvisionCall) {call : ProvisionCall}
    (hfault : (p.gate call).fault = none) : ((p.enter entered).2.gate call).fault = none := by
  by_cases hcall : call = entered
  · simp [enter, Gate.enter, hcall]
  · simp [enter, hcall, hfault]

/-- The question is answered if it is not made to fail. -/
lemma isScaled_of_fault (hfault : (p.gate .isScaled).fault = none) :
    p.isScaled d
      = (.ok ((p.deployment? d.name).any (·.runs d)), (p.enter .isScaled).2) := by
  have henter : p.enter .isScaled = (none, (p.enter .isScaled).2) :=
    Prod.ext hfault rfl
  rw [isScaled, henter]
  rfl

/-- The question leaves all deployments alone. -/
lemma deployment?_isScaled (name : String) :
    (p.isScaled d).2.deployment? name = p.deployment? name := by
  rcases p.isScaled_cases d with ⟨_, _, hp⟩ | ⟨_, hp⟩ <;> rw [hp] <;> rfl

/-- What scaling can come to: its result, and the provisioner afterwards. -/
inductive Scaled : Except ProvisionError Unit → Provisioner → Prop where
  /-- The call was made to fail. -/
  | failed {e : ProvisionError} (hfault : (p.gate .scale).fault = some e) :
      Scaled (.error e) (p.enter .scale).2
  /-- There is no such deployment. -/
  | absent (hfault : (p.gate .scale).fault = none) (hm : p.deployment? d.name = none) :
      Scaled (.error (.notFound d.name)) (p.enter .scale).2
  /-- The deployment runs another revision, and is left alone. -/
  | spared {m : Deployment} (hfault : (p.gate .scale).fault = none)
      (hm : p.deployment? d.name = some m) (hother : m.revision ≠ d.revision) :
      Scaled (.ok ()) (p.enter .scale).2
  | scaled {m : Deployment} (hfault : (p.gate .scale).fault = none)
      (hm : p.deployment? d.name = some m) (hrevision : m.revision = d.revision) :
      Scaled (.ok ()) ((p.enter .scale).2.place d.name
        { m with replicas := d.replicas, readyReplicas := p.readyAtOnce d.replicas })

/-- Scaling comes to one of the cases. -/
theorem scale_scaled : p.Scaled d (p.scale d).1 (p.scale d).2 := by
  have hdeployment : (p.enter .scale).2.deployment? d.name = p.deployment? d.name := rfl
  have henter : p.enter .scale = ((p.gate .scale).fault, (p.enter .scale).2) := rfl
  rw [scale, henter]
  cases hfault : (p.gate .scale).fault with
  | some e => exact .failed hfault
  | none =>
    simp only [hdeployment]
    cases hm : p.deployment? d.name with
    | none => exact .absent hfault hm
    | some m =>
      dsimp only
      split
      · next hrevision => exact .scaled hfault hm hrevision
      · next hother => exact .spared hfault hm hother

end Cases

/-- Scaling makes no other call fail. -/
lemma Scaled.fault {r : Except ProvisionError Unit} (h : p.Scaled d r p')
    (hfault : (p.gate call).fault = none) : (p'.gate call).fault = none := by
  have henter := p.fault_enter .scale hfault
  cases h with
  | failed _ => exact henter
  | absent _ _ => exact henter
  | spared _ _ _ => exact henter
  | scaled _ _ _ => exact henter

/-! ## Scaling to zero -/

/-- No deployment comes or goes, no count of replicas is raised, and only the deployment of the name
changes, if it runs the version. -/
structure Lowers (name : String) (version : Option Version) (p p' : Provisioner) : Prop where
  absent : ∀ other, p.deployment? other = none → p'.deployment? other = none
  lowered : ∀ other m, p.deployment? other = some m → ∃ replicas ready,
    p'.deployment? other = some { m with replicas, readyReplicas := ready } ∧
      replicas ≤ m.replicas
  spared : ∀ other m, p.deployment? other = some m → other ≠ name ∨ version ≠ some m.revision →
    p'.deployment? other = some m

namespace Lowers

variable {name : String} {version : Option Version} {p p' p'' : Provisioner}

/-- Nothing changes. -/
lemma of_same (h : ∀ other, p'.deployment? other = p.deployment? other) :
    Lowers name version p p' where
  absent := fun other hm => (h other).trans hm
  lowered := fun other m hm => ⟨m.replicas, m.readyReplicas, (h other).trans hm, Nat.le_refl _⟩
  spared := fun other _ hm _ => (h other).trans hm

lemma trans (h : Lowers name version p p') (h' : Lowers name version p' p'') :
    Lowers name version p p'' where
  absent := fun other hm => h'.absent other (h.absent other hm)
  lowered := by
    intro other m hm
    obtain ⟨replicas, ready, hm', hle⟩ := h.lowered other m hm
    obtain ⟨replicas', ready', hm'', hle'⟩ := h'.lowered other _ hm'
    exact ⟨replicas', ready', hm'', Nat.le_trans hle' hle⟩
  spared := fun other m hm hother => h'.spared other m (h.spared other m hm hother) hother

end Lowers

/-- Scaling to zero lowers the deployment of the descriptor, or leaves it alone. -/
lemma Scaled.lowers {r : Except ProvisionError Unit} (h : p.Scaled d r p')
    (hzero : d.replicas = 0) : Lowers d.name (some d.revision) p p' := by
  cases h with
  | failed hfault => exact .of_same fun _ => rfl
  | absent hfault hm => exact .of_same fun _ => rfl
  | spared hfault hm hother => exact .of_same fun _ => rfl
  | @scaled m hfault hm hrevision =>
    have hothers : ∀ other, other ≠ d.name → ((p.enter .scale).2.place d.name
        { m with replicas := d.replicas, readyReplicas := p.readyAtOnce d.replicas }).deployment?
          other = p.deployment? other :=
      fun other hne => Dict.find?_insert_of_ne _ _ hne
    refine ⟨fun other hnone => ?_, fun other m' hm' => ?_, fun other m' hm' hspared => ?_⟩
    · have hne : other ≠ d.name := by
        rintro rfl
        simp [hm] at hnone
      exact (hothers other hne).trans hnone
    · by_cases hname : other = d.name
      · subst hname
        obtain rfl : m = m' := Option.some.inj (hm.symm.trans hm')
        exact ⟨d.replicas, _, Dict.find?_insert_self .., by omega⟩
      · exact ⟨m'.replicas, m'.readyReplicas, (hothers other hname).trans hm', Nat.le_refl _⟩
    · have hne : other ≠ d.name := by
        rintro rfl
        obtain rfl : m = m' := Option.some.inj (hm.symm.trans hm')
        simp [hrevision] at hspared
      exact (hothers other hne).trans hm'

/-- A deployment that was scaled to zero is as it should be, unless it runs another revision. -/
lemma Scaled.runs_iff (h : p.Scaled d (.ok ()) p') (hzero : d.replicas = 0) :
    (p'.deployment? d.name).any (·.runs d) = true ↔
      ∀ m, p.deployment? d.name = some m → m.revision = d.revision := by
  cases h with
  | @spared m hfault hm hother =>
    rw [show (p.enter .scale).2.deployment? d.name = some m from hm]
    simp [Deployment.runs, hm, hother]
  | @scaled m hfault hm hrevision =>
    rw [deployment?, place, Dict.find?_insert_self]
    simp [Deployment.runs, readyAtOnce, hm, hrevision, hzero]

/-! ## Provisioners that serve -/

/-- No call is made to fail, and replicas are ready as soon as they are asked for. -/
structure Serves (p : Provisioner) : Prop where
  autoReady : p.autoReady = true
  faultless : ∀ call, (p.gate call).fault = none

/-- The deployment of the name runs the version at the scale, with every replica ready. -/
def RunsAt (p : Provisioner) (name : String) (version : Version) (replicas : Nat) : Prop :=
  ∃ m, p.deployment? name = some m ∧ m.revision = version ∧ m.replicas = replicas ∧
    m.readyReplicas = replicas

namespace Serves

lemma enter (h : p.Serves) (call : ProvisionCall) : (p.enter call).2.Serves :=
  ⟨h.autoReady, fun other => p.fault_enter call (h.faultless other)⟩

lemma webhookUrl (h : p.Serves) (d : Descriptor) (secret : String) :
    p.webhookUrl d secret = (.ok (p.webhookAddress d.name secret), (p.enter .webhookUrl).2) := by
  have henter : p.enter .webhookUrl = (none, (p.enter .webhookUrl).2) :=
    Prod.ext (h.faultless .webhookUrl) rfl
  rw [Provisioner.webhookUrl, henter]
  rfl

lemma create (h : p.Serves) (d : Descriptor) :
    p.create d = (.ok (), (p.enter .create).2.place d.name (p.fresh d)) := by
  have henter : p.enter .create = (none, (p.enter .create).2) :=
    Prod.ext (h.faultless .create) rfl
  rw [Provisioner.create, henter]
  rfl

/-- A deployment that is made runs at once. -/
lemma runsAt_create (h : p.Serves) (d : Descriptor) :
    (p.create d).2.Serves ∧ (p.create d).2.RunsAt d.name d.revision d.replicas := by
  rw [h.create d]
  refine ⟨⟨h.autoReady, (h.enter .create).faultless⟩, p.fresh d, Dict.find?_insert_self .., rfl,
    rfl, ?_⟩
  simp [fresh, readyAtOnce, h.autoReady]

lemma scaled (h : p.Serves) {r : Except ProvisionError Unit} (hs : p.Scaled d r p') :
    p'.Serves := by
  refine ⟨?_, fun call => hs.fault (h.faultless call)⟩
  cases hs with
  | failed _ => exact h.autoReady
  | absent _ _ => exact h.autoReady
  | spared _ _ _ => exact h.autoReady
  | scaled _ _ _ => exact h.autoReady

end Serves

/-- What runs at a scale is what a question for this scale is about. -/
lemma RunsAt.any_runs (h : p.RunsAt d.name d.revision d.replicas) :
    (p.deployment? d.name).any (·.runs d) = true := by
  obtain ⟨m, hm, hrevision, hreplicas, hready⟩ := h
  simp [hm, Deployment.runs, hrevision, hreplicas, hready]

end Convergence.Provisioner
