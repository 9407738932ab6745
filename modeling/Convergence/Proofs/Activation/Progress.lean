import Convergence.Proofs.Activation.Plan
import Convergence.Proofs.Backend.Refusals
import Convergence.Proofs.Worker.Timers
/-!
# What an attempt reports of its progress

An attempt may fail at any of its requests, and at the generation of the project.  It reports the
setup steps that are done, and where the project can be cloned from, also if it fails.

Every request but the secret and the question at the end is made for one of the setup steps, and a
step is carried out if its requests were made and granted.  `Records` says that a step is noted if
it was carried out; the plans of both steps do so, and from them `convergePlan_records` follows for
the whole.

The main result is `reports_progress`: what is reported is just what was carried out, and an attempt
counts as failed just if something failed, which then was the last that it asked for.
-/

namespace Convergence.Activation

/-! ## The requests of a setup step -/

/-- The setup step that a request is made for. -/
def stepOf? : BackendRequest → Option String
  | .webhookUrl _ _ => some SetupSteps.sourceRepo
  | .push _ _ _ _ => some SetupSteps.sourceRepo
  | .cloneUrl _ => some SetupSteps.provisioning
  | .create _ => some SetupSteps.provisioning
  | _ => none

/-- The part of a log that is about a setup step. -/
def ofStep (log : List Entry) (step : String) : List Entry :=
  log.filter fun x => stepOf? x.request == some step

/-- The requests of a setup step were made, and all of them granted. -/
def carriedOut (log : List Entry) (step : String) : Bool :=
  !(ofStep log step).isEmpty && (ofStep log step).all (·.granted)

section Logs

variable {log l m : List Entry} {step : String}

lemma ofStep_eq_self (h : ∀ x ∈ log, stepOf? x.request = some step) : ofStep log step = log :=
  List.filter_eq_self.2 fun x hx => by simp [h x hx]

lemma ofStep_eq_nil (h : ∀ x ∈ log, stepOf? x.request ≠ some step) : ofStep log step = [] :=
  List.filter_eq_nil_iff.2 fun x hx => by simp [h x hx]

lemma ofStep_append (l m : List Entry) (step : String) :
    ofStep (l ++ m) step = ofStep l step ++ ofStep m step := List.filter_append ..

lemma carriedOut_append_left (h : ∀ x ∈ m, stepOf? x.request ≠ some step) :
    carriedOut (l ++ m) step = carriedOut l step := by
  rw [carriedOut, ofStep_append, ofStep_eq_nil h, List.append_nil, carriedOut]

lemma carriedOut_append_right (h : ∀ x ∈ l, stepOf? x.request ≠ some step) :
    carriedOut (l ++ m) step = carriedOut m step := by
  rw [carriedOut, ofStep_append, ofStep_eq_nil h, List.nil_append, carriedOut]

lemma carriedOut_of_granted (hown : ∀ x ∈ log, stepOf? x.request = some step) (hne : log ≠ [])
    (h : ∀ x ∈ log, x.granted = true) : carriedOut log step = true := by
  rw [carriedOut, ofStep_eq_self hown]
  simpa [hne] using h

lemma not_carriedOut_of_refused (hown : ∀ x ∈ log, stepOf? x.request = some step) {x : Entry}
    (hx : x ∈ log) (h : x.granted = false) : carriedOut log step = false := by
  rw [carriedOut, ofStep_eq_self hown, Bool.and_eq_false_iff]
  exact Or.inr (List.all_eq_false.2 ⟨x, hx, by simp [h]⟩)

end Logs

/-! ## Giving up -/

section Plans

variable {generate : Project.Generator} {c : Call} (d : Descriptor) (n : Notes)

/-- The first setup step gives up at the first refusal, if there is a project or none is needed. -/
lemma givesUp_repositoryPlan (hfiles : n.steps.isDone SetupSteps.sourceRepo = true ∨
      ∃ files, generate c.integration c.revision = .ok files) :
    (repositoryPlan generate c d n).GivesUp fun q => stepOf? q = some SetupSteps.sourceRepo := by
  rw [repositoryPlan]
  split
  · exact .ok _ _
  · next hdone =>
    obtain ⟨files, hfiles⟩ := hfiles.resolve_left hdone
    rw [hfiles]
    refine .of_answers rfl fun a => ?_
    rcases a with err | webhook
    · exact Or.inl ⟨_, n, rfl, rfl⟩
    refine Or.inr ⟨rfl, .of_answers rfl fun a => ?_⟩
    rcases a with err | url
    · exact Or.inl ⟨_, n, rfl, rfl⟩
    · exact Or.inr ⟨rfl, .ok _ _⟩

/-- To ask where the sources are is part of the second setup step. -/
lemma givesUp_sourcesPlan {α β : Type}
    {f : Except SourceControlError String → Plan (Except ReconcileError α × β)}
    (hok : ∀ url, (f (.ok url)).GivesUp fun q => stepOf? q = some SetupSteps.provisioning)
    (herror : ∀ err, ∃ b, f (.error err) = .done (.error (.sourceControl err), b)) :
    ((sourcesPlan d n).bind f).GivesUp fun q => stepOf? q = some SetupSteps.provisioning := by
  rw [sourcesPlan]
  split
  · next url _ => exact hok url
  · refine .of_answers rfl fun a => ?_
    rcases a with err | url
    · obtain ⟨b, hnext⟩ := herror err
      exact Or.inl ⟨_, b, rfl, hnext⟩
    · exact Or.inr ⟨rfl, hok url⟩

/-- The second setup step gives up at the first refusal. -/
lemma givesUp_deploymentPlan :
    (deploymentPlan d n).GivesUp fun q => stepOf? q = some SetupSteps.provisioning := by
  rw [deploymentPlan]
  split
  · exact .ok _ _
  refine givesUp_sourcesPlan d n (fun url => .of_answers rfl fun a => ?_) fun err => ⟨n, rfl⟩
  rcases a with err | ⟨⟩
  · exact Or.inl ⟨_, n, rfl, rfl⟩
  · exact Or.inr ⟨rfl, .ok _ _⟩

lemma givesUp_scaledPlan : (scaledPlan d n).GivesUp fun q => stepOf? q = none := by
  refine .of_answers rfl fun a => ?_
  rcases a with err | scaled
  · exact Or.inl ⟨_, n, rfl, rfl⟩
  · exact Or.inr ⟨rfl, .ok _ _⟩

end Plans

/-! ## What is noted -/

/-- A setup step is noted if it was carried out and not noted before.  It has made all of the
requests. -/
structure Records (step : String) (n : Notes) (log : List Entry) (n' : Notes) : Prop where
  own : ∀ x ∈ log, stepOf? x.request = some step
  done : n'.steps.done = n.steps.done ++
    [step].filter fun step => !n.steps.isDone step && carriedOut log step

variable {generate : Project.Generator} {c : Call} {d : Descriptor} {n n' n₁ n₂ : Notes}
  {e e' : Environment} {log l₁ l₂ l₃ : List Entry} {result : Except ReconcileError Unit}
  {errs : List ReconcileError}

/-- A setup step that was not asked for changes no notes. -/
lemma Records.refl (step : String) (n : Notes) : Records step n [] n := by
  refine ⟨by simp, ?_⟩
  simp [carriedOut, ofStep]

/-- A setup step that comes to an error was not carried out. -/
lemma Records.of_error {step : String} {err : ReconcileError}
    (hown : ∀ x ∈ log, stepOf? x.request = some step)
    (hended : Plan.Ended (.error err : Except ReconcileError Unit) log errs) :
    Records step n log n := by
  refine ⟨hown, ?_⟩
  cases hended with
  | @gaveUp err before x hl hx =>
    have hlast : x ∈ before ++ [x] := List.mem_append_right _ (List.mem_singleton_self x)
    simp [not_carriedOut_of_refused hown hlast hx]

/-- A setup step that had an effect was carried out. -/
lemma Records.of_effect {step : String} {x : Effect}
    (hown : ∀ x ∈ log, stepOf? x.request = some step) (hdone : n.steps.isDone step = false)
    (hlog : effects log = [x])
    (hended : Plan.Ended (.ok () : Except ReconcileError Unit) log errs)
    (hn' : n'.steps = n.steps.mark step) : Records step n log n' := by
  refine ⟨hown, ?_⟩
  cases hended with
  | through hl =>
    have hne : log ≠ [] := by
      rintro rfl
      cases hlog
    rw [hn', SetupSteps.done_mark (SetupSteps.not_mem_of_isDone hdone)]
    simp [hdone, carriedOut_of_granted hown hne hl]

lemma RepositorySetUp.records (h : RepositorySetUp generate c d n e (result, n') e' log)
    (hown : ∀ x ∈ log, stepOf? x.request = some SetupSteps.sourceRepo)
    (hended : Plan.Ended result log errs) : Records SetupSteps.sourceRepo n log n' := by
  cases h with
  | skipped hdone => exact .refl _ n
  | failed hdone hsame hlog => exact .of_error hown hended
  | pushed hdone hfiles hrepositories hurl hdeployments hlog =>
    exact .of_effect hown hdone hlog hended rfl

lemma DeploymentSetUp.records (h : DeploymentSetUp d n e (result, n') e' log)
    (hown : ∀ x ∈ log, stepOf? x.request = some SetupSteps.provisioning)
    (hended : Plan.Ended result log errs) : Records SetupSteps.provisioning n log n' := by
  cases h with
  | skipped hdone => exact .refl _ n
  | failed hdone hsame hlog => exact .of_error hown hended
  | created hdone hurl hdeployments hsource hlog => exact .of_effect hown hdone hlog hended rfl

/-- The setup steps that were not noted before and were carried out, in order. -/
def newSteps (n : Notes) (log : List Entry) : List String :=
  [SetupSteps.sourceRepo, SetupSteps.provisioning].filter fun step =>
    !n.steps.isDone step && carriedOut log step

/-- Both setup steps, one after the other, and requests that are made for none. -/
lemma Records.both (h₁ : Records SetupSteps.sourceRepo n l₁ n₁)
    (h₂ : Records SetupSteps.provisioning n₁ l₂ n₂) (h₃ : ∀ x ∈ l₃, stepOf? x.request = none) :
    n₂.steps.done = n.steps.done ++ newSteps n (l₁ ++ l₂ ++ l₃) := by
  have hsource : carriedOut (l₁ ++ l₂ ++ l₃) SetupSteps.sourceRepo
      = carriedOut l₁ SetupSteps.sourceRepo := by
    rw [carriedOut_append_left fun x hx => by simp [h₃ x hx],
      carriedOut_append_left fun x hx => by rw [h₂.own x hx]; decide]
  have hprovisioning : carriedOut (l₁ ++ l₂ ++ l₃) SetupSteps.provisioning
      = carriedOut l₂ SetupSteps.provisioning := by
    rw [carriedOut_append_left fun x hx => by simp [h₃ x hx],
      carriedOut_append_right fun x hx => by rw [h₁.own x hx]; decide]
  -- the first step notes nothing about the second
  have hother :
      n₁.steps.isDone SetupSteps.provisioning = n.steps.isDone SetupSteps.provisioning := by
    rw [Bool.eq_iff_iff, SetupSteps.isDone_iff, SetupSteps.isDone_iff, h₁.done, List.mem_append,
      List.mem_filter, List.mem_singleton]
    exact or_iff_left fun h => absurd h.1 (by decide)
  have hsplit : newSteps n (l₁ ++ l₂ ++ l₃) =
      ([SetupSteps.sourceRepo].filter fun step => !n.steps.isDone step && carriedOut l₁ step) ++
        [SetupSteps.provisioning].filter fun step =>
          !n₁.steps.isDone step && carriedOut l₂ step := by
    rw [newSteps, ← List.singleton_append, List.filter_append]
    simp only [List.filter_cons, List.filter_nil, hsource, hprovisioning, hother]
  rw [hsplit, h₂.done, h₁.done, List.append_assoc]

/-- If there is a project or none is needed, both setup steps and the question get through or end at
the first refusal, and note what was carried out. -/
theorem convergePlan_records (hfiles : n.steps.isDone SetupSteps.sourceRepo = true ∨
      ∃ files, generate c.integration c.revision = .ok files) :
    Plan.Ended ((convergePlan generate c d n).run e).1.1 ((convergePlan generate c d n).log e)
        ((convergePlan generate c d n).errors e) ∧
      ((convergePlan generate c d n).run e).1.2.steps.done =
        n.steps.done ++ newSteps n ((convergePlan generate c d n).log e) := by
  have h₁ := repositorySetUp generate c d n e
  have hgives₁ := givesUp_repositoryPlan d n hfiles
  have hown₁ := hgives₁.asks_of_mem e
  have hended₁ := hgives₁.ended e
  rw [convergePlan, Plan.run_bind, Plan.log_bind, Plan.errors_bind]
  generalize (repositoryPlan generate c d n).errors e = errs₁ at hended₁ ⊢
  generalize (repositoryPlan generate c d n).log e = l₁ at h₁ hown₁ hended₁ ⊢
  generalize (repositoryPlan generate c d n).run e = x₁ at h₁ hended₁ ⊢
  have hnone : ∀ x ∈ ([] : List Entry), stepOf? x.request = none := by simp
  rcases x₁ with ⟨⟨err | ⟨⟩, n₁⟩, e₁⟩
  · have hboth := (h₁.records hown₁ hended₁).both (.refl _ n₁) hnone
    rw [List.append_nil, List.append_nil] at hboth
    simpa [Plan.run, Plan.log, Plan.errors] using ⟨hended₁.error, hboth⟩
  have h₂ := deploymentSetUp d n₁ e₁
  have hgives₂ := givesUp_deploymentPlan d n₁
  have hown₂ := hgives₂.asks_of_mem e₁
  have hended₂ := hgives₂.ended e₁
  simp only [Plan.run_bind, Plan.log_bind, Plan.errors_bind]
  generalize (deploymentPlan d n₁).errors e₁ = errs₂ at hended₂ ⊢
  generalize (deploymentPlan d n₁).log e₁ = l₂ at h₂ hown₂ hended₂ ⊢
  generalize (deploymentPlan d n₁).run e₁ = x₂ at h₂ hended₂ ⊢
  rcases x₂ with ⟨⟨err | ⟨⟩, n₂⟩, e₂⟩
  · have hboth := (h₁.records hown₁ hended₁).both (h₂.records hown₂ hended₂) hnone
    rw [List.append_nil] at hboth
    simpa [Plan.run, Plan.log, Plan.errors] using ⟨hended₁.append hended₂.error, hboth⟩
  have hgives₃ := givesUp_scaledPlan d n₂
  have hended₃ := hgives₃.ended e₂
  have hboth := (h₁.records hown₁ hended₁).both (h₂.records hown₂ hended₂) (hgives₃.asks_of_mem e₂)
  have hnotes : ((scaledPlan d n₂).run e₂).1.2 = n₂ := by
    simp only [scaledPlan, Plan.run]
    split <;> rfl
  rw [hnotes, ← List.append_assoc, ← List.append_assoc]
  exact ⟨(hended₁.append hended₂).append hended₃, hboth⟩

/-! ## Where the project can be cloned from -/

lemma RepositorySetUp.gitRepo_eq (h : RepositorySetUp generate c d n e (result, n') e' log) :
    n'.gitRepo = if .push d.name ∈ effects log then some (e.sourceControl.cloneAddress d.name)
      else n.gitRepo := by
  cases h with
  | skipped hdone => simp
  | failed hdone hsame hlog => simp [hlog]
  | pushed hdone hfiles hrepositories hurl hdeployments hlog => simp [hlog]

lemma DeploymentSetUp.gitRepo_eq (h : DeploymentSetUp d n e (result, n') e' log) :
    n'.gitRepo = n.gitRepo := by
  cases h <;> rfl

/-- The address is noted if the project was pushed. -/
lemma Converged.gitRepo_eq {x : Except ReconcileError Bool × Notes}
    (h : Converged generate c d n e x e' log) :
    x.2.gitRepo = if .push d.name ∈ effects log then some (e.sourceControl.cloneAddress d.name)
      else n.gitRepo := by
  cases h with
  | unpushed h => exact h.gitRepo_eq
  | uncreated h₁ h₂ =>
    have hquiet := h₂.spares.1 d.name
    simp [h₂.gitRepo_eq, h₁.gitRepo_eq, hquiet]
  | asked h₁ h₂ hsame hlog =>
    have hquiet := h₂.spares.1 d.name
    simp [h₂.gitRepo_eq, h₁.gitRepo_eq, hquiet, hlog]

/-! ## Whole attempts -/

/-- The error with which the generation of the project fails, if it is due. -/
def generationError? (generate : Project.Generator) (c : Call) : Option ReconcileError :=
  if SetupSteps.sourceRepo ∈ c.integration.stepsDone then none
  else
    match generate c.integration c.revision with
    | .error err => some err
    | .ok _ => none

/-- What goes wrong in an attempt: the generation of the project, or a request. -/
def faults (generate : Project.Generator) (c : Call) (e : Environment) : List ReconcileError :=
  (generationError? generate c).toList ++ (plan generate c).errors e

/-- The project does not fail, or it fails and nothing is asked for. -/
lemma generation_cases (generate : Project.Generator) (c : Call) (d : Descriptor) (n : Notes)
    (hn : n.steps = .ofList c.integration.stepsDone) :
    (generationError? generate c = none ∧ (n.steps.isDone SetupSteps.sourceRepo = true ∨
        ∃ files, generate c.integration c.revision = .ok files)) ∨
      ∃ err, generationError? generate c = some err ∧
        convergePlan generate c d n = .done (.error err, n) := by
  have hdone : n.steps.isDone SetupSteps.sourceRepo = true ↔
      SetupSteps.sourceRepo ∈ c.integration.stepsDone := by
    rw [hn, SetupSteps.isDone_iff, SetupSteps.mem_ofList]
  rw [generationError?]
  by_cases hsource : SetupSteps.sourceRepo ∈ c.integration.stepsDone
  · rw [if_pos hsource]
    exact Or.inl ⟨rfl, Or.inl (hdone.2 hsource)⟩
  rw [if_neg hsource]
  cases hfiles : generate c.integration c.revision with
  | ok files => exact Or.inl ⟨rfl, Or.inr ⟨files, rfl⟩⟩
  | error err =>
    refine Or.inr ⟨err, rfl, ?_⟩
    rw [convergePlan, repositoryPlan, if_neg (mt hdone.1 hsource), hfiles]
    rfl

/-- What an attempt comes to, seen from what goes wrong: its result, its log without the secret, and
all errors. -/
inductive Concluded (generation : Option ReconcileError) :
    Except ReconcileError Bool → List Entry → List ReconcileError → Prop where
  | through {scaled : Bool} {log : List Entry} (hgeneration : generation = none)
      (hlog : ∀ x ∈ log, x.granted = true) : Concluded generation (.ok scaled) log []
  /-- There is no project. -/
  | ungenerated {err : ReconcileError} (hgeneration : generation = some err) :
      Concluded generation (.error err) [] [err]
  | refused {err : ReconcileError} {log : List Entry} {x : Entry} (hgeneration : generation = none)
      (hx : x ∈ log) (hrefused : x.granted = false) : Concluded generation (.error err) log [err]

lemma report_gitRepo (c : Call) (result : Except ReconcileError Bool) (n : Notes)
    (e : Environment) : (report c result (n.progress e)).gitRepo = n.gitRepo := by
  rcases result with err | _ | _ <;> rfl

/-- The steps are reported unless the integration is active. -/
lemma report_stepsDone {result : Except ReconcileError Bool}
    (h : (report c result (n.progress e)).state ≠ .active) :
    (report c result (n.progress e)).stepsDone = n.steps.done := by
  rcases result with err | _ | _
  · rfl
  · rfl
  · exact absurd rfl h

/-- A failure is reported just if something went wrong, with the error. -/
lemma Concluded.report_failed {generation : Option ReconcileError}
    {result : Except ReconcileError Bool} (h : Concluded generation result log errs) :
    ((report c result (n.progress e)).failed = true ↔
        generation.isSome = true ∨ ∃ x ∈ log, x.granted = false) ∧
      ((report c result (n.progress e)).failed = true →
        (report c result (n.progress e)).state = .pending ∧
          ∃ err, errs = [err] ∧
            (report c result (n.progress e)).message = some err.message) := by
  cases h with
  | @through scaled log hgeneration hlog =>
    have hnone : ¬ ∃ x ∈ log, x.granted = false := by
      rintro ⟨x, hx, hrefused⟩
      cases (hlog x hx).symm.trans hrefused
    cases scaled <;> simp [report, hgeneration, hnone]
  | ungenerated hgeneration => simp [report, hgeneration]
  | refused hgeneration hx hrefused =>
    exact ⟨⟨fun _ => Or.inr ⟨_, hx, hrefused⟩, fun _ => rfl⟩, fun _ => ⟨rfl, _, rfl, rfl⟩⟩

/-- Without a project nothing is asked for. -/
lemma Concluded.eq_nil_of_isSome {generation : Option ReconcileError}
    {result : Except ReconcileError Bool} (h : Concluded generation result log errs)
    (hsome : generation.isSome = true) : log = [] := by
  cases h with
  | ungenerated hgeneration => rfl
  | through hgeneration hlog => simp [hgeneration] at hsome
  | refused hgeneration hx hrefused => simp [hgeneration] at hsome

/-- An attempt comes to one of the cases, asks for nothing after a refusal, and notes what was
carried out. -/
theorem convergePlan_concluded (generate : Project.Generator) (c : Call) (d : Descriptor)
    (n : Notes) (hn : n.steps = .ofList c.integration.stepsDone) (e : Environment) :
    Concluded (generationError? generate c) ((convergePlan generate c d n).run e).1.1
        ((convergePlan generate c d n).log e)
        ((generationError? generate c).toList ++ (convergePlan generate c d n).errors e) ∧
      (∀ l x m, (convergePlan generate c d n).log e = l ++ x :: m → x.granted = false → m = []) ∧
      ((convergePlan generate c d n).run e).1.2.steps.done =
        n.steps.done ++ newSteps n ((convergePlan generate c d n).log e) := by
  rcases generation_cases generate c d n hn with ⟨hnone, hfiles⟩ | ⟨err, hsome, hplan⟩
  · obtain ⟨hended, hdone⟩ := convergePlan_records (d := d) (e := e) hfiles
    refine ⟨?_, fun l x m hlog hx => hended.eq_nil_of_refused hlog hx, hdone⟩
    rw [hnone]
    generalize ((convergePlan generate c d n).run e).1.1 = result at hended ⊢
    generalize (convergePlan generate c d n).log e = log at hended ⊢
    generalize (convergePlan generate c d n).errors e = errs at hended ⊢
    cases hended with
    | through hlog => exact .through rfl hlog
    | gaveUp hlog hx =>
      exact .refused rfl (List.mem_append_right _ (List.mem_singleton_self _)) hx
  · rw [hplan, hsome]
    refine ⟨.ungenerated rfl, by simp [Plan.log], ?_⟩
    simp [Plan.run, Plan.log, newSteps, carriedOut, ofStep]

/-- With a usable token an attempt makes up a secret, and then goes through the setup steps. -/
lemma plan_of_token (generate : Project.Generator) {token : Token} (e : Environment)
    (htoken : c.integration.token = some token) (hvalid : token.isExpired c.clock = false) :
    let p := convergePlan generate c (descriptor c token.value e.mint.1)
      { steps := .ofList c.integration.stepsDone }
    let x := p.run e.mint.2
    (plan generate c).run e = (.report (report c x.1.1 (x.1.2.progress {})), x.2) ∧
      (plan generate c).log e = ⟨.secret, true⟩ :: p.log e.mint.2 ∧
      (plan generate c).errors e = p.errors e.mint.2 := by
  simp [plan, htoken, hvalid, Plan.run, Plan.log, Plan.errors, Plan.run_bind, Plan.log_bind,
    Plan.errors_bind, BackendRequest.perform, BackendRequest.granted, BackendRequest.error?]

/-- The setup steps that are new to the notes of an attempt are those new to its record. -/
lemma newSteps_ofList (i : Integration) (asked : List Entry) :
    newSteps { steps := .ofList i.stepsDone } asked =
      [SetupSteps.sourceRepo, SetupSteps.provisioning].filter fun step =>
        step ∉ i.stepsDone ∧ carriedOut (⟨.secret, true⟩ :: asked) step = true := by
  refine List.filter_congr fun step _ => ?_
  -- the secret is made up for no step
  have hcarriedOut : carriedOut (⟨.secret, true⟩ :: asked) step = carriedOut asked step :=
    carriedOut_append_right (l := [⟨.secret, true⟩]) (by simp [stepOf?])
  have hdone : (SetupSteps.ofList i.stepsDone).isDone step = true ↔ step ∈ i.stepsDone :=
    SetupSteps.isDone_iff.trans SetupSteps.mem_ofList
  rw [hcarriedOut, Bool.eq_iff_iff, Bool.and_eq_true, decide_eq_true_eq, Bool.not_eq_true',
    ← Bool.not_eq_true, hdone]

/-- **An attempt reports just the progress that it made.**  With a usable token, whatever the
backends hold and fail with, an attempt ends with a report, and its log accounts for what it asked
of the backends.  The report says where the project can be cloned from if the project was pushed.
If the integration is not active, the steps reported are those of the record, each once, and then
the setup steps that were not among them and were carried out.  The attempt counts as failed if the
generation of the project failed or a request was refused; then it is pending, and the message is
that of the one error.  Nothing is asked for after a failure. -/
theorem reports_progress (generate : Project.Generator) (c : Call) (e : Environment)
    (htoken : c.integration.HasToken c.clock) :
    let name := resourceName c.integration
    let log := (plan generate c).log e
    ∃ u e', (Handler.activate generate).execute c e = (.report u, e') ∧ e.Accounts log e' ∧
      (u.gitRepo =
        if .push name ∈ effects log then some (e.sourceControl.cloneAddress name) else none) ∧
      (u.state ≠ .active → u.stepsDone = c.integration.stepsDone.eraseDups ++
        [SetupSteps.sourceRepo, SetupSteps.provisioning].filter fun step =>
          step ∉ c.integration.stepsDone ∧ carriedOut log step = true) ∧
      (u.failed = true ↔
        (generationError? generate c).isSome = true ∨ ∃ x ∈ log, x.granted = false) ∧
      (u.failed = true → u.state = .pending ∧
        ∃ err, faults generate c e = [err] ∧ u.message = some err.message) ∧
      (∀ l x m, log = l ++ x :: m → x.granted = false → m = []) ∧
      ((generationError? generate c).isSome = true → log = [⟨.secret, true⟩]) := by
  intro name log
  obtain ⟨token, htoken, hvalid⟩ := htoken
  let d := descriptor c token.value e.mint.1
  let n : Notes := { steps := .ofList c.integration.stepsDone }
  let p := convergePlan generate c d n
  obtain ⟨hrun, hplanLog, herrors⟩ := plan_of_token generate e htoken hvalid
  have hlog : log = ⟨.secret, true⟩ :: p.log e.mint.2 := hplanLog
  have hexecute : (Handler.activate generate).execute c e = (plan generate c).run e :=
    (run_plan generate c e).symm
  have haccounts := (plan generate c).accounts_run e
  obtain ⟨hconcluded, hlast, hdone⟩ := convergePlan_concluded generate c d n rfl e.mint.2
  obtain ⟨hfailed, hmessage⟩ := hconcluded.report_failed
  have hgitRepo := (converged generate c d n e.mint.2).gitRepo_eq
  have heffects : effects log = effects (p.log e.mint.2) := by
    rw [hlog]
    simp [effects, Entry.effect?]
  rw [hrun] at haccounts
  refine ⟨_, _, hexecute.trans hrun, haccounts, ?_, fun hactive => ?_, ?_, ?_, ?_, ?_⟩
  · rw [report_gitRepo, hgitRepo, heffects, descriptor_name]
    rfl
  · rw [report_stepsDone hactive, hdone, newSteps_ofList, SetupSteps.done_ofList_eq_eraseDups,
      hlog]
  · rw [hfailed, hlog]
    simp [p]
  · rw [faults, herrors]
    exact hmessage
  · intro l x m hsplit hx
    rcases l with _ | ⟨y, l⟩
    · cases hlog.symm.trans hsplit
      cases hx
    · exact hlast l x m (List.cons.inj (hlog.symm.trans hsplit)).2 hx
  · intro hsome
    rw [hlog, show p.log e.mint.2 = [] from hconcluded.eq_nil_of_isSome hsome]

/-- A call for a record with steps of its own, one of them twice. -/
def reviewedCall : Call where
  integration :=
    { Workplace.draftedRecord with
      token := some { value := "t" }
      stepsDone := ["reviewed", "tested", "reviewed"] }
  revision := {}
  clock := Workplace.draftedRecord.createdAt

/-- No deployment can be made. -/
def exhausted : Environment where
  provisioner := ({} : Provisioner).failNext .create (.failed "create" "quota exceeded")

/-- The push is reported by an attempt that fails after it. -/
theorem push_reported : ∃ u e',
    (Handler.activate fun _ _ => .ok .empty).execute reviewedCall exhausted = (.report u, e') ∧
      u.failed = true ∧ u.gitRepo = some "https://git.local/orders-sync.git" ∧
      u.stepsDone = ["reviewed", "tested", SetupSteps.sourceRepo] := by
  obtain ⟨u, e', hexecute, -, hgitRepo, hsteps, hfailed, hmessage, -⟩ :=
    reports_progress (fun _ _ => .ok .empty) reviewedCall exhausted ⟨_, rfl, rfl⟩
  have hrefused : ∃ x ∈ (plan (fun _ _ => .ok .empty) reviewedCall).log exhausted,
      x.granted = false := by decide +kernel
  have hu : u.failed = true := hfailed.2 (Or.inr hrefused)
  have hactive : u.state ≠ .active := by
    rw [(hmessage hu).1]
    decide
  refine ⟨u, e', hexecute, hu, hgitRepo.trans ?_, (hsteps hactive).trans ?_⟩
  · decide +kernel
  · decide +kernel

end Convergence.Activation
